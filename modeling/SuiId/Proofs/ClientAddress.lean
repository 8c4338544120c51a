import SuiId.Core.ClientIp

/-!
# The client's address and who writes it

Every proxy appends an entry to the header, so what a client has written itself is to the left of
the entries of the trusted proxies.  The walk from the right should end at the first entry that is
not the address of a trusted proxy.  It does if that entry is an address.  An entry that is no
address, or a value that is no text, is passed over, and what is left of it decides.

A value that is no text counts as one entry here (`none`).
-/

namespace SuiId

open Lib

/-- The entries of the header, from left to right. -/
def forwarded (values : List (List UInt8)) : List (Option String) :=
  values.flatMap fun value =>
    match headerToStr value with
    | some s => (forwardedEntries s).map some
    | none => [none]

section Walk

variable (trustedProxies : List Cidr)

/-- The address of a trusted proxy. -/
def isProxy (entry : Option String) : Bool :=
  (entry.bind IpAddr.parse).any (anyContains trustedProxies)

def isDecisive (entry : Option String) : Bool := !isProxy trustedProxies entry

/-- The rightmost entry that is not the address of a trusted proxy. -/
def decisiveEntry (entries : List (Option String)) : Option (Option String) :=
  entries.reverse.find? (isDecisive trustedProxies)

/-- That entry and what is to the right of it, from right to left. -/
def fromDecisive (entries : List (Option String)) : List (Option String) :=
  entries.reverse.takeWhile (isProxy trustedProxies) ++
    (decisiveEntry trustedProxies entries).toList

variable {trustedProxies}

theorem xForwardedFor_eq (values : List (List UInt8)) :
    xForwardedFor values = (forwarded values).filterMap id := by
  induction values with
  | nil => rfl
  | cons value values ih =>
    have hcons : forwarded (value :: values) = (match headerToStr value with
        | some s => (forwardedEntries s).map some
        | none => [none]) ++ forwarded values := rfl
    rw [hcons, List.filterMap_append, ← ih, xForwardedFor]
    cases hvalue : headerToStr value with
    | none => simp [xForwardedFor, hvalue]
    | some s => simp [xForwardedFor, hvalue, List.filterMap_map]

/-- What the walk takes from an entry. -/
private def address (trustedProxies : List Cidr) (entry : Option String) : Option IpAddr :=
  entry.bind (untrusted trustedProxies)

variable {entry : Option String}

private theorem address_of_isProxy (h : isProxy trustedProxies entry = true) :
    address trustedProxies entry = none := by
  cases entry with
  | none => rfl
  | some s =>
    obtain ⟨ip, hparse, htrusted⟩ := (Option.any_eq_true _ _).mp h
    have hparse' : IpAddr.parse s = some ip := hparse
    simp [address, untrusted, hparse', htrusted]

private theorem address_of_parse {ip : IpAddr} (h : isProxy trustedProxies entry = false)
    (hparse : entry.bind IpAddr.parse = some ip) :
    address trustedProxies entry = some ip := by
  cases entry with
  | none => cases hparse
  | some s =>
    have hparse' : IpAddr.parse s = some ip := hparse
    rw [isProxy, hparse, Option.any_some] at h
    simp [address, untrusted, hparse', h]

/-- The walk ends at the decisive entry, if it is an address. -/
private theorem findSome?_address {es : List (Option String)}
    (haddress : ∀ entry, es.find? (isDecisive trustedProxies) = some entry →
      (entry.bind IpAddr.parse).isSome) :
    es.findSome? (address trustedProxies) =
      (es.find? (isDecisive trustedProxies)).bind (·.bind IpAddr.parse) := by
  induction es with
  | nil => rfl
  | cons entry es ih =>
    by_cases hproxy : isProxy trustedProxies entry = true
    · have hskip : ¬ isDecisive trustedProxies entry = true := by simp [isDecisive, hproxy]
      rw [List.find?_cons_of_neg hskip] at haddress ⊢
      rw [List.findSome?_cons, address_of_isProxy hproxy]
      exact ih haddress
    · rw [Bool.not_eq_true] at hproxy
      have hstop : isDecisive trustedProxies entry = true := by simp [isDecisive, hproxy]
      rw [List.find?_cons_of_pos hstop] at haddress ⊢
      obtain ⟨ip, hparse⟩ := Option.isSome_iff_exists.mp (haddress entry rfl)
      rw [List.findSome?_cons, address_of_parse hproxy hparse, Option.bind_some, hparse]

/-- Of what is kept, the same entry decides. -/
private theorem find?_fromDecisive (entries : List (Option String)) :
    (fromDecisive trustedProxies entries).find? (isDecisive trustedProxies) =
      decisiveEntry trustedProxies entries := by
  rw [fromDecisive, decisiveEntry]
  induction entries.reverse with
  | nil => rfl
  | cons entry es ih =>
    by_cases hproxy : isProxy trustedProxies entry = true
    · have hskip : ¬ isDecisive trustedProxies entry = true := by simp [isDecisive, hproxy]
      rw [List.takeWhile_cons_of_pos hproxy, List.find?_cons_of_neg hskip, List.cons_append,
        List.find?_cons_of_neg hskip, ih]
    · rw [Bool.not_eq_true] at hproxy
      have hstop : isDecisive trustedProxies entry = true := by simp [isDecisive, hproxy]
      rw [List.takeWhile_cons_of_neg (by simp [hproxy]), List.find?_cons_of_pos hstop]
      simp [hstop]

theorem decisiveEntry_congr {entries entries' : List (Option String)}
    (h : fromDecisive trustedProxies entries' = fromDecisive trustedProxies entries) :
    decisiveEntry trustedProxies entries' = decisiveEntry trustedProxies entries := by
  rw [← find?_fromDecisive, h, find?_fromDecisive]

variable {peer : IpAddr} {values : List (List UInt8)}

theorem clientIp_trusted (htrusted : anyContains trustedProxies peer = true)
    (values : List (List UInt8)) : clientIp trustedProxies (some peer) values =
      ((forwarded values).reverse.findSome? (address trustedProxies)).getD peer := by
  have hne : trustedProxies.isEmpty = false := by
    cases trustedProxies with
    | nil => cases htrusted
    | cons c cs => rfl
  have hwalk : ∀ es : List (Option String), (es.filterMap id).findSome? (untrusted trustedProxies) =
      es.findSome? (address trustedProxies) := by
    intro es
    induction es with
    | nil => rfl
    | cons entry es ih =>
      cases entry with
      | none => rw [List.findSome?_cons]; exact ih
      | some s =>
        show (s :: es.filterMap id).findSome? _ = _
        rw [List.findSome?_cons, List.findSome?_cons, ih]
        rfl
  rw [clientIp, xForwardedFor_eq, ← List.filterMap_reverse, hwalk, if_neg (by simp [hne, htrusted])]

/-- With an address in the decisive place, that address is the result. -/
theorem clientIp_of_address (htrusted : anyContains trustedProxies peer = true)
    (haddress : ∀ entry, decisiveEntry trustedProxies (forwarded values) = some entry →
      (entry.bind IpAddr.parse).isSome) :
    clientIp trustedProxies (some peer) values =
      ((decisiveEntry trustedProxies (forwarded values)).bind (·.bind IpAddr.parse)).getD peer := by
  rw [clientIp_trusted htrusted, findSome?_address haddress, decisiveEntry]

end Walk

/-! ## Headers of given entries -/

section Headers

variable {values : List (List UInt8)} {value : List UInt8}
variable {entry : Option String} {s : String}

theorem mem_forwarded :
    entry ∈ forwarded values ↔ ∃ value ∈ values, entry ∈ forwarded [value] := by
  simp [forwarded]

/-- The characters of a value that is a text. -/
private theorem visible_of_headerToStr (h : headerToStr value = some s) :
    ∀ c ∈ s.toList, (32 ≤ c.toNat ∧ c.toNat < 127) ∨ c.toNat = 9 := by
  obtain ⟨hvisible, hs⟩ := Option.ite_none_right_eq_some.mp h
  cases hs
  have hbyte : ∀ n < 256, (Char.ofNat n).toNat = n := by decide +kernel
  intro c hc
  rw [String.toList_ofList] at hc
  obtain ⟨b, hb, rfl⟩ := List.mem_map.mp hc
  have hb' := List.all_eq_true.mp hvisible b hb
  rw [hbyte _ b.toNat_lt]
  simp only [Bool.or_eq_true, Bool.and_eq_true, decide_eq_true_eq, beq_iff_eq,
    UInt8.le_iff_toNat_le, UInt8.lt_iff_toNat_lt, ← UInt8.toNat_inj] at hb'
  exact hb'

private theorem headerToStr_bytes
    (h : ∀ c ∈ s.toList, (32 ≤ c.toNat ∧ c.toNat < 127) ∨ c.toNat = 9) :
    headerToStr (s.toList.map fun c => UInt8.ofNat c.toNat) = some s := by
  have hback : ∀ c ∈ s.toList, (UInt8.ofNat c.toNat).toNat = c.toNat := by
    intro c hc
    rw [UInt8.toNat_ofNat']
    have hc' := h c hc
    omega
  rw [headerToStr, if_pos, List.map_map]
  · have hsame : (s.toList.map ((fun b : UInt8 => Char.ofNat b.toNat) ∘
        fun c => UInt8.ofNat c.toNat)) = s.toList := by
      refine (List.map_congr_left fun c hc => ?_).trans (List.map_id _)
      show Char.ofNat (UInt8.ofNat c.toNat).toNat = c
      rw [hback c hc, Char.ofNat_toNat]
    rw [hsame, String.ofList_toList]
  · rw [List.all_eq_true]
    intro b hb
    obtain ⟨c, hc, rfl⟩ := List.mem_map.mp hb
    have hc' := h c hc
    simp only [Bool.or_eq_true, Bool.and_eq_true, decide_eq_true_eq, beq_iff_eq,
      UInt8.le_iff_toNat_le, UInt8.lt_iff_toNat_lt, ← UInt8.toNat_inj, hback c hc]
    exact hc'

/-- An entry can stand alone in a value. -/
private theorem exists_value (h : entry ∈ forwarded values) :
    ∃ value, forwarded [value] = [entry] := by
  obtain ⟨value, -, hentry⟩ := mem_forwarded.mp h
  have hone : ∀ value, forwarded [value] = match headerToStr value with
      | some s => (forwardedEntries s).map some
      | none => [none] := fun value => List.append_nil _
  rw [hone] at hentry
  cases hvalue : headerToStr value with
  | none =>
    rw [hvalue] at hentry
    rw [List.mem_singleton.mp hentry]
    exact ⟨value, by rw [hone, hvalue]⟩
  | some t =>
    rw [hvalue] at hentry
    obtain ⟨s, hs, rfl⟩ := List.mem_map.mp hentry
    obtain ⟨hs, hnonempty⟩ := List.mem_filter.mp hs
    obtain ⟨piece, hpiece, rfl⟩ := List.mem_map.mp hs
    obtain ⟨hcomma, hsub⟩ := Text.mem_split hpiece
    have hvisible : ∀ c ∈ (Text.trim piece).toList,
        (32 ≤ c.toNat ∧ c.toNat < 127) ∨ c.toNat = 9 := fun c hc =>
      visible_of_headerToStr hvalue c (hsub (Text.mem_of_mem_trim hc))
    have hsplit : Text.split (Text.trim piece) ',' = [Text.trim piece] := by
      rw [Text.split, List.splitOn_eq_singleton fun hc => hcomma (Text.mem_of_mem_trim hc)]
      simp
    have hentries : forwardedEntries (Text.trim piece) = [Text.trim piece] := by
      have hkeep : (!(Text.trim piece).isEmpty) = true := hnonempty
      rw [forwardedEntries, hsplit, List.map_singleton, Text.trim_trim, List.filter_cons]
      simp only [hkeep, if_true, List.filter_nil]
    refine ⟨(Text.trim piece).toList.map fun c => UInt8.ofNat c.toNat, ?_⟩
    rw [hone, headerToStr_bytes hvisible]
    simp only [hentries, List.map_singleton]

/-- Entries of a header make a header. -/
private theorem exists_values {entries : List (Option String)}
    (h : ∀ entry ∈ entries, entry ∈ forwarded values) : ∃ values', forwarded values' = entries := by
  induction entries with
  | nil => exact ⟨[], rfl⟩
  | cons entry entries ih =>
    obtain ⟨values', hrest⟩ := ih fun e he => h e (List.mem_cons_of_mem _ he)
    obtain ⟨value, hvalue⟩ := exists_value (h entry (List.mem_cons_self ..))
    refine ⟨value :: values', ?_⟩
    have hcons : forwarded (value :: values') = forwarded [value] ++ forwarded values' := by
      simp [forwarded]
    rw [hcons, hvalue, hrest]
    rfl

end Headers

/-! ## Two requests -/

section Independence

variable {trustedProxies : List Cidr} {peer : IpAddr} {values : List (List UInt8)}

/-- No header names an address outside the trusted networks. -/
def AllAddressesTrusted (trustedProxies : List Cidr) : Prop :=
  ∀ value s ip, some s ∈ forwarded [value] → IpAddr.parse s = some ip →
    anyContains trustedProxies ip = true

private theorem clientIp_of_allTrusted (htrusted : anyContains trustedProxies peer = true)
    (hall : AllAddressesTrusted trustedProxies) (values : List (List UInt8)) :
    clientIp trustedProxies (some peer) values = peer := by
  have hnone : (forwarded values).reverse.findSome? (address trustedProxies) = none := by
    rw [List.findSome?_eq_none_iff]
    intro entry hentry
    obtain ⟨value, -, hvalue⟩ := mem_forwarded.mp (List.mem_reverse.mp hentry)
    cases entry with
    | none => rfl
    | some s =>
      show (IpAddr.parse s).filter _ = none
      rw [Option.filter_eq_none_iff]
      intro ip hparse
      simp [hall value s ip hvalue hparse]
  rw [clientIp_trusted htrusted, hnone, Option.getD_none]

variable {entries : List (Option String)} {entry : Option String}

private theorem reverse_fromDecisive {kept rest : List (Option String)}
    (hentry : decisiveEntry trustedProxies entries = some entry)
    (hkept : kept = fromDecisive trustedProxies entries) :
    fromDecisive trustedProxies (rest ++ kept.reverse) = kept := by
  rw [decisiveEntry] at hentry
  rw [fromDecisive, decisiveEntry] at hkept
  rw [fromDecisive, decisiveEntry, List.reverse_append, List.reverse_reverse]
  generalize entries.reverse = es at hentry hkept
  induction es generalizing kept with
  | nil => cases hentry
  | cons first es ih =>
    by_cases hproxy : isProxy trustedProxies first = true
    · have hskip : ¬ isDecisive trustedProxies first = true := by simp [isDecisive, hproxy]
      rw [List.find?_cons_of_neg hskip] at hentry hkept
      rw [List.takeWhile_cons_of_pos hproxy, List.cons_append] at hkept
      have hrest := ih hentry rfl
      rw [hkept, List.cons_append, List.takeWhile_cons_of_pos hproxy, List.find?_cons_of_neg hskip,
        List.cons_append, hrest]
    · rw [Bool.not_eq_true] at hproxy
      have hstop : isDecisive trustedProxies first = true := by simp [isDecisive, hproxy]
      rw [List.find?_cons_of_pos hstop, List.takeWhile_cons_of_neg (by simp [hproxy])] at hkept
      rw [hkept]
      simp [hproxy, hstop]

/-- The decisive entry and the proxies give no address, if the decisive entry is none. -/
private theorem address_of_mem_fromDecisive {e : Option String}
    (hentry : decisiveEntry trustedProxies entries = some entry)
    (hparse : entry.bind IpAddr.parse = none) (he : e ∈ fromDecisive trustedProxies entries) :
    address trustedProxies e = none := by
  rw [fromDecisive, hentry, Option.toList_some] at he
  rcases List.mem_append.mp he with hproxy | hlast
  · have hall := List.all_takeWhile (p := isProxy trustedProxies) (l := entries.reverse)
    exact address_of_isProxy (List.all_eq_true.mp hall e hproxy)
  · rw [List.mem_singleton.mp hlast]
    cases entry with
    | none => rfl
    | some s =>
      have hparse' : IpAddr.parse s = none := hparse
      simp [address, untrusted, hparse']

/-- What is left of an entry that is no address decides. -/
private theorem not_independent (htrusted : anyContains trustedProxies peer = true)
    (hentry : decisiveEntry trustedProxies (forwarded values) = some entry)
    (hparse : entry.bind IpAddr.parse = none) {value : List UInt8} {s : String} {ip : IpAddr}
    (hs : some s ∈ forwarded [value]) (hip : IpAddr.parse s = some ip)
    (houtside : anyContains trustedProxies ip = false) :
    ∃ values₁ values₂,
      fromDecisive trustedProxies (forwarded values₁) =
        fromDecisive trustedProxies (forwarded values) ∧
      fromDecisive trustedProxies (forwarded values₂) =
        fromDecisive trustedProxies (forwarded values) ∧
      clientIp trustedProxies (some peer) values₁ ≠
        clientIp trustedProxies (some peer) values₂ := by
  obtain ⟨kept, hkept⟩ : ∃ kept, kept = fromDecisive trustedProxies (forwarded values) :=
    ⟨_, rfl⟩
  have hmem : ∀ e ∈ kept, e ∈ forwarded values := by
    intro e he
    rw [hkept, fromDecisive] at he
    rcases List.mem_append.mp he with hproxy | hlast
    · exact List.mem_reverse.mp ((List.takeWhile_prefix _).subset hproxy)
    · exact List.mem_reverse.mp (List.mem_of_find?_eq_some (Option.mem_toList.mp hlast))
  obtain ⟨values₁, h₁⟩ := exists_values fun e he => hmem e (List.mem_reverse.mp he)
  have h₂ : forwarded (value :: values₁) = forwarded [value] ++ kept.reverse := by
    rw [← h₁]
    simp [forwarded]
  have hagree : ∀ rest, fromDecisive trustedProxies (rest ++ kept.reverse) =
      fromDecisive trustedProxies (forwarded values) := fun rest =>
    (reverse_fromDecisive hentry hkept).trans hkept
  have hnone : ∀ e ∈ kept, address trustedProxies e = none := fun e he =>
    address_of_mem_fromDecisive hentry hparse (hkept ▸ he)
  have hkeptNone : kept.findSome? (address trustedProxies) = none :=
    List.findSome?_eq_none_iff.mpr hnone
  refine ⟨values₁, value :: values₁, h₁ ▸ hagree [], h₂ ▸ hagree _, ?_⟩
  rw [clientIp_trusted htrusted, clientIp_trusted htrusted, h₁, h₂, List.reverse_append,
    List.reverse_reverse, List.findSome?_append, hkeptNone, Option.none_or, Option.getD_none]
  have haddress : address trustedProxies (some s) = some ip := by
    simp [address, untrusted, hip, houtside]
  have hsome : ((forwarded [value]).reverse.findSome? (address trustedProxies)).isSome :=
    List.findSome?_isSome_iff.mpr ⟨some s, List.mem_reverse.mpr hs, by rw [haddress]; rfl⟩
  obtain ⟨ip', hip'⟩ := Option.isSome_iff_exists.mp hsome
  obtain ⟨e, -, he⟩ := List.exists_of_findSome?_eq_some hip'
  obtain ⟨t, -, ht⟩ := Option.bind_eq_some_iff.mp he
  obtain ⟨-, hnot⟩ := Option.filter_eq_some_iff.mp ht
  rw [hip', Option.getD_some]
  intro hsame
  rw [← hsame, htrusted] at hnot
  cases hnot

/-- The header decides the client's address as it should if its decisive entry is an address, and
otherwise only if no header at all can name an address that is not trusted. -/
theorem client_ip_independent_iff (trustedProxies : List Cidr) (peer : IpAddr)
    (values : List (List UInt8)) :
    (anyContains trustedProxies peer = false → clientIp trustedProxies (some peer) values = peer) ∧
    (anyContains trustedProxies peer = true →
      ((∀ values', fromDecisive trustedProxies (forwarded values') =
          fromDecisive trustedProxies (forwarded values) →
        clientIp trustedProxies (some peer) values' = clientIp trustedProxies (some peer) values) ↔
      (∀ entry, decisiveEntry trustedProxies (forwarded values) = some entry →
        (entry.bind IpAddr.parse).isSome) ∨ AllAddressesTrusted trustedProxies)) := by
  constructor
  · intro huntrusted
    rw [clientIp]
    simp [huntrusted]
  · intro htrusted
    constructor
    · intro hindependent
      by_contra hnot
      rw [not_or] at hnot
      obtain ⟨haddress, hall⟩ := hnot
      simp only [not_forall] at haddress
      obtain ⟨entry, hentry, hparse⟩ := haddress
      simp only [AllAddressesTrusted, not_forall] at hall
      obtain ⟨value, s, ip, hs, hip, houtside⟩ := hall
      obtain ⟨values₁, values₂, h₁, h₂, hne⟩ := not_independent htrusted hentry
        (Option.not_isSome_iff_eq_none.mp hparse) hs hip (Bool.not_eq_true _ ▸ houtside)
      exact hne ((hindependent values₁ h₁).trans (hindependent values₂ h₂).symm)
    · rintro (haddress | hall) values' hsame
      · have hentry := decisiveEntry_congr hsame
        rw [clientIp_of_address htrusted haddress, clientIp_of_address htrusted (hentry ▸ haddress),
          hentry]
      · rw [clientIp_of_allTrusted htrusted hall, clientIp_of_allTrusted htrusted hall]

end Independence

/-! ## One trusted network -/

def tenNetwork : List Cidr := [⟨.v4 (ipv4New 10 0 0 0), 8⟩]

def headerValue (s : String) : List UInt8 := s.toUTF8.data.toList

/-- What the client has written in front of the proxies' entries changes nothing. -/
theorem client_ip_independent_ten :
    clientIp tenNetwork (some (.v4 (ipv4New 10 0 0 1))) [headerValue "1.2.3.4, 6.6.6.6, 10.0.0.2"] =
      clientIp tenNetwork (some (.v4 (ipv4New 10 0 0 1)))
        [headerValue "6.6.6.6", headerValue "10.0.0.2"] :=
  ((client_ip_independent_iff tenNetwork (.v4 (ipv4New 10 0 0 1))
    [headerValue "6.6.6.6", headerValue "10.0.0.2"]).2 (by decide)).mpr
      (Or.inl (by
        intro entry hentry
        have hsix : decisiveEntry tenNetwork
            (forwarded [headerValue "6.6.6.6", headerValue "10.0.0.2"]) =
              some (some "6.6.6.6") := by
          decide +kernel
        rw [hsix] at hentry
        cases hentry
        decide +kernel)) _ (by decide +kernel)

/-- Two headers that agree in their last entry, which is no address. -/
theorem client_ip_spoofed :
    anyContains tenNetwork (.v4 (ipv4New 10 0 0 1)) = true ∧
      fromDecisive tenNetwork (forwarded [headerValue "1.2.3.4, unknown"]) =
        fromDecisive tenNetwork (forwarded [headerValue "5.6.7.8, unknown"]) ∧
      clientIp tenNetwork (some (.v4 (ipv4New 10 0 0 1))) [headerValue "1.2.3.4, unknown"] ≠
        clientIp tenNetwork (some (.v4 (ipv4New 10 0 0 1))) [headerValue "5.6.7.8, unknown"] := by
  decide +kernel

end SuiId
