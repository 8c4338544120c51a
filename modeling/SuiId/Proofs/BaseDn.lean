import SuiId.Core.Directory
import SuiId.Lib.DistinguishedName

/-!
# Names under the base

`normalized_rdns` cuts the text of a name into the texts of its steps (`splitRdns_joined`) and
leaves of each step a text that is still read as its types and values, up to letter case and
surrounding spaces (`exists_normalized`).  So two names that are normalised to the same texts are
the same name, and a name whose texts end with those of the base is under the base.
-/

namespace SuiId.LdapFilter

open Lib Lib.DistinguishedName

/-! ## Cutting a name -/

/-- The cut goes past the text. -/
private def Skips (t : List Char) : Prop :=
  ∀ current u, splitRdns current false (t ++ u) = splitRdns (t.reverse ++ current) false u

private theorem skips_nil : Skips [] := fun _ _ => rfl

variable {t : List Char} {c : Char}

private theorem Skips.append {u : List Char} (ht : Skips t) (hu : Skips u) : Skips (t ++ u) := by
  intro current v
  rw [List.append_assoc, ht, hu, List.reverse_append, List.append_assoc]

private theorem skips_plain (hc : c ≠ '\\' ∧ c ≠ ',' ∧ c ≠ ';') : Skips [c] := by
  intro current u
  rw [List.singleton_append, splitRdns, if_neg hc.1, if_neg (not_or.mpr hc.2)]
  rfl

private theorem skips_pair (c : Char) : Skips ['\\', c] := by
  intro current u
  rw [List.cons_append, List.singleton_append, splitRdns, if_pos rfl, splitRdns]
  rfl

private theorem skips_of_plain (h : ∀ c ∈ t, c ≠ '\\' ∧ c ≠ ',' ∧ c ≠ ';') :
    Skips t := by
  induction t with
  | nil => exact skips_nil
  | cons c t ih =>
    exact (skips_plain (h c List.mem_cons_self)).append
      (ih fun d hd => h d (List.mem_cons_of_mem _ hd))

private theorem skips_hexDigit {n : Nat} (h : SearchFilter.hexValue c = some n) :
    Skips [c] := by
  apply skips_plain
  refine ⟨?_, ?_, ?_⟩ <;> rintro rfl <;> cases h

private theorem skips_octets {bytes : List UInt8} {p : List Char} (h : Octets bytes p) :
    Skips p := by
  induction h with
  | nil => exact skips_nil
  | @cons b bytes high low t hb _ ih =>
    simp only [hexOctet, Option.bind_eq_bind, Option.bind_eq_some_iff] at hb
    obtain ⟨_, -, _, hlow, -⟩ := hb
    exact ((skips_pair high).append (skips_hexDigit hlow)).append ih

private theorem skips_value {v : List Char} (h : ValueText t v) : Skips t := by
  induction h with
  | nil => exact skips_nil
  | @plain c t v hc _ ih =>
    refine (skips_plain ?_).append ih
    refine ⟨?_, ?_, ?_⟩ <;> rintro rfl <;> cases hc
  | @pair c t v _ _ ih => exact (skips_pair c).append ih
  | octets hp _ ih => exact (skips_octets hp).append ih

private theorem skips_spaces {s : List Char} (hs : Spaces s) : Skips s := by
  apply skips_of_plain
  intro c hc
  rw [hs c hc]
  decide

private theorem skips_ava {a : Ava} (h : AvaText t a) : Skips t := by
  cases h with
  | @intro kind text value s₁ s₂ s₃ s₄ _ hkind hvalue h₁ h₂ h₃ h₄ =>
    have htype : Skips kind := by
      apply skips_of_plain
      intro c hc
      have htype := hkind c hc
      refine ⟨?_, ?_, ?_⟩ <;> rintro rfl <;> cases htype
    have hbefore := ((skips_spaces h₁).append htype).append (skips_spaces h₂)
    have hafter := ((skips_spaces h₃).append (skips_value hvalue)).append (skips_spaces h₄)
    exact hbefore.append ((skips_plain (c := '=') (by decide)).append hafter)

private theorem skips_rdn {rdn : Rdn} (h : RdnText t rdn) : Skips t := by
  induction h with
  | one hava => exact skips_ava hava
  | @cons t u c a as hava hsep _ ih =>
    rw [beq_iff_eq] at hsep
    subst hsep
    exact (skips_ava hava).append ((skips_plain (c := '+') (by decide)).append ih)

/-- The pieces of a name are the texts of its steps. -/
theorem splitRdns_joined {rdns : List Rdn}
    (h : Joined (fun c => c == ',' || c == ';') RdnText t rdns) :
    ∃ texts, splitRdns [] false t = texts.map String.ofList ∧
      List.Forall₂ RdnText texts rdns := by
  induction h with
  | @one t rdn hrdn =>
    refine ⟨[t], ?_, .cons hrdn .nil⟩
    have hskip := skips_rdn hrdn [] []
    rw [List.append_nil, List.append_nil] at hskip
    rw [hskip, splitRdns, List.reverse_reverse]
    rfl
  | @cons t u c rdn rdns hrdn hsep _ ih =>
    obtain ⟨texts, hsplit, htexts⟩ := ih
    refine ⟨t :: texts, ?_, .cons hrdn htexts⟩
    simp only [Bool.or_eq_true, beq_iff_eq] at hsep
    have hne : c ≠ '\\' := by
      rintro rfl
      exact absurd hsep (by decide)
    rw [skips_rdn hrdn, splitRdns, if_neg hne, if_pos hsep, hsplit, List.append_nil,
      List.reverse_reverse]
    rfl

/-! ## One step -/

section

variable {P : Primitives} {lower : Char → List Char} (hcase : LowerCase lower)
  (hlower : ∀ s, LowersTo lower s.toList (P.toLowercase s).toList)
include hcase hlower

/-- A normalised step. -/
def IsNormalized (lower : Char → List Char) (n : String) (rdn : Rdn) : Prop :=
  ∃ ts, Reads n.toList ts ∧ avasKey lower ts = rdn.key lower

omit hcase hlower in
private theorem IsNormalized.unique {n : String} {rdn rdn' : Rdn}
    (h : IsNormalized lower n rdn) (h' : IsNormalized lower n rdn') :
    rdn.key lower = rdn'.key lower := by
  obtain ⟨ts, hts, hkey⟩ := h
  obtain ⟨ts', hts', hkey'⟩ := h'
  rw [← hkey, ← hkey', hts.unique hts']

omit hcase hlower in
/-- What `normalized_rdns` makes of one piece. -/
def normalizedRdn (P : Primitives) (rdn : String) : Option String := do
  let (kind, value) ← Text.splitOnce rdn "="
  let kind := Text.trim kind
  if kind.isEmpty then none
  else some (P.toLowercase kind ++ "=" ++ P.toLowercase (Text.trim value))

omit hcase hlower in
private theorem toList_trim_ofList (t : List Char) :
    (Text.trim (String.ofList t)).toList = strip t := by
  rw [Text.toList_trim, String.toList_ofList, strip]

/-- A text of a step is normalised. -/
theorem exists_normalized {t : List Char} {rdn : Rdn} (h : RdnText t rdn) :
    ∃ n, normalizedRdn P (String.ofList t) = some n ∧ IsNormalized lower n rdn := by
  obtain ⟨before, after, rfl, hequals, hne, hreads⟩ := h.normalized hcase
  have hsplit := Text.splitOnce_append hequals after "=" rfl
  have hkind : (Text.trim (String.ofList before)).isEmpty = false := by
    rw [← Bool.not_eq_true, String.isEmpty_iff, ← String.toList_inj, toList_trim_ofList]
    exact hne
  refine ⟨P.toLowercase (Text.trim (String.ofList before)) ++ "=" ++
    P.toLowercase (Text.trim (String.ofList after)), ?_, ?_⟩
  · simp only [normalizedRdn, hsplit, Option.bind_eq_bind, Option.bind_some, hkind,
      Bool.false_eq_true, if_false]
  · have hkind' := hlower (Text.trim (String.ofList before))
    have hvalue' := hlower (Text.trim (String.ofList after))
    rw [toList_trim_ofList] at hkind' hvalue'
    obtain ⟨ts, hts, hkey⟩ := hreads _ _ hkind' hvalue'
    refine ⟨ts, ?_, hkey⟩
    rw [String.toList_append, String.toList_append, List.append_assoc]
    exact hts

variable {rdns : List Rdn}

theorem mapM_normalizedRdn {texts : List (List Char)} (h : List.Forall₂ RdnText texts rdns) :
    ∃ ns, (texts.map String.ofList).mapM (normalizedRdn P) = some ns ∧
      List.Forall₂ (IsNormalized lower) ns rdns := by
  induction h with
  | nil => exact ⟨[], rfl, .nil⟩
  | @cons t rdn texts rdns hrdn _ ih =>
    obtain ⟨n, hn, hnormal⟩ := exists_normalized hcase hlower hrdn
    obtain ⟨ns, hns, hnormals⟩ := ih
    refine ⟨n :: ns, ?_, .cons hnormal hnormals⟩
    rw [List.map_cons, List.mapM_cons, hn, hns]
    rfl

omit hlower in
/-- The text of a name with a step is more than white space. -/
private theorem trim_ne_empty {dn : String}
    (h : Joined (fun c => c == ',' || c == ';') RdnText dn.toList rdns) :
    (Text.trim dn).isEmpty = false := by
  have hequals : '=' ∈ dn.toList := by
    generalize dn.toList = t at h
    have hmem {u : List Char} {rdn : Rdn} (hu : RdnText u rdn) : '=' ∈ u := by
      obtain ⟨before, after, -, rfl, -⟩ := hu.parts hcase
      simp
    cases h with
    | one hrdn => exact hmem hrdn
    | cons hrdn _ _ => exact List.mem_append_left _ (hmem hrdn)
  obtain ⟨before, after, hdn⟩ := List.append_of_mem hequals
  have htrim := Text.toList_trim_around (c := '=') rfl before after
  rw [← hdn, String.ofList_toList] at htrim
  rw [← Bool.not_eq_true, String.isEmpty_iff, ← String.toList_inj, htrim]
  simp

/-! ## Whole names -/

/-- Every text of a name is normalised, step by step. -/
theorem normalizedRdns_of_text {dn : String} (h : DnText dn.toList rdns) :
    ∃ ns, normalizedRdns P dn = some ns ∧ List.Forall₂ (IsNormalized lower) ns rdns := by
  rcases h with ⟨rfl, hspaces⟩ | hjoined
  · have hempty : (Text.trim dn).isEmpty = true := by
      rw [String.isEmpty_iff, ← String.toList_inj, Text.toList_trim]
      have hdrop : dn.toList.dropWhile Text.isWhitespace = [] := by
        rw [List.dropWhile_eq_nil_iff]
        intro c hc
        rw [hspaces c hc]
        rfl
      rw [hdrop]
      rfl
    exact ⟨[], if_pos hempty, .nil⟩
  · obtain ⟨texts, hsplit, htexts⟩ := splitRdns_joined hjoined
    obtain ⟨ns, hns, hnormals⟩ := mapM_normalizedRdn hcase hlower htexts
    refine ⟨ns, ?_, hnormals⟩
    rw [normalizedRdns, if_neg (by rw [trim_ne_empty hcase hjoined]; decide), hsplit]
    exact hns

omit hcase hlower in
private theorem keys_eq_of_normalized {ns : List String} {rdns' : List Rdn}
    (h : List.Forall₂ (IsNormalized lower) ns rdns)
    (h' : List.Forall₂ (IsNormalized lower) ns rdns') :
    rdns.map (Rdn.key lower) = rdns'.map (Rdn.key lower) := by
  induction h generalizing rdns' with
  | nil =>
    cases h'
    rfl
  | cons hone _ ih =>
    cases h' with
    | cons hone' hrest' =>
      rw [List.map_cons, List.map_cons, hone.unique hone', ih hrest']

end

/-- A name that passes for one under the base has more steps than the base and ends with its steps,
and names that pass for the same have the same steps, up to letter case and surrounding spaces. -/
theorem base_dn_check_sound {P : Primitives} {lower : Char → List Char} (hcase : LowerCase lower)
    (hlower : ∀ s, LowersTo lower s.toList (P.toLowercase s).toList) {dn base : String}
    {rdns baseRdns : List Rdn} (hdn : DnText dn.toList rdns)
    (hbase : DnText base.toList baseRdns) :
    (dnIsUnderBase P dn base = true → baseRdns.length < rdns.length ∧
        baseRdns.map (Rdn.key lower) <:+ rdns.map (Rdn.key lower)) ∧
      (sameDn P dn base = true → rdns.map (Rdn.key lower) = baseRdns.map (Rdn.key lower)) := by
  obtain ⟨ns, hns, hnormals⟩ := normalizedRdns_of_text hcase hlower hdn
  obtain ⟨bs, hbs, hbases⟩ := normalizedRdns_of_text hcase hlower hbase
  constructor
  · intro h
    rw [dnIsUnderBase, hns, hbs] at h
    simp only [Bool.and_eq_true, decide_eq_true_eq, List.isSuffixOf_iff_suffix] at h
    obtain ⟨hlength, front, hsuffix⟩ := h
    rw [hnormals.length_eq, hbases.length_eq] at hlength
    rw [← hsuffix] at hnormals
    have hback := (List.forall₂_drop_append rdns front bs hnormals.flip).flip
    rw [keys_eq_of_normalized hbases hback]
    exact ⟨hlength, (List.drop_suffix front.length rdns).map _⟩
  · intro h
    rw [sameDn, hns, hbs] at h
    rw [← beq_iff_eq.mp h] at hbases
    exact keys_eq_of_normalized hnormals hbases

/-! ## Two names -/

/-- Lower case of texts whose letters are ASCII or sigma. -/
def asciiLower (c : Char) : List Char := if c = '\u03a3' then ['\u03c3'] else [c.toLower]

def asciiPrimitives : Primitives :=
  { Primitives.transparent with
    toLowercase := fun s => String.ofList (s.toList.flatMap asciiLower) }

private theorem asciiLower_of_ne (hc : c ≠ '\u03a3') : asciiLower c = [c.toLower] :=
  if_neg hc

private theorem lowersTo_asciiLower (s : String) :
    LowersTo asciiLower s.toList (asciiPrimitives.toLowercase s).toList := by
  show LowersTo asciiLower s.toList (String.ofList (s.toList.flatMap asciiLower)).toList
  rw [String.toList_ofList]
  induction s.toList with
  | nil => exact .nil
  | cons c cs ih => exact .letter c ih

private theorem lowerCase_asciiLower : LowerCase asciiLower where
  ascii c hc := by
    apply asciiLower_of_ne
    rintro rfl
    exact absurd hc (by decide)
  nonAscii c hc d hd hascii := by
    by_cases hsigma : c = '\u03a3'
    · rw [asciiLower, if_pos hsigma, List.mem_singleton] at hd
      subst hd
      exact absurd hascii (by decide)
    · rw [asciiLower_of_ne hsigma, List.mem_singleton] at hd
      have hlower := Text.toNat_toLower c
      rw [if_neg (by omega), ← hd] at hlower
      omega
  lowered c d hd := by
    by_cases hsigma : c = '\u03a3'
    · rw [asciiLower, if_pos hsigma, List.mem_singleton] at hd
      subst hd
      decide
    · rw [asciiLower_of_ne hsigma, List.mem_singleton] at hd
      subst hd
      have hlower := Text.toNat_toLower c
      have htwice := Text.toNat_toLower c.toLower
      have hstill : c.toLower.toLower = c.toLower := by
        rw [← Char.toNat_inj, htwice]
        split
        · split at hlower <;> omega
        · rfl
      have hne : c.toLower ≠ '\u03a3' := by
        intro h
        have hcapital : ('\u03a3' : Char).toNat = 0x3a3 := rfl
        rw [h, hcapital] at hlower
        split at hlower
        · omega
        · exact hsigma (Char.toNat_inj.mp (hlower.symm.trans hcapital.symm))
      rw [asciiLower_of_ne hne, hstill]
  space c hc := by
    have hne : c ≠ '\u03a3' := by
      rintro rfl
      exact absurd hc (by decide)
    have hcapital : ¬ (0x41 ≤ c.toNat ∧ c.toNat ≤ 0x5a) := by
      simp only [Text.isWhitespace, Bool.or_eq_true, Bool.and_eq_true, decide_eq_true_eq,
        beq_iff_eq] at hc
      omega
    have hlower := Text.toNat_toLower c
    rw [if_neg hcapital] at hlower
    rw [asciiLower_of_ne hne, Char.toNat_inj.mp hlower]
  sigma := rfl
  finalSigma := by decide

/-- An entry whose name has a comma in it, and its base. -/
theorem base_dn_check_sound_of_comma :
    dnIsUnderBase asciiPrimitives "CN=a\\2Cb , dc=X" "DC=x" = true ∧
      [[⟨"DC".toList, "x".toList⟩]].map (Rdn.key asciiLower) <:+
        [[⟨"CN".toList, "a,b".toList⟩], [⟨"dc".toList, "X".toList⟩]].map
          (Rdn.key asciiLower) := by
  have hunder : dnIsUnderBase asciiPrimitives "CN=a\\2Cb , dc=X" "DC=x" = true := by
    decide +kernel
  have hno : Spaces [] := fun _ h => absurd h List.not_mem_nil
  have hspace : Spaces [' '] := fun c hc => List.mem_singleton.mp hc
  have hcomma : ValueText "a\\2Cb".toList "a,b".toList :=
    .plain rfl (.octets (c := ',') (p := "\\2C".toList) (.cons rfl .nil) (.plain rfl .nil))
  have hfirst : RdnText "CN=a\\2Cb ".toList [⟨"CN".toList, "a,b".toList⟩] :=
    .one (@AvaText.intro "CN".toList "a\\2Cb".toList "a,b".toList [] [] [] [' '] (by decide)
      (List.all_iff_forall_prop.mp (by decide)) hcomma hno hno hno hspace)
  have hlast : RdnText " dc=X".toList [⟨"dc".toList, "X".toList⟩] :=
    .one (@AvaText.intro "dc".toList "X".toList "X".toList [' '] [] [] [] (by decide)
      (List.all_iff_forall_prop.mp (by decide)) (.plain rfl .nil) hspace hno hno hno)
  have hbase : RdnText "DC=x".toList [⟨"DC".toList, "x".toList⟩] :=
    .one (@AvaText.intro "DC".toList "x".toList "x".toList [] [] [] [] (by decide)
      (List.all_iff_forall_prop.mp (by decide)) (.plain rfl .nil) hno hno hno hno)
  have hdn : DnText "CN=a\\2Cb , dc=X".toList
      [[⟨"CN".toList, "a,b".toList⟩], [⟨"dc".toList, "X".toList⟩]] :=
    .inr (.cons hfirst (c := ',') rfl (.one hlast))
  exact ⟨hunder, ((base_dn_check_sound lowerCase_asciiLower lowersTo_asciiLower hdn
    (.inr (.one hbase))).1 hunder).2⟩

end SuiId.LdapFilter
