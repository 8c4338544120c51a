import SuiId.Core.Cors
import SuiId.Lib.WebOrigin

/-!
# The origins that CORS admits

`origin_from_uri` cuts the origin out of a redirect URI, as it is written.  What it cuts out is an
origin only if the URI spells that origin (`originFromUri_eq_iff`), so the cache never holds the
origin of no redirect URI, and it lacks those that no redirect URI spells.
-/

namespace SuiId.Cors

open Lib Lib.WebUrl

/-! ## Origins of redirect URIs -/

/-- What is relied on of `str::to_lowercase`: the texts whose lower case is ASCII. -/
def LowersAscii (toLowercase : String → String) : Prop :=
  ∀ s t, (∀ c ∈ t, c.toNat < 0x80) →
    ((toLowercase s).toList = t ↔ s.toList.map foldCase = t)

/-- The redirect URIs of the clients that are not deleted. -/
def registeredUris (db : Database) : List String :=
  (db.clients.rows.filter fun c => !c.isDeleted).flatMap fun c => c.redirectUris

section Claims

variable {Host : Type} (E : Edition Host)

/-- A redirect URI of a client has this origin. -/
def Registered (db : Database) (origin : String) : Prop :=
  ∃ uri ∈ registeredUris db, originOf E uri.toList = some origin.toList

/-- The cache and the responses of the token endpoint go by the origins of the redirect URIs. -/
structure FollowsOrigins (P : Primitives) (db : Database) : Prop where
  contains : ∀ origin : String, (∃ page, originOf E page = some origin.toList) →
    (Cors.contains P (registeredOrigins P db) origin = true ↔ Registered E db origin)
  allowed : ∀ origin : String, (∃ page, originOf E page = some origin.toList) →
    ∀ isOptions response, response.allowOrigin = none →
      ((tokenEndpoint P (registeredOrigins P db) isOptions (some (utf8 origin))
        response).allowOrigin = some origin ↔ Registered E db origin) ∧
      ((tokenEndpoint P (registeredOrigins P db) isOptions (some (utf8 origin))
        response).allowOrigin = none ↔ ¬Registered E db origin)
  /-- What a browser sends for an origin of its own. -/
  null : Cors.contains P (registeredOrigins P db) "null" = false

/-- Every origin of a redirect URI is spelled by a redirect URI. -/
def SpelledOut (db : Database) : Prop :=
  ∀ uri ∈ registeredUris db, ∀ origin, originOf E uri.toList = some origin →
    ∃ uri' ∈ registeredUris db, Spells origin uri'.toList

end Claims

/-! ## What the cache holds -/

section Cache

variable {Host : Type} {E : Edition Host} {P : Primitives} {db : Database} {url : WebUrl Host}
  {origin : String}

theorem mem_registeredOrigins :
    origin ∈ registeredOrigins P db ↔
      ∃ uri ∈ registeredUris db, originFromUri P uri = some origin := by
  simp only [registeredOrigins, registeredUris, List.mem_toFinset, List.mem_flatMap,
    List.mem_filterMap]
  constructor
  · rintro ⟨client, hclient, uri, huri, hcut⟩
    exact ⟨uri, ⟨client, hclient, huri⟩, hcut⟩
  · rintro ⟨uri, ⟨client, hclient, huri⟩, hcut⟩
    exact ⟨client, hclient, uri, huri, hcut⟩

private theorem nil_or_head?_dropWhile (l : List Char) :
    l.dropWhile (· ≠ '/') = [] ∨ (l.dropWhile (· ≠ '/')).head? = some '/' := by
  induction l with
  | nil => exact Or.inl rfl
  | cons c l ih =>
    by_cases hc : c = '/'
    · rw [hc]
      exact Or.inr rfl
    · rw [List.dropWhile_cons_of_pos (by simpa using hc)]
      exact ih

private theorem takeWhile_of_slash {back : List Char}
    (h : back = [] ∨ back.head? = some '/') : back.takeWhile (· ≠ '/') = [] := by
  cases back with
  | nil => rfl
  | cons c back =>
    have hc : c = '/' := by simpa using h
    rw [List.takeWhile_cons_of_neg (by simpa using hc)]

private theorem ne_slash_of_spelled (hE : E.Lawful) (hurl : Proper E url) {spelled : List Char}
    (hspelled : spelled.map foldCase = E.hostText url.host ++ portText url.port) {c : Char}
    (hc : c ∈ spelled) : c ≠ '/' := by
  obtain ⟨⟨text, hhost⟩, -⟩ := hurl
  have hmem : foldCase c ∈ E.hostText url.host ++ portText url.port := by
    rw [← hspelled]
    exact List.mem_map_of_mem hc
  have hends := (plain_of_fold (hostText_portText_plain hE hhost _ _ hmem)).2.1
  rintro rfl
  exact absurd hends (by decide)

/-- The scheme and the rest of a text that spells an origin. -/
private theorem splitOnce_spelled {scheme spelled back : List Char}
    (hscheme : scheme.map foldCase = url.scheme.name) :
    Text.splitOnce (String.ofList (scheme ++ ':' :: '/' :: '/' :: (spelled ++ back))) "://" =
      some (String.ofList scheme, String.ofList (spelled ++ back)) := by
  have hcolon : ':' ∉ scheme := by
    intro hmem
    have hname : foldCase ':' ∈ url.scheme.name := by
      rw [← hscheme]
      exact List.mem_map_of_mem hmem
    revert hname
    cases url.scheme <;> decide
  exact @Text.splitOnce_append_of_head ':' ['/', '/'] scheme hcolon (spelled ++ back) "://"
    (by decide)

/-- What is cut out of a URI was its scheme, `://` and what stands before the next slash. -/
theorem spells_of_originFromUri (hlower : LowersAscii P.toLowercase)
    (hascii : ∀ c ∈ origin.toList, c.toNat < 0x80) {uri : String}
    (h : originFromUri P uri = some origin) : Spells origin.toList uri.toList := by
  obtain ⟨⟨scheme, after⟩, hcut, htext⟩ := Option.map_eq_some_iff.mp h
  have huri := Text.toList_of_splitOnce hcut
  have hparts : origin.toList = (P.toLowercase scheme).toList ++ "://".toList ++
      (P.toLowercase (String.ofList (after.toList.takeWhile (· ≠ '/')))).toList := by
    rw [← htext]
    simp
  rw [hparts] at hascii
  have hscheme := (hlower scheme _ fun c hc =>
    hascii c (List.mem_append_left _ (List.mem_append_left _ hc))).mp rfl
  have hauthority := (hlower _ _ fun c hc => hascii c (List.mem_append_right _ hc)).mp rfl
  rw [String.toList_ofList] at hauthority
  refine ⟨scheme.toList ++ "://".toList ++ after.toList.takeWhile (· ≠ '/'),
    after.toList.dropWhile (· ≠ '/'), ?_, ?_, nil_or_head?_dropWhile after.toList⟩
  · rw [huri, List.append_assoc _ (List.takeWhile _ _), List.takeWhile_append_dropWhile]
  · rw [hparts, ← hscheme, ← hauthority]
    simp only [List.map_append]
    rfl

/-- The origin that a URI spells is cut out of it. -/
theorem originFromUri_of_spells (hE : E.Lawful) (hlower : LowersAscii P.toLowercase)
    (hurl : Proper E url) (horigin : origin.toList = originText E url) {uri : String}
    (h : Spells origin.toList uri.toList) : originFromUri P uri = some origin := by
  obtain ⟨front, back, huri, hfront, hback⟩ := h
  rw [horigin] at hfront
  obtain ⟨scheme, spelled, rfl, hscheme, hspelled⟩ := exists_spelled hfront
  have htext : origin.toList =
      scheme.map foldCase ++ ("://".toList ++ spelled.map foldCase) := by
    rw [horigin, hscheme, hspelled]
    simp [originText]
  have hsplit : Text.splitOnce uri "://" =
      some (String.ofList scheme, String.ofList (spelled ++ back)) := by
    rw [← splitOnce_spelled hscheme, ← String.ofList_toList (s := uri), huri]
    simp
  have htake : (spelled ++ back).takeWhile (· ≠ '/') = spelled := by
    have hplain : ∀ c ∈ spelled, decide (c ≠ '/') = true := fun c hc =>
      decide_eq_true (ne_slash_of_spelled hE hurl hspelled hc)
    rw [List.takeWhile_append_of_pos hplain, takeWhile_of_slash hback, List.append_nil]
  have hlowered : ∀ part : List Char, (∀ c ∈ part.map foldCase, c ∈ origin.toList) →
      (P.toLowercase (String.ofList part)).toList = part.map foldCase := by
    intro part hpart
    refine (hlower _ _ fun c hc => ?_).mpr ?_
    · have hplain := originText_plain hE hurl c (by rw [← horigin]; exact hpart c hc)
      omega
    · rw [String.toList_ofList]
  have hschemeLowered := hlowered scheme fun c hc => by
    rw [htext]
    exact List.mem_append_left _ hc
  have hspelledLowered := hlowered spelled fun c hc => by
    rw [htext]
    exact List.mem_append_right _ (List.mem_append_right _ hc)
  rw [originFromUri, hsplit, Option.map_some]
  simp only [String.toList_ofList, htake]
  rw [Option.some.injEq]
  apply String.toList_injective
  rw [String.toList_append, String.toList_append, hschemeLowered, hspelledLowered, htext,
    List.append_assoc]

/-- The cache holds an origin if a redirect URI spells it. -/
theorem contains_iff (hE : E.Lawful) (hlower : LowersAscii P.toLowercase) (hurl : Proper E url)
    (horigin : origin.toList = originText E url) :
    contains P (registeredOrigins P db) origin = true ↔
      ∃ uri ∈ registeredUris db, Spells origin.toList uri.toList := by
  have hplain := originText_plain hE hurl
  rw [← horigin] at hplain
  have hascii : ∀ c ∈ origin.toList, c.toNat < 0x80 := fun c hc => by
    have hc := hplain c hc
    omega
  have hlowered : P.toLowercase origin = origin := by
    apply String.toList_injective
    rw [hlower origin origin.toList hascii]
    exact (List.map_congr_left fun c hc => (hplain c hc).2.2).trans (List.map_id _)
  rw [contains, decide_eq_true_eq, hlowered, mem_registeredOrigins]
  refine exists_congr fun uri => and_congr_right fun _ => ⟨?_, ?_⟩
  · exact spells_of_originFromUri hlower hascii
  · exact originFromUri_of_spells hE hlower hurl horigin

end Cache

/-! ## What a response carries -/

section Responses

variable {P : Primitives} {origins : Finset String} {origin : String}

/-- A text of graphic ASCII goes through a header unchanged. -/
theorem header_of_graphic (h : ∀ c ∈ origin.toList, 0x20 < c.toNat ∧ c.toNat < 0x7f) :
    toStr (utf8 origin) = some origin ∧ isHeaderValue origin = true := by
  let bytes : Bytes := origin.toList.map fun c => UInt8.ofNat c.toNat
  have hgraphic : ∀ b ∈ bytes, 0x20 < b ∧ b < 0x7f := by
    intro b hb
    obtain ⟨c, hc, rfl⟩ := List.mem_map.mp hb
    have hc := h c hc
    rw [UInt8.lt_iff_toNat_lt, UInt8.lt_iff_toNat_lt, UInt8.toNat_ofNat',
      Nat.mod_eq_of_lt (by omega)]
    exact hc
  have hchars : bytes.map (fun b => Char.ofNat b.toNat) = origin.toList := by
    rw [List.map_map]
    refine (List.map_congr_left fun c hc => ?_).trans (List.map_id _)
    have hc := h c hc
    show Char.ofNat (UInt8.ofNat c.toNat).toNat = c
    rw [UInt8.toNat_ofNat', Nat.mod_eq_of_lt (by omega), Char.ofNat_toNat]
  have htext : FormUrl.ascii bytes = origin := by
    rw [FormUrl.ascii, hchars, String.ofList_toList]
  have hbytes : utf8 origin = bytes := by
    rw [← htext, FormUrl.ascii, utf8_ofList]
    apply FormUrl.utf8Encode_of_ascii
    intro b hb
    exact UInt8.lt_trans (hgraphic b hb).2 (by decide)
  rw [toStr, isHeaderValue, hbytes]
  constructor
  · rw [if_pos, htext]
    rw [List.all_eq_true]
    intro b hb
    have hb := hgraphic b hb
    simp [UInt8.le_of_lt hb.1, hb.2]
  · rw [List.all_eq_true]
    intro b hb
    have hb := hgraphic b hb
    simp [UInt8.le_of_lt hb.1, UInt8.ne_of_lt hb.2]

theorem appendVary_allowOrigin (h : ResponseHeaders) (value : String) :
    (appendVary h value).allowOrigin = h.allowOrigin := by
  unfold appendVary
  rw [apply_ite ResponseHeaders.allowOrigin, ite_self]

/-- A request with an origin is answered with that origin or with none. -/
theorem tokenEndpoint_allowOrigin (horigin : ∀ c ∈ origin.toList, 0x20 < c.toNat ∧ c.toNat < 0x7f)
    {response : ResponseHeaders} (hresponse : response.allowOrigin = none) (isOptions : Bool) :
    (tokenEndpoint P origins isOptions (some (utf8 origin)) response).allowOrigin =
      if contains P origins origin then some origin else none := by
  obtain ⟨hread, hvalue⟩ := header_of_graphic horigin
  unfold tokenEndpoint
  rw [Option.bind_some, hread]
  cases isOptions with
  | true =>
    simp only [if_true]
    split
    · rw [preflightResponseWithOrigin, appendVary_allowOrigin, preflightResponse, hvalue]
      rfl
    · rfl
  | false =>
    simp only [hvalue, Bool.and_true, Bool.false_eq_true, if_false]
    split
    · rw [appendVary_allowOrigin]
    · exact hresponse

end Responses

section Follows

variable {Host : Type} {E : Edition Host} {P : Primitives} {db : Database}

/-- An origin that the cache holds is the origin of a redirect URI. -/
theorem registered_of_contains (hE : E.Lawful) (hlower : LowersAscii P.toLowercase)
    {origin : String} {page : List Char} (hpage : originOf E page = some origin.toList)
    (h : contains P (registeredOrigins P db) origin = true) : Registered E db origin := by
  obtain ⟨url, hurl, horigin⟩ := exists_proper_of_originOf hpage
  obtain ⟨uri, huri, hspells⟩ := (contains_iff hE hlower hurl horigin.symm).mp h
  rw [← horigin] at hspells
  refine ⟨uri, huri, ?_⟩
  rw [← horigin]
  exact originOf_of_spells hE hurl hspells

/-- Nothing that is cut out of a URI is `null`. -/
theorem not_contains_null (hlower : LowersAscii P.toLowercase) :
    contains P (registeredOrigins P db) "null" = false := by
  have hlowered : P.toLowercase "null" = "null" := by
    apply String.toList_injective
    rw [hlower "null" "null".toList (List.all_iff_forall_prop.mp (by decide))]
    decide
  rw [contains, hlowered, decide_eq_false_iff_not, mem_registeredOrigins]
  rintro ⟨uri, -, hcut⟩
  obtain ⟨⟨scheme, after⟩, -, htext⟩ := Option.map_eq_some_iff.mp hcut
  have hcolon : ':' ∈ "null".toList := by
    rw [← htext]
    simp
  exact absurd hcolon (by decide)

/-- CORS goes by the origins of the redirect URIs if each of these origins is spelled by a redirect
URI. -/
theorem cors_follows_origins_iff (hE : E.Lawful) (hlower : LowersAscii P.toLowercase) :
    FollowsOrigins E P db ↔ SpelledOut E db := by
  constructor
  · intro h uri huri origin horigin
    obtain ⟨url, hurl, htext⟩ := exists_proper_of_originOf horigin
    have hstring : origin = (String.ofList origin).toList := String.toList_ofList.symm
    rw [hstring] at horigin
    have hcontains := (h.contains (String.ofList origin) ⟨_, horigin⟩).mpr ⟨uri, huri, horigin⟩
    have hspelled := (contains_iff hE hlower hurl (by rw [htext, ← hstring])).mp hcontains
    rw [← hstring] at hspelled
    exact hspelled
  · intro h
    have hcontains : ∀ origin : String, (∃ page, originOf E page = some origin.toList) →
        (contains P (registeredOrigins P db) origin = true ↔ Registered E db origin) := by
      rintro origin ⟨page, hpage⟩
      refine ⟨registered_of_contains hE hlower hpage, ?_⟩
      rintro ⟨uri, huri, horigin⟩
      obtain ⟨url, hurl, htext⟩ := exists_proper_of_originOf horigin
      exact (contains_iff hE hlower hurl htext.symm).mpr (h uri huri _ horigin)
    refine ⟨hcontains, ?_, not_contains_null hlower⟩
    intro origin hpage isOptions response hresponse
    have hgraphic : ∀ c ∈ origin.toList, 0x20 < c.toNat ∧ c.toNat < 0x7f := by
      obtain ⟨page, hpage⟩ := hpage
      obtain ⟨url, hurl, htext⟩ := exists_proper_of_originOf hpage
      intro c hc
      have hplain := originText_plain hE hurl c (by rw [htext]; exact hc)
      exact ⟨hplain.1, hplain.2.1⟩
    rw [tokenEndpoint_allowOrigin hgraphic hresponse, ← hcontains origin hpage]
    split <;> simp_all

end Follows

/-! ## A query behind the host -/

/-- Lower case of ASCII. -/
def Primitives.folding : Primitives where
  __ := Primitives.transparent
  toLowercase s := String.ofList (s.toList.map foldCase)

theorem Primitives.folding_lowers : LowersAscii Primitives.folding.toLowercase := by
  intro s t _
  show (String.ofList (s.toList.map foldCase)).toList = t ↔ _
  rw [String.toList_ofList]

private def registering (redirectUris : List String) : Database :=
  let client : ClientRow := {
    id := 1, name := "n", confidential := false, secretHash := none, allowedScopes := ""
    isDisabled := false, isDeleted := false, tokenEndpointAuthMethod := none, grantTypes := none
    redirectUris }
  { Database.empty with clients := ⟨[client], List.nodup_singleton _⟩ }

theorem cors_follows_origins_path :
    FollowsOrigins Edition.labels Primitives.folding (registering ["https://app.example/cb"]) := by
  rw [cors_follows_origins_iff Edition.labels_lawful Primitives.folding_lowers]
  intro uri huri origin horigin
  refine ⟨uri, huri, ?_⟩
  obtain rfl : uri = "https://app.example/cb" := List.mem_singleton.mp huri
  have hread : originOf Edition.labels "https://app.example/cb".toList =
      some "https://app.example".toList := by decide +kernel
  rw [← Option.some.inj (hread.symm.trans horigin)]
  exact ⟨"https://app.example".toList, "/cb".toList, by decide, by decide, Or.inr rfl⟩

/-- The query is taken for a part of the host. -/
theorem cors_misses_origin_before_query :
    ¬FollowsOrigins Edition.labels Primitives.folding
      (registering ["https://app.example?app=1"]) := by
  intro h
  have hread : originOf Edition.labels "https://app.example?app=1".toList =
      some "https://app.example".toList := by decide +kernel
  have hcontains := (h.contains "https://app.example" ⟨_, hread⟩).mpr
    ⟨_, List.mem_singleton_self _, hread⟩
  have hmissing : contains Primitives.folding (registeredOrigins Primitives.folding
      (registering ["https://app.example?app=1"])) "https://app.example" = false := by
    decide +kernel
  rw [hmissing] at hcontains
  cases hcontains

end SuiId.Cors
