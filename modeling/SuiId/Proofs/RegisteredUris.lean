import Mathlib.Data.List.Pairwise
import SuiId.Core.DynamicRegistration
import SuiId.Lib.CanonicalUrl
import SuiId.Store.ClassA

/-!
# The URIs that a registration stores

The scans of `well_formed_uri` look for what the parser rewrites.  They miss some of it, and so an
accepted document may hold URIs that are not canonical.  Which documents hold canonical URIs only is
read off the texts (`registered_uris_canonical_iff`): each URI is a canonical text, and no list has
a URI both with and without the root path.
-/

namespace SuiId.DynamicRegistration

open Lib Lib.Result Lib.UrlPath Lib.WebUrl RegistrationUris

section Claims

variable {Host : Type} (E : Edition Host) (P : Primitives)

/-- What `url::Url` shows of a URL. -/
structure Presents (p : Url) (url : WebUrl Host) : Prop where
  username : p.username.toList = url.username
  password : p.password.map String.toList =
    if url.password = [] then none else some url.password
  fragment : p.fragment.map String.toList = url.fragment
  asStr : p.asStr.toList = url.text E

/-- What is relied on of `Url::parse`: it gives the URL of the standard, if the scheme is one of
these. -/
def ParsesLike : Prop :=
  ∀ uri p, P.parseUrl uri = some p → p.scheme = "https" ∨ p.scheme = "http" →
    ∃ url, WebUrl.parse E uri.toList = some url ∧ Presents E p url

structure CanonicalUri (uri : String) : Prop where
  /-- Parsed and written again, it is the same up to the root path. -/
  reserialised : ∃ p, P.parseUrl uri = some p ∧ p.asStr.toList = withRootPath uri.toList
  noDefaultPort : ¬NamesDefaultPort uri.toList
  characters : ∀ c ∈ uri.toList, Text.isWhitespace c = false ∧ isControl c = false
  escapes : ∀ before after, uri.toList = before ++ '%' :: after →
    ∃ a b rest, after = a :: b :: rest ∧ isAsciiHexdigit a = true ∧ isAsciiHexdigit b = true

/-- Two URIs are not parsed to the same URL. -/
def DenotesAnother (uri uri' : String) : Prop :=
  ∀ p p', P.parseUrl uri = some p → P.parseUrl uri' = some p' → p.asStr ≠ p'.asStr

structure CanonicalUris (uris : List String) : Prop where
  each : ∀ uri ∈ uris, CanonicalUri P uri
  distinct : uris.Pairwise (DenotesAnother P)

/-- The URIs of a list are written canonically, and none is there with and without the root path. -/
structure WrittenOut (uris : List String) : Prop where
  each : ∀ uri ∈ uris, IsCanonical E uri.toList
  root : ∀ uri ∈ uris, ∀ uri' ∈ uris, withRootPath uri.toList = uri'.toList → uri = uri'

end Claims

/-! ## What is accepted -/

section Accepted

variable {P : Primitives} {uri : String} {uris : List String}

/-- An entry that the checks of both lists let through. -/
def Accepted (P : Primitives) (uri : String) : Prop :=
  ∃ p, wellFormedUri P uri maxApplicationUriBytes = .ok p ∧ (p.scheme = "https" ∨ p.scheme = "http")

/-- In a text without malformed escapes, two digits stand behind each `%`. -/
theorem digits_of_escape {text : List Char} (h : hasMalformedPercentEscape text = false) :
    ∀ before after, text = before ++ '%' :: after →
      ∃ a b rest, after = a :: b :: rest ∧ isAsciiHexdigit a = true ∧ isAsciiHexdigit b = true := by
  fun_induction hasMalformedPercentEscape text with
  | case1 => simp
  | case2 c d rest ih =>
    simp only [Bool.or_eq_false_iff, Bool.not_eq_false'] at h
    obtain ⟨⟨hc, hd⟩, hrest⟩ := h
    have hpercent : isAsciiHexdigit '%' = false := by decide
    intro before after htext
    rcases List.cons_eq_append_iff.mp htext with ⟨-, hafter⟩ | ⟨front, rfl, hfront⟩
    · exact ⟨c, d, rest, (List.cons.inj hafter).2, hc, hd⟩
    rcases List.cons_eq_append_iff.mp hfront with ⟨-, hafter⟩ | ⟨next, rfl, hnext⟩
    · rw [← (List.cons.inj hafter).1, hpercent] at hc
      cases hc
    rcases List.cons_eq_append_iff.mp hnext with ⟨-, hafter⟩ | ⟨last, rfl, hlast⟩
    · rw [← (List.cons.inj hafter).1, hpercent] at hd
      cases hd
    exact ih hrest last after hlast
  | case3 => cases h
  | case4 c cs hc ih =>
    intro before after htext
    rcases List.cons_eq_append_iff.mp htext with ⟨-, hafter⟩ | ⟨front, rfl, hfront⟩
    · exact absurd (List.cons.inj hafter).1.symm hc
    · exact ih h front after hfront

theorem wellFormedUri_ok {maxBytes : Nat} {p : Url} (h : wellFormedUri P uri maxBytes = .ok p) :
    P.parseUrl uri = some p ∧ hasMalformedPercentEscape uri.toList = false ∧
      p.fragment = none ∧ p.username = "" ∧ p.password = none := by
  simp only [wellFormedUri, bind_eq_ok, pure_eq_ok, ensure_eq_ok, require_eq_ok] at h
  obtain ⟨-, -, -, -, -, -, -, -, -, hescapes, -, -, parsed, hparsed, -, hfragment, -,
    hcredentials, rfl⟩ := h
  simp only [Bool.and_eq_true, String.isEmpty_iff, Option.isNone_iff_eq_none,
    Bool.not_eq_true'] at hescapes hfragment hcredentials
  exact ⟨hparsed, hescapes, hfragment, hcredentials⟩

theorem nodup_of_firstDuplicate {seen : List String}
    (h : RegistrationUris.firstDuplicate seen uris = none) :
    uris.Nodup ∧ ∀ uri ∈ uris, uri ∉ seen := by
  induction uris generalizing seen with
  | nil => simp
  | cons uri rest ih =>
    rw [RegistrationUris.firstDuplicate] at h
    split at h
    · cases h
    · next hseen =>
      obtain ⟨hnodup, hrest⟩ := ih h
      rw [List.contains_iff_mem] at hseen
      constructor
      · rw [List.nodup_cons]
        exact ⟨fun hmem => hrest uri hmem List.mem_cons_self, hnodup⟩
      · intro uri' huri'
        rcases List.mem_cons.mp huri' with rfl | huri'
        · exact hseen
        · exact fun hmem => hrest uri' huri' (List.mem_cons_of_mem _ hmem)

theorem wellFormedShape_ok {shape : Shape} (h : wellFormedShape P uri = .ok shape) :
    Accepted P uri := by
  unfold wellFormedShape at h
  obtain ⟨p, hp, hshape⟩ := bind_eq_ok.mp h
  refine ⟨p, mapError_eq_ok.mp hp, ?_⟩
  split at hshape
  · next hhttps => exact Or.inl hhttps
  · split at hshape
    · next hhttp => exact Or.inr hhttp
    · cases hshape

theorem deriveClosedProfile_ok {authMethod : String} {profile : RedirectProfile}
    (h : deriveClosedProfile P authMethod uris = .ok profile) :
    uris.Nodup ∧ ∀ uri ∈ uris, Accepted P uri := by
  unfold deriveClosedProfile at h
  obtain ⟨-, -, h⟩ := bind_eq_ok.mp h
  split at h
  · cases h
  · next hdistinct =>
    refine ⟨(nodup_of_firstDuplicate hdistinct).1, ?_⟩
    cases uris with
    | nil => simp
    | cons uri rest =>
      obtain ⟨first, hfirst, h⟩ := bind_eq_ok.mp h
      obtain ⟨⟨⟩, hrest, -⟩ := bind_eq_ok.mp h
      intro uri' huri'
      rcases List.mem_cons.mp huri' with rfl | huri'
      · exact wellFormedShape_ok hfirst
      · obtain ⟨shape, hshape, -⟩ := bind_eq_ok.mp (forM_eq_ok hrest uri' huri')
        exact wellFormedShape_ok hshape

theorem checkPostLogoutUris_ok {seen : List String} {u : Unit}
    (h : checkPostLogoutUris P seen uris = .ok u) :
    (uris.Nodup ∧ ∀ uri ∈ uris, uri ∉ seen) ∧ ∀ uri ∈ uris, Accepted P uri := by
  induction uris generalizing seen with
  | nil => simp
  | cons uri rest ih =>
    simp only [checkPostLogoutUris, bind_eq_ok, ensure_eq_ok, mapError_eq_ok] at h
    obtain ⟨-, hseen, p, hp, -, hhttps, hrest⟩ := h
    obtain ⟨⟨hnodup, hnew⟩, haccepted⟩ := ih hrest
    refine ⟨⟨?_, ?_⟩, ?_⟩
    · rw [List.nodup_cons]
      exact ⟨fun hmem => hnew uri hmem List.mem_cons_self, hnodup⟩
    · intro uri' huri'
      rcases List.mem_cons.mp huri' with rfl | huri'
      · simpa using hseen
      · exact fun hmem => hnew uri' huri' (List.mem_cons_of_mem _ hmem)
    · intro uri' huri'
      rcases List.mem_cons.mp huri' with rfl | huri'
      · exact ⟨p, hp, Or.inl (of_decide_eq_true hhttps)⟩
      · exact haccepted uri' huri'

/-- What is stored was sent, and each list was accepted. -/
theorem uris_ok {document : Document} {stored : StoredUris} (h : document.uris P = .ok stored) :
    (stored.redirectUris.Nodup ∧ stored.postLogoutRedirectUris.Nodup) ∧
      (∀ uri, (uri ∈ stored.redirectUris ↔ uri ∈ document.redirectUris) ∧
        (uri ∈ stored.postLogoutRedirectUris ↔
          uri ∈ document.postLogoutRedirectUris.getD [])) ∧
      ∀ uri, uri ∈ stored.redirectUris ∨ uri ∈ stored.postLogoutRedirectUris → Accepted P uri := by
  simp only [Document.uris, bind_eq_ok, pure_eq_ok, mapError_eq_ok] at h
  obtain ⟨-, -, authMethod, -, profile, hprofile, postLogout, hpostLogout, rfl⟩ := h
  obtain ⟨hnodup, haccepted⟩ := deriveClosedProfile_ok hprofile
  have hperm := List.mergeSort_perm document.redirectUris fun a b => decide (a ≤ b)
  have hlogout : postLogout = document.postLogoutRedirectUris.getD [] ∧ postLogout.Nodup ∧
      ∀ uri ∈ postLogout, Accepted P uri := by
    unfold validatePostLogoutRedirectUris at hpostLogout
    split at hpostLogout
    · next hnone =>
      rw [hnone, ← Except.ok.inj hpostLogout]
      simp
    · next uris hsome =>
      simp only [bind_eq_ok, pure_eq_ok] at hpostLogout
      obtain ⟨-, -, ⟨⟩, hcheck, rfl⟩ := hpostLogout
      obtain ⟨⟨hnodup', -⟩, haccepted'⟩ := checkPostLogoutUris_ok hcheck
      rw [hsome]
      exact ⟨rfl, hnodup', haccepted'⟩
  obtain ⟨hsame, hnodup', haccepted'⟩ := hlogout
  refine ⟨⟨hperm.nodup_iff.mpr hnodup, hnodup'⟩, fun uri => ⟨hperm.mem_iff, ?_⟩, ?_⟩
  · rw [← hsame]
  · rintro uri (huri | huri)
    · exact haccepted uri (hperm.mem_iff.mp huri)
    · exact haccepted' uri huri

end Accepted

/-! ## What is canonical -/

section Canonical

variable {Host : Type} {E : Edition Host} {P : Primitives} {uri : String} {uris : List String}

/-- The URL of an entry, and its serialisation. -/
theorem exists_url_of_accepted (hP : ParsesLike E P) (h : Accepted P uri) :
    ∃ p url, P.parseUrl uri = some p ∧ WebUrl.parse E uri.toList = some url ∧
      IsWritten E url ∧
      p.asStr.toList = originText E url ++ (pathText url.path ++ queryText url.query) := by
  obtain ⟨p, hp, hscheme⟩ := h
  obtain ⟨hparse, -, hfragment, husername, hpassword⟩ := wellFormedUri_ok hp
  obtain ⟨url, hurl, hpresents⟩ := hP uri p hparse hscheme
  have hwritten : IsWritten E url := by
    apply isWritten_of_parse hurl
    · rw [← hpresents.username, husername]
      rfl
    · have hnone := hpresents.password
      rw [hpassword] at hnone
      by_contra hne
      rw [if_neg hne] at hnone
      cases hnone
    · rw [← hpresents.fragment, hfragment]
      rfl
  refine ⟨p, url, hparse, hurl, hwritten, ?_⟩
  rw [hpresents.asStr, hwritten.text_eq]

theorem canonicalUri_iff (hE : E.Lawful) (hP : ParsesLike E P) (h : Accepted P uri) :
    CanonicalUri P uri ↔ IsCanonical E uri.toList := by
  obtain ⟨p, url, hp, hurl, hwritten, hasStr⟩ := exists_url_of_accepted hP h
  rw [← withRootPath_eq_iff_isCanonical hE hwritten hurl, ← hasStr]
  constructor
  · intro hcanonical
    obtain ⟨p', hp', hsame⟩ := hcanonical.reserialised
    rw [hp] at hp'
    rw [Option.some.inj hp', hsame]
  · intro hsame
    have hcanonical : IsCanonical E uri.toList := by
      rw [← withRootPath_eq_iff_isCanonical hE hwritten hurl, hsame, hasStr]
    refine ⟨⟨p, hp, hsame.symm⟩, not_namesDefaultPort hE hcanonical, ?_, ?_⟩
    · intro c hc
      obtain ⟨hlow, hhigh⟩ := hcanonical.graphic hE c hc
      constructor
      · simp [Text.isWhitespace]
        omega
      · simp [isControl]
        omega
    · obtain ⟨p', hwellFormed, -⟩ := h
      exact digits_of_escape (wellFormedUri_ok hwellFormed).2.1

theorem canonicalUris_iff (hE : E.Lawful) (hP : ParsesLike E P) (hnodup : uris.Nodup)
    (haccepted : ∀ uri ∈ uris, Accepted P uri) : CanonicalUris P uris ↔ WrittenOut E uris := by
  have heach : (∀ uri ∈ uris, CanonicalUri P uri) ↔ ∀ uri ∈ uris, IsCanonical E uri.toList :=
    forall₂_congr fun uri huri => canonicalUri_iff hE hP (haccepted uri huri)
  constructor
  · intro h
    refine ⟨heach.mp h.each, ?_⟩
    intro uri huri uri' huri' hroot
    by_contra hne
    obtain ⟨p, url, hp, hurl, hwritten, hasStr⟩ := exists_url_of_accepted hP (haccepted uri huri)
    obtain ⟨p', url', hp', hurl', -, hasStr'⟩ := exists_url_of_accepted hP (haccepted uri' huri')
    have htext := (withRootPath_eq_iff_isCanonical hE hwritten hurl).mpr (heach.mp h.each uri huri)
    -- With the root path the text is the serialisation, which is parsed to the same URL.
    rw [parse_of_isTextOf hE hwritten (Or.inl (hroot.symm.trans htext))] at hurl'
    rw [← Option.some.inj hurl', ← hasStr] at hasStr'
    have hsymm : Std.Symm (DenotesAnother P) :=
      ⟨fun _ _ hanother p p' hp hp' => (hanother p' p hp' hp).symm⟩
    exact h.distinct.forall huri huri' hne p p' hp hp' (String.toList_injective hasStr'.symm)
  · intro h
    refine ⟨heach.mpr h.each, List.Pairwise.imp_of_mem ?_ hnodup⟩
    intro uri uri' huri huri' hne p p' hp hp' hsame
    obtain ⟨q, url, hq, hurl, hwritten, hasStr⟩ := exists_url_of_accepted hP (haccepted uri huri)
    obtain ⟨q', url', hq', hurl', hwritten', hasStr'⟩ :=
      exists_url_of_accepted hP (haccepted uri' huri')
    obtain rfl : q = p := Option.some.inj (hq.symm.trans hp)
    obtain rfl : q' = p' := Option.some.inj (hq'.symm.trans hp')
    -- The serialisations are parsed to the two URLs, so there is one URL only.
    have hread := parse_of_isTextOf hE hwritten (Or.inl rfl)
    rw [← hasStr, hsame, hasStr', parse_of_isTextOf hE hwritten' (Or.inl rfl)] at hread
    obtain rfl := Option.some.inj hread
    have htext := (withRootPath_eq_text_iff hE hwritten).mp
      ((withRootPath_eq_iff_isCanonical hE hwritten hurl).mpr (h.each uri huri))
    have htext' := (withRootPath_eq_text_iff hE hwritten).mp
      ((withRootPath_eq_iff_isCanonical hE hwritten hurl').mpr (h.each uri' huri'))
    rcases eq_or_withRootPath_of_isTextOf hE hwritten htext htext' with heq | hroot | hroot
    · exact hne (String.toList_injective heq)
    · exact hne (h.root uri huri uri' huri' hroot)
    · exact hne (h.root uri' huri' uri huri hroot).symm

/-- The lists that are stored are canonical if the lists that were sent are written canonically. -/
theorem registered_uris_canonical_iff (hE : E.Lawful) (hP : ParsesLike E P) {document : Document}
    {stored : StoredUris} (h : document.uris P = .ok stored) :
    CanonicalUris P stored.redirectUris ∧ CanonicalUris P stored.postLogoutRedirectUris ↔
      WrittenOut E document.redirectUris ∧
        WrittenOut E (document.postLogoutRedirectUris.getD []) := by
  obtain ⟨⟨hnodup, hnodup'⟩, hsent, haccepted⟩ := uris_ok h
  have hcongr : ∀ l l' : List String, (∀ uri, uri ∈ l ↔ uri ∈ l') →
      (WrittenOut E l ↔ WrittenOut E l') := by
    intro l l' hsame
    constructor
    · rintro ⟨heach, hroot⟩
      exact ⟨fun uri huri => heach uri ((hsame uri).mpr huri), fun uri huri uri' huri' =>
        hroot uri ((hsame uri).mpr huri) uri' ((hsame uri').mpr huri')⟩
    · rintro ⟨heach, hroot⟩
      exact ⟨fun uri huri => heach uri ((hsame uri).mp huri), fun uri huri uri' huri' =>
        hroot uri ((hsame uri).mp huri) uri' ((hsame uri').mp huri')⟩
  rw [canonicalUris_iff hE hP hnodup fun uri huri => haccepted uri (Or.inl huri),
    canonicalUris_iff hE hP hnodup' fun uri huri => haccepted uri (Or.inr huri),
    hcongr _ _ fun uri => (hsent uri).1, hcongr _ _ fun uri => (hsent uri).2]

end Canonical

/-! ## A scheme in capitals -/

/-- The parser of the standard, for hosts of labels. -/
def Primitives.parsing : Primitives where
  __ := Primitives.transparent
  parseUrl uri := (WebUrl.parse Edition.labels uri.toList).map fun url => {
    scheme := String.ofList url.scheme.name
    username := String.ofList url.username
    password := if url.password = [] then none else some (String.ofList url.password)
    host := some (.domain (String.ofList url.host))
    port := url.port
    path := String.ofList (pathText url.path)
    query := url.query.map String.ofList
    fragment := url.fragment.map String.ofList
    origin := .tuple (String.ofList url.scheme.name) (String.ofList url.host)
      (url.port.getD url.scheme.defaultPort)
    asStr := String.ofList (url.text Edition.labels) }

theorem Primitives.parsing_parsesLike : ParsesLike Edition.labels Primitives.parsing := by
  intro uri p hp _
  obtain ⟨url, hurl, rfl⟩ := Option.map_eq_some_iff.mp hp
  refine ⟨url, hurl, String.toList_ofList, ?_, ?_, String.toList_ofList⟩
  · dsimp only
    split
    · rfl
    · rw [Option.map_some, String.toList_ofList]
  · cases hfragment : url.fragment with
    | none => rfl
    | some fragment => simp [String.toList_ofList]

private theorem uris_of_toOption {P : Primitives} {document : Document} {stored : StoredUris}
    (h : (document.uris P).toOption = some stored) : document.uris P = .ok stored := by
  cases hresult : document.uris P with
  | error e =>
    rw [hresult] at h
    cases h
  | ok stored' =>
    rw [hresult] at h
    exact congrArg Except.ok (Option.some.inj h)

theorem registered_uris_canonical_path :
    CanonicalUris Primitives.parsing ["https://app.example/cb"] ∧
      CanonicalUris Primitives.parsing [] := by
  let document : Document := ⟨["https://app.example/cb"], none, none⟩
  have haccepted : document.uris Primitives.parsing = .ok ⟨["https://app.example/cb"], []⟩ :=
    uris_of_toOption (by decide +kernel)
  have hparse : WebUrl.parse Edition.labels "https://app.example/cb".toList =
      some ⟨.https, [], [], "app.example".toList, none, ["cb".toList], none, none⟩ := by
    decide +kernel
  rw [registered_uris_canonical_iff Edition.labels_lawful Primitives.parsing_parsesLike haccepted]
  refine ⟨⟨?_, ?_⟩, by simp [document], by simp [document]⟩
  · intro uri huri
    obtain rfl := List.mem_singleton.mp huri
    exact ⟨_, isWritten_of_parse hparse rfl rfl rfl, Or.inl (by decide +kernel)⟩
  · intro uri huri uri' huri' _
    rw [List.mem_singleton.mp huri, List.mem_singleton.mp huri']

/-- The scan for a default port looks at schemes in lower case only. -/
theorem registered_uri_names_default_port :
    ∃ stored, (⟨["HTTPS://app.example:443/cb"], none, none⟩ : Document).uris Primitives.parsing =
        .ok stored ∧
      ¬(CanonicalUris Primitives.parsing stored.redirectUris ∧
        CanonicalUris Primitives.parsing stored.postLogoutRedirectUris) := by
  refine ⟨⟨["HTTPS://app.example:443/cb"], []⟩, uris_of_toOption (by decide +kernel), ?_⟩
  rintro ⟨h, -⟩
  apply (h.each _ List.mem_cons_self).noDefaultPort
  exact ⟨.https, "HTTPS".toList, "app.example".toList, "443".toList, "/cb".toList, by decide,
    by decide, List.all_iff_forall_prop.mp (by decide), by decide,
    List.all_iff_forall_prop.mp (by decide), by decide, by decide⟩

end SuiId.DynamicRegistration
