import SuiId.Core.Authorize

/-!
# The port of a loopback redirect

`redirect_uri_matches` is exact, but for the port of a native client.  It compares two parsed URLs
in host, path, query and fragment, and both are `http`; the user name and the password are in
neither list.  So a submitted URI that names a user passes for a registered one that names none, and
a native client is redirected to a URI that differs from what it registered in more than the port.
-/

namespace SuiId

/-- The URLs differ in their ports at most. -/
structure SameButPort (a b : Url) : Prop where
  scheme : a.scheme = b.scheme
  username : a.username = b.username
  password : a.password = b.password
  host : a.host = b.host
  path : a.path = b.path
  query : a.query = b.query
  fragment : a.fragment = b.fragment

/-- What `redirect_uri_matches` compares. -/
structure SameTarget (a b : Url) : Prop where
  host : a.host = b.host
  path : a.path = b.path
  query : a.query = b.query
  fragment : a.fragment = b.fragment

theorem SameButPort.sameTarget {a b : Url} (h : SameButPort a b) : SameTarget a b :=
  ⟨h.host, h.path, h.query, h.fragment⟩

section Matching

variable {P : Primitives} {client : ClientRow} {submitted : String}

/-- A public client all of whose redirect URIs are numeric loopback addresses. -/
def NativeLoopback (P : Primitives) (client : ClientRow) : Prop :=
  client.confidential = false ∧
    ∀ u ∈ client.redirectUris, ∃ url, P.parseUrl u = some url ∧ isNumericLoopbackHttp url = true

/-- The URI is one of the client's but for what `R` leaves open. -/
def Stands (P : Primitives) (R : Url → Url → Prop) (client : ClientRow) (submitted : String) :
    Prop :=
  ∃ url, P.parseUrl submitted = some url ∧
    ∃ u ∈ client.redirectUris, ∃ registered, P.parseUrl u = some registered ∧ R registered url

theorem Stands.imp {R R' : Url → Url → Prop} (himp : ∀ a b, R a b → R' a b)
    (h : Stands P R client submitted) : Stands P R' client submitted := by
  obtain ⟨url, hurl, u, hu, registered, hregistered, hsame⟩ := h
  exact ⟨url, hurl, u, hu, registered, hregistered, himp registered url hsame⟩

theorem isNumericLoopbackHttp_congr {a b : Url} (hscheme : a.scheme = b.scheme)
    (hhost : a.host = b.host) : isNumericLoopbackHttp a = isNumericLoopbackHttp b := by
  simp only [isNumericLoopbackHttp, hscheme, hhost]

theorem scheme_of_loopback {url : Url} (h : isNumericLoopbackHttp url = true) :
    url.scheme = "http" := by
  simp only [isNumericLoopbackHttp, Bool.and_eq_true, beq_iff_eq] at h
  exact h.1

private theorem all_loopback_iff :
    (client.redirectUris.all fun u => (P.parseUrl u).any isNumericLoopbackHttp) = true ↔
      ∀ u ∈ client.redirectUris,
        ∃ url, P.parseUrl u = some url ∧ isNumericLoopbackHttp url = true := by
  simp only [List.all_eq_true, Option.any_eq_true]

private theorem any_sameTarget_iff {url : Url} :
    (client.redirectUris.any fun u => (P.parseUrl u).any fun registered =>
        registered.host == url.host && registered.path == url.path &&
          registered.query == url.query && registered.fragment == url.fragment) = true ↔
      ∃ u ∈ client.redirectUris, ∃ registered, P.parseUrl u = some registered ∧
        SameTarget registered url := by
  simp only [List.any_eq_true, Option.any_eq_true, Bool.and_eq_true, beq_iff_eq]
  constructor
  · rintro ⟨u, hu, registered, hregistered, ⟨⟨hhost, hpath⟩, hquery⟩, hfragment⟩
    exact ⟨u, hu, registered, hregistered, hhost, hpath, hquery, hfragment⟩
  · rintro ⟨u, hu, registered, hregistered, hsame⟩
    exact ⟨u, hu, registered, hregistered, ⟨⟨hsame.host, hsame.path⟩, hsame.query⟩, hsame.fragment⟩

/-- What `redirect_uri_matches` takes. -/
theorem redirectUriMatches_iff :
    redirectUriMatches P client submitted = true ↔ submitted ∈ client.redirectUris ∨
      NativeLoopback P client ∧
        Stands P (fun a b => SameTarget a b ∧ isNumericLoopbackHttp b = true) client submitted := by
  by_cases hexact : submitted ∈ client.redirectUris
  · have hany : client.redirectUris.any (· == submitted) = true :=
      List.any_eq_true.mpr ⟨submitted, hexact, beq_self_eq_true _⟩
    simp only [redirectUriMatches, hany, if_true, hexact, true_or]
  · have hany : client.redirectUris.any (· == submitted) = false := by
      rw [List.any_eq_false]
      rintro u hu hsame
      exact hexact (beq_iff_eq.mp hsame ▸ hu)
    simp only [redirectUriMatches, hany, Bool.false_eq_true, if_false, hexact, false_or]
    cases hconfidential : client.confidential with
    | true =>
      have hnot : ¬ NativeLoopback P client := by
        rintro ⟨hpublic, -⟩
        exact Bool.noConfusion (hconfidential.symm.trans hpublic)
      simp only [if_true, Bool.false_eq_true, hnot, false_and]
    | false =>
      cases hparse : P.parseUrl submitted with
      | none => simp [Stands, hparse]
      | some url =>
        cases hloopback : isNumericLoopbackHttp url with
        | false => simp [Stands, hparse, hloopback]
        | true =>
          simp only [Bool.false_eq_true, if_false, Bool.not_true, Bool.and_eq_true,
            all_loopback_iff, any_sameTarget_iff, NativeLoopback, hconfidential, true_and, Stands,
            hparse, Option.some.injEq, exists_eq_left', hloopback, and_true]

/-- A URL that differs in its port at most is a numeric loopback address too. -/
private theorem stands_sameButPort (hnative : NativeLoopback P client)
    (h : Stands P SameButPort client submitted) :
    Stands P (fun a b => SameTarget a b ∧ isNumericLoopbackHttp b = true) client submitted := by
  obtain ⟨url, hurl, u, hu, registered, hregistered, hsame⟩ := h
  obtain ⟨url', hurl', hloopback⟩ := hnative.2 u hu
  obtain rfl : registered = url' := Option.some.inj (hregistered.symm.trans hurl')
  refine ⟨url, hurl, u, hu, registered, hregistered, hsame.sameTarget, ?_⟩
  rw [← isNumericLoopbackHttp_congr hsame.scheme hsame.host]
  exact hloopback

/-- The submitted URI names no user, or one that a registered URI with the same host, path, query
and fragment names too. -/
def UserRegistered (P : Primitives) (client : ClientRow) (submitted : String) : Prop :=
  Stands P (fun a b => SameTarget a b ∧ isNumericLoopbackHttp b = true) client submitted →
    Stands P (fun a b => SameTarget a b ∧ a.username = b.username ∧ a.password = b.password)
      client submitted

/-- The exception is for the port alone exactly when no user is smuggled in: the client is not
native, the URI is registered as it is, or its user is registered with it. -/
theorem redirect_exception_is_port_only_iff :
    (redirectUriMatches P client submitted = true ↔ submitted ∈ client.redirectUris ∨
        NativeLoopback P client ∧ Stands P SameButPort client submitted) ↔
      submitted ∈ client.redirectUris ∨ ¬ NativeLoopback P client ∨
        UserRegistered P client submitted := by
  rw [redirectUriMatches_iff]
  by_cases hexact : submitted ∈ client.redirectUris
  · simp only [hexact, true_or]
  · by_cases hnative : NativeLoopback P client
    · simp only [hexact, hnative, true_and, false_or, not_true_eq_false]
      constructor
      · intro h htarget
        exact (h.mp htarget).imp fun a b hsame =>
          ⟨hsame.sameTarget, hsame.username, hsame.password⟩
      · intro huser
        refine ⟨fun htarget => ?_, stands_sameButPort hnative⟩
        obtain ⟨url', hurl', u, hu, registered, hregistered, hsame, hname, hpassword⟩ :=
          huser htarget
        obtain ⟨url, hurl, -, -, -, -, -, hloopback⟩ := htarget
        obtain rfl : url = url' := Option.some.inj (hurl.symm.trans hurl')
        obtain ⟨url'', hurl'', hregisteredLoopback⟩ := hnative.2 u hu
        obtain rfl : registered = url'' := Option.some.inj (hregistered.symm.trans hurl'')
        have hscheme : registered.scheme = url.scheme :=
          (scheme_of_loopback hregisteredLoopback).trans (scheme_of_loopback hloopback).symm
        exact ⟨url, hurl, u, hu, registered, hregistered,
          ⟨hscheme, hname, hpassword, hsame.host, hsame.path, hsame.query, hsame.fragment⟩⟩
    · simp only [hexact, hnative, false_and, not_false_eq_true, true_or, or_true]

end Matching

/-! ## A user in front of the host -/

private def loopbackUrl (username : String) (port : Nat) (asStr : String) : Url where
  scheme := "http"
  username := username
  password := none
  host := some (.ipv4 0x7f000001)
  port := some port
  path := "/cb"
  query := none
  fragment := none
  origin := .tuple "http" "127.0.0.1" port
  asStr := asStr

/-- The parser on two texts. -/
def Primitives.withUser : Primitives where
  __ := Primitives.transparent
  parseUrl s :=
    if s = "http://127.0.0.1:1/cb" then some (loopbackUrl "" 1 s)
    else if s = "http://eve@127.0.0.1:2/cb" then some (loopbackUrl "eve" 2 s)
    else none

def nativeClient : ClientRow where
  id := 1
  name := "n"
  confidential := false
  secretHash := none
  allowedScopes := ""
  isDisabled := false
  isDeleted := false
  tokenEndpointAuthMethod := none
  grantTypes := none
  redirectUris := ["http://127.0.0.1:1/cb"]

/-- The user is not among what is compared. -/
theorem redirect_with_user_matches :
    redirectUriMatches .withUser nativeClient "http://eve@127.0.0.1:2/cb" = true ∧
      ¬ ("http://eve@127.0.0.1:2/cb" ∈ nativeClient.redirectUris ∨
        NativeLoopback .withUser nativeClient ∧
          Stands .withUser SameButPort nativeClient "http://eve@127.0.0.1:2/cb") := by
  refine ⟨by decide +kernel, ?_⟩
  rintro (hmem | ⟨-, url, hurl, u, hu, registered, hregistered, hsame⟩)
  · exact absurd hmem (by decide +kernel)
  · obtain rfl : u = "http://127.0.0.1:1/cb" := List.mem_singleton.mp hu
    have hname := hsame.username
    rw [← Option.some.inj hurl, ← Option.some.inj hregistered] at hname
    exact absurd hname (by decide)

end SuiId
