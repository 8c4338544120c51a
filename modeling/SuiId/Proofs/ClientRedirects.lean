import SuiId.Core.Redirects

/-!
# What a redirect to a client carries

A registered URI may have a query of its own.  Four of the five places look for a `?` in it before
they write their first parameter, so the query of their location is the query of the URI with their
parameters after it.  `protocol_error_redirect` always writes a `?`: on a URI that has one, `?error`
becomes part of the last pair or of a name.
-/

namespace SuiId

open Lib Lib.Result

/-! ## Registered URIs -/

/-- A URL has a fragment if there is a `#` in its text. -/
def Primitives.FragmentMarked (P : Primitives) : Prop :=
  ∀ s url, P.parseUrl s = some url → '#' ∈ s.toList → url.fragment ≠ none

/-- A URI that a client has registered, or one that stands for it on the loopback interface.  What
is registered has been parsed, and has no fragment. -/
structure RegisteredUri (P : Primitives) (client : ClientRow) (uri : String) : Prop where
  checked : ∀ u ∈ client.redirectUris ++ client.postLogoutRedirectUris,
    ∃ url, P.parseUrl u = some url ∧ url.fragment = none
  matched : redirectUriMatches P client uri = true ∨ logoutTarget client uri = some uri

section Registered

variable {P : Primitives} {client : ClientRow} {uri : String}

theorem fragment_of_validateRedirectUri (h : validateRedirectUri P uri = .ok ()) :
    ∃ url, P.parseUrl uri = some url ∧ url.fragment = none := by
  simp only [validateRedirectUri, bind_eq_ok, require_eq_ok, ensure_eq_ok] at h
  obtain ⟨url, hparse, -, -, hfragment⟩ := h
  exact ⟨url, hparse, Option.isNone_iff_eq_none.mp hfragment⟩

/-- Either list, or the loopback rule, which compares fragments. -/
private theorem fragment_of_matched (h : RegisteredUri P client uri) :
    ∃ url, P.parseUrl uri = some url ∧ url.fragment = none := by
  have hlisted : ∀ list, list ⊆ client.redirectUris ++ client.postLogoutRedirectUris →
      list.any (· == uri) = true → ∃ url, P.parseUrl uri = some url ∧ url.fragment = none := by
    intro list hsub hany
    obtain ⟨u, hu, hsame⟩ := List.any_eq_true.mp hany
    rw [← beq_iff_eq.mp hsame]
    exact h.checked u (hsub hu)
  have hredirect := hlisted client.redirectUris (List.subset_append_left _ _)
  rcases h.matched with hmatch | hlogout
  · unfold redirectUriMatches at hmatch
    split at hmatch
    · rename_i hexact
      exact hredirect hexact
    · split at hmatch
      · cases hmatch
      · split at hmatch
        · cases hmatch
        · rename_i url hurl
          split at hmatch
          · cases hmatch
          · obtain ⟨-, hany⟩ := Bool.and_eq_true_iff.mp hmatch
            obtain ⟨u, hu, hregistered⟩ := List.any_eq_true.mp hany
            obtain ⟨registered, hparse, hsame⟩ := (Option.any_eq_true _ _).mp hregistered
            obtain ⟨-, hfragment⟩ := Bool.and_eq_true_iff.mp hsame
            obtain ⟨url', hparse', hnone⟩ := h.checked u (List.mem_append_left _ hu)
            rw [hparse] at hparse'
            cases hparse'
            rw [beq_iff_eq.mp hfragment] at hnone
            exact ⟨url, hurl, hnone⟩
  · unfold logoutTarget at hlogout
    split at hlogout
    · cases hlogout
    · split at hlogout
      · obtain ⟨hany, -⟩ := Option.ite_none_right_eq_some.mp hlogout
        exact hlisted _ (List.subset_append_right _ _) hany
      · obtain ⟨hany, -⟩ := Option.ite_none_right_eq_some.mp hlogout
        exact hredirect hany

theorem notMem_hash (hurl : P.FragmentMarked) (h : RegisteredUri P client uri) : 35 ∉ utf8 uri := by
  obtain ⟨url, hparse, hnone⟩ := fragment_of_matched h
  rw [mem_utf8 (c := '#') (by decide) rfl]
  exact fun hmem => hurl uri url hparse hmem hnone

end Registered

/-! ## The five places -/

/-- The query decodes to these pairs after those of the URI, and nothing else has changed. -/
def Carries (uri location : String) (parameters : List (String × String)) : Prop :=
  FormUrl.base (utf8 location) = FormUrl.base (utf8 uri) ∧
    FormUrl.fragment? (utf8 location) = none ∧
    FormUrl.queryPairs (utf8 location) =
      FormUrl.queryPairs (utf8 uri) ++ parameters.map fun (name, value) => (utf8 name, utf8 value)

instance (uri location : String) (parameters : List (String × String)) :
    Decidable (Carries uri location parameters) := inferInstanceAs (Decidable (_ ∧ _ ∧ _))

/-- What the client is told, before the state. -/
def ClientRedirect.outcome : ClientRedirect → List (String × String)
  | authorized _ code _ | consentApproved _ code _ => [("code", code)]
  | protocolError _ _ err =>
    [("error", (protocolErrorParts err).1), ("error_description", (protocolErrorParts err).2)]
  | consentDenied _ _ => [("error", "access_denied")]
  | loggedOut _ _ => []

/-- The pairs of a response. -/
def ClientRedirect.parameters (r : ClientRedirect) : List (String × String) :=
  r.outcome ++ r.state.toList.map fun s => ("state", s)

section Text

variable {uri : String}

theorem utf8_utf8PercentEncode (s : String) :
    utf8 (utf8PercentEncode s) = FormUrl.encode (utf8 s) := by
  rw [utf8PercentEncode, utf8_ofList]
  apply FormUrl.utf8Encode_of_ascii
  intro b hb
  exact UInt8.lt_iff_toNat_lt.mpr (FormUrl.toNat_lt_of_mem_encode hb)

theorem utf8_querySeparator (uri : String) :
    utf8 (querySeparator uri) = [FormUrl.separator (utf8 uri)] := by
  have hmem : 63 ∈ utf8 uri ↔ '?' ∈ uri.toList := mem_utf8 (by decide) rfl uri
  by_cases h : '?' ∈ uri.toList
  · rw [querySeparator, if_pos (List.contains_iff_mem.mpr h), FormUrl.separator,
      if_pos (hmem.mpr h)]
    decide
  · rw [querySeparator, if_neg (mt List.contains_iff_mem.mp h), FormUrl.separator,
      if_neg (mt hmem.mp h)]
    decide

/-- The state as it stands after other parameters. -/
def stateBytes : Option String → Bytes
  | none => []
  | some s => 38 :: (utf8 "state" ++ 61 :: FormUrl.encode (utf8 s))

private theorem utf8_pushState (url : String) (state : Option String) :
    utf8 (pushState url state) = utf8 url ++ stateBytes state := by
  cases state with
  | none => rw [pushState, stateBytes, List.append_nil]
  | some s =>
    have hstate : utf8 "&state=" = 38 :: (utf8 "state" ++ [61]) := by decide
    rw [pushState, stateBytes, utf8_append, utf8_append, hstate, utf8_utf8PercentEncode,
      List.append_assoc, List.cons_append, List.append_assoc]
    rfl

private theorem pairs_stateBytes (piece : Bytes) (state : Option String) :
    FormUrl.pairs (piece ++ stateBytes state) =
      FormUrl.pairs piece ++ state.toList.map fun s => (utf8 "state", utf8 s) := by
  cases state with
  | none => simp [stateBytes]
  | some s =>
    rw [stateBytes, FormUrl.pairs_append, FormUrl.pairs_encode (List.all_iff_forall_prop.mp
      (by decide))]
    rfl

private theorem hash_stateBytes (state : Option String) : 35 ∉ stateBytes state := by
  cases state with
  | none => exact List.not_mem_nil
  | some s =>
    have hstate : 35 ∉ utf8 "state" := by decide
    have hvalue := FormUrl.notMem_encode (by decide : FormUrl.isAlphanumeric 35 = false) (by decide)
      (utf8 s)
    simp [stateBytes, hstate, hvalue]

/-- The first parameter is written with the separator that the URI needs. -/
private theorem carries_appendPiece {location : String} {piece : Bytes}
    {outcome : List (String × String)} {state : Option String} (huri : 35 ∉ utf8 uri)
    (hlocation : utf8 location = FormUrl.appendPiece (utf8 uri) (piece ++ stateBytes state))
    (hhash : 35 ∉ piece)
    (hpairs : FormUrl.pairs piece = outcome.map fun (name, value) => (utf8 name, utf8 value)) :
    Carries uri location (outcome ++ state.toList.map fun s => ("state", s)) := by
  have hpiece : 35 ∉ piece ++ stateBytes state := by simp [hhash, hash_stateBytes]
  obtain ⟨hbase, hfragment, hquery⟩ := FormUrl.queryPairs_appendPiece huri hpiece
  refine ⟨by rw [hlocation, hbase], by rw [hlocation, hfragment], ?_⟩
  rw [hlocation, hquery, pairs_stateBytes, hpairs, List.map_append, List.map_map]
  rfl

/-- `name=value`, for a value that is encoded. -/
private theorem encoded_piece (name value : String)
    (hname : ∀ b ∈ utf8 name, b ≠ 37 ∧ b ≠ 43 ∧ b ≠ 38 ∧ b ≠ 61) (hhash : 35 ∉ utf8 name) :
    35 ∉ utf8 name ++ 61 :: FormUrl.encode (utf8 value) ∧
      FormUrl.pairs (utf8 name ++ 61 :: FormUrl.encode (utf8 value)) =
        [(utf8 name, utf8 value)] := by
  have hvalue := FormUrl.notMem_encode (by decide : FormUrl.isAlphanumeric 35 = false) (by decide)
    (utf8 value)
  exact ⟨by simp [hhash, hvalue], FormUrl.pairs_encode hname _⟩

/-- The code of an error is written as it is. -/
private theorem protocolErrorParts_plain (err : CoreError) :
    ∀ b ∈ utf8 (protocolErrorParts err).1, b ≠ 37 ∧ b ≠ 43 ∧ b ≠ 38 ∧ b ≠ 35 := by
  have hserver : ∀ b ∈ utf8 "server_error", b ≠ 37 ∧ b ≠ 43 ∧ b ≠ 38 ∧ b ≠ 35 :=
    List.all_iff_forall_prop.mp (by decide)
  have hcode : ∀ code : ProtocolError, ∀ b ∈ utf8 code.asStr,
      b ≠ 37 ∧ b ≠ 43 ∧ b ≠ 38 ∧ b ≠ 35 := by
    intro code
    cases code <;> exact List.all_iff_forall_prop.mp (by decide)
  cases err with
  | protocol code description => exact hcode code
  | _ => exact hserver

/-- The first parameter of `protocol_error_redirect`. -/
def errorPiece (err : CoreError) : Bytes := utf8 "error" ++ 61 :: utf8 (protocolErrorParts err).1

/-- Its second parameter. -/
def descriptionPiece (err : CoreError) : Bytes :=
  utf8 "error_description" ++ 61 :: FormUrl.encode (utf8 (protocolErrorParts err).2)

private theorem utf8_protocolErrorRedirect (uri : String) (state : Option String)
    (err : CoreError) : utf8 (protocolErrorRedirect uri state err) =
      utf8 uri ++ 63 :: (errorPiece err ++ 38 :: descriptionPiece err ++ stateBytes state) := by
  have herror : utf8 "?error=" = 63 :: (utf8 "error" ++ [61]) := by decide
  have hdescription : utf8 "&error_description=" = 38 :: (utf8 "error_description" ++ [61]) := by
    decide
  rw [protocolErrorRedirect, utf8_pushState, errorPiece, descriptionPiece]
  simp only [utf8_append, herror, hdescription, utf8_utf8PercentEncode, List.append_assoc,
    List.cons_append, List.nil_append]

private theorem pairs_errorPiece (err : CoreError) :
    FormUrl.pairs (errorPiece err) = [(utf8 "error", utf8 (protocolErrorParts err).1)] := by
  apply FormUrl.pairs_plain (List.all_iff_forall_prop.mp (by decide))
  intro b hb
  obtain ⟨hpercent, hplus, hamp, -⟩ := protocolErrorParts_plain err b hb
  exact ⟨hpercent, hplus, hamp⟩

private theorem notMem_errorPiece (err : CoreError) :
    35 ∉ errorPiece err ∧ 38 ∉ errorPiece err := by
  have hname : 35 ∉ utf8 "error" ∧ 38 ∉ utf8 "error" := by decide
  have hhash : 35 ∉ utf8 (protocolErrorParts err).1 := fun h =>
    (protocolErrorParts_plain err _ h).2.2.2 rfl
  have hamp : 38 ∉ utf8 (protocolErrorParts err).1 := fun h =>
    (protocolErrorParts_plain err _ h).2.2.1 rfl
  constructor
  · simp [errorPiece, hname.1, hhash]
  · simp [errorPiece, hname.2, hamp]

private theorem pairs_protocolError (rest : Bytes) (err : CoreError) (state : Option String) :
    FormUrl.pairs (rest ++ 38 :: descriptionPiece err ++ stateBytes state) =
      FormUrl.pairs rest ++ ((utf8 "error_description", utf8 (protocolErrorParts err).2) ::
        state.toList.map fun s => (utf8 "state", utf8 s)) := by
  have hdescription := encoded_piece "error_description" (protocolErrorParts err).2
    (List.all_iff_forall_prop.mp (by decide)) (by decide)
  rw [pairs_stateBytes, FormUrl.pairs_append, descriptionPiece, hdescription.2, List.append_assoc]
  rfl

end Text

section Places

variable {uri : String}

theorem authorizeRedirect_carries (huri : 35 ∉ utf8 uri) (code : String) (state : Option String) :
    Carries uri (authorizeRedirect uri code state)
      ([("code", code)] ++ state.toList.map fun s => ("state", s)) := by
  obtain ⟨hhash, hpairs⟩ := encoded_piece "code" code
    (List.all_iff_forall_prop.mp (by decide)) (by decide)
  refine carries_appendPiece huri ?_ hhash hpairs
  have hcode : utf8 "code=" = utf8 "code" ++ [61] := by decide
  rw [authorizeRedirect, utf8_pushState, FormUrl.appendPiece]
  simp only [utf8_append, utf8_querySeparator, hcode, utf8_utf8PercentEncode, List.append_assoc,
    List.cons_append, List.nil_append]

theorem consentDenyRedirect_carries (huri : 35 ∉ utf8 uri) (state : Option String) :
    Carries uri (consentDenyRedirect uri state)
      ([("error", "access_denied")] ++ state.toList.map fun s => ("state", s)) := by
  have hpairs : FormUrl.pairs (utf8 "error" ++ 61 :: utf8 "access_denied") =
      [(utf8 "error", utf8 "access_denied")] := FormUrl.pairs_plain
        (List.all_iff_forall_prop.mp (by decide)) (List.all_iff_forall_prop.mp (by decide))
  have hhash : 35 ∉ utf8 "error" ++ 61 :: utf8 "access_denied" := by decide
  refine carries_appendPiece huri ?_ hhash hpairs
  have hdenied : utf8 "error=access_denied" = utf8 "error" ++ 61 :: utf8 "access_denied" := by
    decide
  rw [consentDenyRedirect, utf8_pushState, FormUrl.appendPiece]
  simp only [utf8_append, utf8_querySeparator, hdenied, List.append_assoc, List.cons_append,
    List.nil_append]

theorem logoutRedirect_carries (huri : 35 ∉ utf8 uri) (state : Option String) :
    Carries uri (logoutRedirect uri state) (state.toList.map fun s => ("state", s)) := by
  cases state with
  | none =>
    have hnone : FormUrl.fragment? (utf8 uri) = none := by
      rw [FormUrl.fragment?, FormUrl.cut_of_notMem huri]
    exact ⟨rfl, hnone, (List.append_nil _).symm⟩
  | some s =>
    obtain ⟨hhash, hpairs⟩ := encoded_piece "state" s
      (List.all_iff_forall_prop.mp (by decide)) (by decide)
    have hstate : utf8 "state=" = utf8 "state" ++ [61] := by decide
    have hlocation : utf8 (logoutRedirect uri (some s)) =
        FormUrl.appendPiece (utf8 uri) (utf8 "state" ++ 61 :: FormUrl.encode (utf8 s)) := by
      rw [logoutRedirect, FormUrl.appendPiece]
      simp only [utf8_append, utf8_querySeparator, hstate, utf8_utf8PercentEncode,
        List.append_assoc,
        List.cons_append, List.nil_append]
    obtain ⟨hbase, hfragment, hquery⟩ := FormUrl.queryPairs_appendPiece huri hhash
    refine ⟨by rw [hlocation, hbase], by rw [hlocation, hfragment], ?_⟩
    rw [hlocation, hquery, hpairs]
    rfl

theorem protocolErrorRedirect_carries (huri : 35 ∉ utf8 uri) (hmark : 63 ∉ utf8 uri)
    (state : Option String) (err : CoreError) :
    Carries uri (protocolErrorRedirect uri state err)
      (ClientRedirect.protocolError uri state err).parameters := by
  have hdescription := encoded_piece "error_description" (protocolErrorParts err).2
    (List.all_iff_forall_prop.mp (by decide)) (by decide)
  have hpairs := pairs_protocolError (errorPiece err) err none
  rw [stateBytes, List.append_nil, pairs_errorPiece] at hpairs
  refine carries_appendPiece huri ?_ ?_ hpairs
  · rw [utf8_protocolErrorRedirect, FormUrl.appendPiece, FormUrl.separator, if_neg hmark]
    rfl
  · have hfirst := (notMem_errorPiece err).1
    have hsecond := hdescription.1
    simp only [List.mem_append, List.mem_cons, not_or]
    exact ⟨hfirst, by decide, hsecond⟩

/-- After a query, the first parameter runs into its last pair. -/
theorem not_carries_protocolErrorRedirect (huri : 35 ∉ utf8 uri) (hmark : 63 ∈ utf8 uri)
    (state : Option String) (err : CoreError) :
    ¬ Carries uri (protocolErrorRedirect uri state err)
      (ClientRedirect.protocolError uri state err).parameters := by
  rintro ⟨-, -, hquery⟩
  have hhash : 35 ∉ 63 :: (errorPiece err ++ 38 :: descriptionPiece err ++ stateBytes state) := by
    have hdescription := encoded_piece "error_description" (protocolErrorParts err).2
      (List.all_iff_forall_prop.mp (by decide)) (by decide)
    simp only [List.mem_append, List.mem_cons, not_or]
    exact ⟨by decide, ⟨(notMem_errorPiece err).1, by decide, hdescription.1⟩, hash_stateBytes _⟩
  have happended := (FormUrl.base_append huri hmark hhash).2
  obtain ⟨before, query, hbefore, hcut⟩ := FormUrl.exists_first hmark
  have hown : FormUrl.query? (utf8 uri) = some query := by
    rw [FormUrl.query?, FormUrl.cut_of_notMem huri, hcut, FormUrl.cut_append hbefore]
  rw [utf8_protocolErrorRedirect, FormUrl.queryPairs, FormUrl.queryPairs, happended, hown,
    Option.map_some, Option.getD_some, Option.getD_some] at hquery
  have hpairs := pairs_protocolError (query ++ 63 :: errorPiece err) err state
  have hglued : FormUrl.pairs (query ++ 63 :: errorPiece err) =
      FormUrl.pairs query ++ [(utf8 "error", utf8 (protocolErrorParts err).1)] := by
    apply @List.append_cancel_right _ _ ((utf8 "error_description",
      utf8 (protocolErrorParts err).2) :: state.toList.map fun s => (utf8 "state", utf8 s))
    rw [← hpairs]
    have hlist : query ++ 63 :: (errorPiece err ++ 38 :: descriptionPiece err ++ stateBytes state) =
        query ++ 63 :: errorPiece err ++ 38 :: descriptionPiece err ++ stateBytes state := by
      simp
    rw [← hlist, hquery, List.append_assoc]
    simp [ClientRedirect.parameters, ClientRedirect.outcome, ClientRedirect.state]
  have hamp : 38 ∉ 63 :: errorPiece err := by
    simp [(notMem_errorPiece err).2]
  have hpair : FormUrl.pair (63 :: errorPiece err) =
      (utf8 "?error", FormUrl.decode (utf8 (protocolErrorParts err).1)) :=
    FormUrl.pair_of_equals (by decide : 61 ∉ utf8 "?error") _
  refine FormUrl.pairs_glued hamp (List.cons_ne_nil _ _) query _ ?_ hglued
  have hname : utf8 "?error" ≠ utf8 "error" := by decide
  rw [hpair]
  exact fun hsame => hname (congrArg Prod.fst hsame)

end Places

/-- A response carries its parameters, unless it is an error of the protocol and the URI has a
query of its own. -/
theorem redirect_carries_iff {P : Primitives} (hurl : P.FragmentMarked) {client : ClientRow}
    {r : ClientRedirect} (hregistered : RegisteredUri P client r.uri) :
    Carries r.uri r.location r.parameters ↔
      ∀ redirectUri state err, r = .protocolError redirectUri state err →
        '?' ∉ redirectUri.toList := by
  have huri := notMem_hash hurl hregistered
  cases r with
  | authorized redirectUri code state | consentApproved redirectUri code state =>
    exact iff_of_true (authorizeRedirect_carries huri code state) (fun _ _ _ h => by cases h)
  | protocolError redirectUri state err =>
    have hmem : 63 ∈ utf8 redirectUri ↔ '?' ∈ redirectUri.toList := mem_utf8 (by decide) rfl _
    by_cases hmark : '?' ∈ redirectUri.toList
    · have hnot := not_carries_protocolErrorRedirect huri (hmem.mpr hmark) state err
      exact iff_of_false hnot fun h => h redirectUri state err rfl hmark
    · refine iff_of_true (protocolErrorRedirect_carries huri (mt hmem.mp hmark) state err) ?_
      rintro _ _ _ ⟨⟩
      exact hmark
  | consentDenied redirectUri state =>
    exact iff_of_true (consentDenyRedirect_carries huri state) (fun _ _ _ h => by cases h)
  | loggedOut target state =>
    exact iff_of_true (logoutRedirect_carries huri state) (fun _ _ _ h => by cases h)

/-! ## A URI with a query -/

/-- The parser on one text. -/
def Primitives.withQuery : Primitives where
  __ := Primitives.transparent
  parseUrl s :=
    if s = "https://a/c?x" then
      some
        { scheme := "https", username := "", password := none, host := some (.domain "a")
          port := none, path := "/c", query := some "x", fragment := none
          origin := .tuple "https" "a" 443, asStr := s }
    else none

def clientWithQuery : ClientRow where
  id := 1
  name := "c"
  confidential := true
  secretHash := none
  allowedScopes := ""
  isDisabled := false
  isDeleted := false
  tokenEndpointAuthMethod := none
  grantTypes := none
  redirectUris := ["https://a/c?x"]

private theorem fragmentMarked_withQuery : Primitives.withQuery.FragmentMarked := by
  intro s url hparse hhash
  obtain ⟨rfl, -⟩ := Option.ite_none_right_eq_some.mp hparse
  exact absurd hhash (by decide)

private theorem registered_withQuery :
    RegisteredUri .withQuery clientWithQuery "https://a/c?x" where
  checked u hu := by
    rw [List.mem_singleton.mp hu]
    exact fragment_of_validateRedirectUri rfl
  matched := Or.inl rfl

/-- A code for that client, with a state. -/
theorem redirect_carries_code :
    Carries "https://a/c?x" (authorizeRedirect "https://a/c?x" "k" (some "s t"))
      [("code", "k"), ("state", "s t")] :=
  (redirect_carries_iff (r := .authorized "https://a/c?x" "k" (some "s t"))
    fragmentMarked_withQuery registered_withQuery).mpr fun _ _ _ h => by cases h

/-- An error of the protocol for that client. -/
theorem protocol_error_runs_into_query :
    Primitives.withQuery.FragmentMarked ∧ RegisteredUri .withQuery clientWithQuery "https://a/c?x" ∧
      ¬ Carries "https://a/c?x"
        (protocolErrorRedirect "https://a/c?x" none (.protocol .invalidScope "s"))
        [("error", "invalid_scope"), ("error_description", "s")] :=
  ⟨fragmentMarked_withQuery, registered_withQuery, by decide +kernel⟩

end SuiId
