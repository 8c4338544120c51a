import SuiId.Core.Setup

/-!
# The setup token at the end of its way

The token is written with the standard alphabet and pasted into queries as it is, and a `+` in a
query is read as a space.  `afterLink` is what one link makes of a token.  It changes nothing in a
token without `+`, and after the first link no `+` is left.
-/

namespace SuiId.SetupToken

open Lib

/-! ## Tokens on the way -/

/-- The bytes of a token, with the spaces that came from a `+`. -/
def Carried (token : Bytes) : Prop :=
  ∀ b ∈ token, FormUrl.isAlphanumeric b ∨ b = 43 ∨ b = 47 ∨ b = 61 ∨ b = 32

/-- What one link makes of a token. -/
def afterLink (token : Bytes) : Bytes :=
  (token.rdropWhile FormUrl.isControlOrSpace).map FormUrl.space

private theorem byte_of_carried (b : UInt8)
    (h : FormUrl.isAlphanumeric b ∨ b = 43 ∨ b = 47 ∨ b = 61 ∨ b = 32) :
    b < 0x80 ∧ b ≠ 37 ∧ b ≠ 38 ∧ b ≠ 35 ∧ b ≠ 9 ∧ b ≠ 10 ∧ b ≠ 13 ∧
      (FormUrl.isControlOrSpace b = true → b = 32) := by
  rcases h with h | rfl | rfl | rfl | rfl
  · obtain ⟨hlow, hhigh⟩ := FormUrl.range_of_isAlphanumeric h
    have hne {n : UInt8} (hn : n.toNat < 48) : b ≠ n := by
      rintro rfl
      omega
    refine ⟨?_, hne (by decide), hne (by decide), hne (by decide), hne (by decide),
      hne (by decide), hne (by decide), fun hcontrol => ?_⟩
    · rw [UInt8.lt_iff_toNat_lt]
      exact Nat.lt_of_le_of_lt hhigh (by decide)
    · have hle : b.toNat ≤ 32 := UInt8.le_iff_toNat_le.mp (decide_eq_true_eq.mp hcontrol)
      omega
  · decide
  · decide
  · decide
  · decide

private theorem space_carried (b : UInt8)
    (h : FormUrl.isAlphanumeric b ∨ b = 43 ∨ b = 47 ∨ b = 61 ∨ b = 32) :
    (FormUrl.isAlphanumeric (FormUrl.space b) ∨ FormUrl.space b = 43 ∨ FormUrl.space b = 47 ∨
      FormUrl.space b = 61 ∨ FormUrl.space b = 32) ∧ FormUrl.space b ≠ 43 := by
  rcases h with h | rfl | rfl | rfl | rfl
  · rw [(FormUrl.ne_of_isAlphanumeric h).2]
    refine ⟨Or.inl h, ?_⟩
    rintro rfl
    exact absurd h (by decide)
  · decide
  · decide
  · decide
  · decide

variable {token : Bytes}

theorem Carried.of_sublist {token' : Bytes} (h : Carried token) (hsub : token' ⊆ token) :
    Carried token' := fun b hb => h b (hsub hb)

theorem Carried.stripped (h : Carried token) :
    Carried (token.rdropWhile FormUrl.isControlOrSpace) :=
  h.of_sublist (List.rdropWhile_prefix _ _).subset

theorem Carried.linked (h : Carried token) : Carried (afterLink token) := by
  intro b hb
  obtain ⟨b', hb', rfl⟩ := List.mem_map.mp hb
  exact (space_carried b' (h.stripped b' hb')).1

theorem Carried.iterate (h : Carried token) (n : Nat) : Carried (afterLink^[n] token) := by
  induction n with
  | zero => exact h
  | succ n ih =>
    rw [Function.iterate_succ_apply']
    exact ih.linked

/-- After a link no `+` is left. -/
theorem plus_notMem_afterLink (h : Carried token) : 43 ∉ afterLink token := by
  intro hplus
  obtain ⟨b, hb, hspace⟩ := List.mem_map.mp hplus
  exact (space_carried b (h.stripped b hb)).2 hspace

/-- A link leaves a token alone that has neither `+` nor a space. -/
theorem afterLink_of_plain (h : Carried token) (hplus : 43 ∉ token) (hspace : 32 ∉ token) :
    afterLink token = token := by
  have hkept : token.rdropWhile FormUrl.isControlOrSpace = token := by
    rw [List.rdropWhile_eq_self_iff]
    intro hne hlast
    have hmem := List.getLast_mem hne
    have hsame := (byte_of_carried _ (h _ hmem)).2.2.2.2.2.2.2 hlast
    exact hspace (hsame ▸ hmem)
  rw [afterLink, hkept]
  calc token.map FormUrl.space = token.map id := by
        apply List.map_congr_left
        intro b hb
        have hne : b ≠ 43 := fun hb43 => hplus (hb43 ▸ hb)
        rw [FormUrl.space, if_neg hne, id]
    _ = token := List.map_id token

theorem Carried.utf8_ascii (h : Carried token) : utf8 (FormUrl.ascii token) = token := by
  rw [FormUrl.ascii, utf8_ofList]
  exact FormUrl.utf8Encode_of_ascii fun b hb => (byte_of_carried b (h b hb)).1

theorem Carried.lossy (h : Carried token) : FormUrl.lossy token = FormUrl.ascii token :=
  FormUrl.lossy_of_ascii fun b hb => (byte_of_carried b (h b hb)).1

private theorem isEmpty_ascii (h : token ≠ []) : (FormUrl.ascii token).isEmpty = false := by
  rw [Bool.eq_false_iff, ne_eq, String.isEmpty_iff, FormUrl.ascii, String.ofList_eq_empty_iff,
    List.map_eq_nil_iff]
  exact h

/-! ## Links -/

/-- The pair of the token in the query of a link. -/
private theorem pairs_token (h : Carried token) :
    FormUrl.pairs (utf8 "token" ++ 61 :: FormUrl.queryEncode token) =
      [(utf8 "token", token.map FormUrl.space)] := by
  have hpercent : 37 ∉ token := fun hmem => (byte_of_carried _ (h _ hmem)).2.1 rfl
  have hamp : 38 ∉ token := fun hmem => (byte_of_carried _ (h _ hmem)).2.2.1 rfl
  have hname : 38 ∉ utf8 "token" ∧ 61 ∉ utf8 "token" := by decide
  have hdecoded : FormUrl.decode (utf8 "token") = utf8 "token" :=
    FormUrl.decode_of_plain (List.all_iff_forall_prop.mp (by decide))
  have hpiece : 38 ∉ utf8 "token" ++ 61 :: FormUrl.queryEncode token := by
    simp [hname.1, FormUrl.notMem_queryEncode hamp]
  rw [FormUrl.pairs_piece hpiece (by simp), FormUrl.pair_of_equals hname.2, hdecoded,
    FormUrl.decode_queryEncode hpercent]

/-- A token is read from the last pair of a query whose other pairs have other names. -/
private theorem field_token (h : Carried token) {query : Bytes} {others : List (Bytes × Bytes)}
    (hquery : FormUrl.pairs query = others ++ [(utf8 "token", token.map FormUrl.space)])
    (hothers : ∀ pair ∈ others, (pair.1 == utf8 "token") = false) :
    field "token" query = some (some (FormUrl.ascii (token.map FormUrl.space))) := by
  have hcarried : Carried (token.map FormUrl.space) := by
    intro b hb
    obtain ⟨b', hb', rfl⟩ := List.mem_map.mp hb
    exact (space_carried b' (h b' hb')).1
  have hnone : others.filter (fun pair => pair.1 == utf8 "token") = [] := by
    rw [List.filter_eq_nil_iff]
    intro pair hpair
    rw [hothers pair hpair]
    exact Bool.false_ne_true
  rw [field, hquery, List.filter_append, hnone, List.nil_append,
    List.filter_cons_of_pos (by rw [beq_self_eq_true]), List.filter_nil, ← hcarried.lossy]

/-- The query of a link that ends with a token: what is stripped is at the end of the token. -/
private theorem follow_token (h : Carried token) {path : String} {front name : Bytes}
    (hlink : utf8 path = front ++ 63 :: (name ++ [61])) (hfront : 63 ∉ front ∧ 35 ∉ front)
    (hname : ∀ b ∈ name, b ≠ 35 ∧ b ≠ 9 ∧ b ≠ 10 ∧ b ≠ 13)
    (hplain : ∀ b ∈ name, FormUrl.isQueryEncoded b = false) :
    follow (path ++ FormUrl.ascii token) =
      name ++ 61 :: FormUrl.queryEncode (token.rdropWhile FormUrl.isControlOrSpace) := by
  have hbytes : utf8 (path ++ FormUrl.ascii token) = front ++ 63 :: (name ++ 61 :: token) := by
    rw [utf8_append, hlink, h.utf8_ascii, List.append_assoc, List.cons_append, List.append_assoc,
      List.singleton_append]
  have hquery : ∀ b ∈ name ++ 61 :: token, b ≠ 35 ∧ b ≠ 9 ∧ b ≠ 10 ∧ b ≠ 13 := by
    intro b hb
    rcases List.mem_append.mp hb with hb | hb
    · exact hname b hb
    · rcases List.mem_cons.mp hb with rfl | hb
      · decide
      · obtain ⟨-, -, -, hhash, htab, hline, hreturn, -⟩ := byte_of_carried b (h b hb)
        exact ⟨hhash, htab, hline, hreturn⟩
  rw [follow, hbytes, FormUrl.linkQuery_pair hfront hquery, FormUrl.queryEncode_append,
    FormUrl.queryEncode_of_plain hplain]
  rfl

/-- A request of the welcome page with nothing but a token shows what is left of it. -/
private theorem welcomeGet_token (h : Carried token) {path : String} {front : Bytes}
    (hlink : utf8 path = front ++ 63 :: (utf8 "token" ++ [61])) (hfront : 63 ∉ front ∧ 35 ∉ front) :
    welcomeGet false (follow (path ++ FormUrl.ascii token)) =
      .welcome (FormUrl.ascii (afterLink token)) := by
  have hpairs := pairs_token h.stripped
  have hother : (utf8 "token" == utf8 "lang") = false := by decide
  have hlang : field "lang" (follow (path ++ FormUrl.ascii token)) = some none := by
    rw [follow_token h hlink hfront (List.all_iff_forall_prop.mp (by decide))
      (List.all_iff_forall_prop.mp (by decide)), field, hpairs]
    simp only [List.filter, hother]
  have htoken : field "token" (follow (path ++ FormUrl.ascii token)) =
      some (some (FormUrl.ascii (afterLink token))) := by
    rw [follow_token h hlink hfront (List.all_iff_forall_prop.mp (by decide))
      (List.all_iff_forall_prop.mp (by decide))]
    exact field_token h.stripped (by rw [hpairs, List.nil_append]) (by simp)
  rw [welcomeGet, hlang, htoken]
  rfl

private theorem adminGet_token (h : Carried token) :
    adminGet false (follow (adminHref (FormUrl.ascii token))) =
      .adminForm (FormUrl.ascii (afterLink token)) := by
  by_cases hempty : token = []
  · subst hempty
    decide +kernel
  · have hhref : adminHref (FormUrl.ascii token) = "/setup/admin?token=" ++ FormUrl.ascii token :=
      if_neg (by rw [isEmpty_ascii hempty]; exact Bool.false_ne_true)
    have hlink : utf8 "/setup/admin?token=" = utf8 "/setup/admin" ++ 63 :: (utf8 "token" ++ [61]) :=
      by decide
    have htoken : field "token" (follow ("/setup/admin?token=" ++ FormUrl.ascii token)) =
        some (some (FormUrl.ascii (afterLink token))) := by
      rw [follow_token h hlink (by decide) (List.all_iff_forall_prop.mp (by decide))
        (List.all_iff_forall_prop.mp (by decide))]
      exact field_token h.stripped (by rw [pairs_token h.stripped, List.nil_append]) (by simp)
    rw [hhref, adminGet, htoken]
    rfl

/-- A chosen language is answered with a redirect that carries the token on, if there is one. -/
private theorem welcomeGet_choice {query : Bytes} {raw carried : String}
    (hlang : field "lang" query = some (some raw)) (hparse : (Locale.parse (Text.trim raw)).isSome)
    (htoken : field "token" query = some (some carried)) :
    welcomeGet false query =
      .redirect (if carried.isEmpty then "/setup" else "/setup?token=" ++ carried) := by
  obtain ⟨locale, hlocale⟩ := Option.isSome_iff_exists.mp hparse
  have hbind : (some raw).bind (fun raw => Locale.parse (Text.trim raw)) = some locale := by
    rw [Option.bind_some, hlocale]
  rw [welcomeGet, hlang, htoken]
  simp only [hbind, Bool.false_eq_true, if_false]
  by_cases hempty : carried.isEmpty = true
  · rw [Option.filter_some, hempty]
    rfl
  · rw [Option.filter_some, Bool.eq_false_iff.mpr hempty]
    rfl

/-- A choice in the picker is two links. -/
private theorem changeLanguage_token (h : Carried token) (option : PickerOption) :
    changeLanguage (FormUrl.ascii token) option =
      some (FormUrl.ascii (afterLink (afterLink token))) := by
  by_cases hempty : token = []
  · subst hempty
    cases option <;> decide +kernel
  · have hhref : langHref option (FormUrl.ascii token) =
        "/setup?lang=" ++ option.tag ++ "&token=" ++ FormUrl.ascii token :=
      if_neg (by rw [isEmpty_ascii hempty]; exact Bool.false_ne_true)
    have hlink : utf8 ("/setup?lang=" ++ option.tag ++ "&token=") =
        utf8 "/setup" ++ 63 :: (utf8 ("lang=" ++ option.tag ++ "&token") ++ [61]) := by
      cases option <;> decide
    have hfollow := follow_token h hlink (by decide)
      (by cases option <;> exact List.all_iff_forall_prop.mp (by decide))
      (by cases option <;> exact List.all_iff_forall_prop.mp (by decide))
    have hpairs : FormUrl.pairs (follow (langHref option (FormUrl.ascii token))) =
        [(utf8 "lang", utf8 option.tag)] ++ [(utf8 "token", afterLink token)] := by
      have hsplit : utf8 ("lang=" ++ option.tag ++ "&token") =
          utf8 ("lang=" ++ option.tag) ++ 38 :: utf8 "token" := by
        cases option <;> decide
      have hfirst : FormUrl.pairs (utf8 ("lang=" ++ option.tag)) =
          [(utf8 "lang", utf8 option.tag)] := by
        cases option <;> decide
      rw [hhref, hfollow, hsplit, List.append_assoc, List.cons_append, FormUrl.pairs_append, hfirst,
        pairs_token h.stripped]
      rfl
    have hlang : field "lang" (follow (langHref option (FormUrl.ascii token))) =
        some (some option.tag) := by
      have hsame : (utf8 "lang" == utf8 "lang") = true := by decide
      have hother : (utf8 "token" == utf8 "lang") = false := by decide
      have htag : FormUrl.lossy (utf8 option.tag) = option.tag := by
        cases option <;> decide
      rw [field, hpairs]
      simp only [List.singleton_append, List.filter, hsame, hother, htag]
    have htoken : field "token" (follow (langHref option (FormUrl.ascii token))) =
        some (some (FormUrl.ascii (afterLink token))) := by
      apply field_token h.stripped hpairs
      intro pair hpair
      rw [List.mem_singleton.mp hpair]
      show (utf8 "lang" == utf8 "token") = false
      decide
    have hparse : (Locale.parse (Text.trim option.tag)).isSome := by
      cases option <;> decide
    rw [changeLanguage, welcomeGet_choice hlang hparse htoken]
    by_cases hleft : afterLink token = []
    · rw [hleft]
      decide +kernel
    · have hsetup : utf8 "/setup?token=" = utf8 "/setup" ++ 63 :: (utf8 "token" ++ [61]) := by
        decide
      have hwelcome := welcomeGet_token h.linked hsetup (by decide)
      rw [isEmpty_ascii hleft]
      simp only [Bool.false_eq_true, if_false, hwelcome]

/-- Any number of choices in the picker. -/
private theorem changes_token (changes : List PickerOption) (h : Carried token) :
    ∃ n, changes.foldlM changeLanguage (FormUrl.ascii token) =
      some (FormUrl.ascii (afterLink^[n] token)) := by
  induction changes generalizing token with
  | nil => exact ⟨0, rfl⟩
  | cons option changes ih =>
    obtain ⟨n, hn⟩ := ih h.linked.linked
    refine ⟨n + 2, ?_⟩
    rw [List.foldlM_cons, changeLanguage_token h option]
    exact hn

/-! ## The whole way -/

private theorem hidden_posted (token : Bytes) (h : Carried token) (typed : AdminFields) :
    (field "setup_token" (postBody (FormUrl.ascii token) typed)).join =
      some (FormUrl.ascii token) := by
  have hothers : (utf8 "username" == utf8 "setup_token") = false ∧
      (utf8 "email" == utf8 "setup_token") = false ∧
      (utf8 "display_name" == utf8 "setup_token") = false ∧
      (utf8 "password" == utf8 "setup_token") = false ∧
      (utf8 "confirm_password" == utf8 "setup_token") = false := by
    decide
  obtain ⟨husername, hemail, hdisplay, hpassword, hconfirm⟩ := hothers
  rw [field, postBody, FormUrl.pairs_serialize]
  simp only [List.filter, beq_self_eq_true, husername, hemail, hdisplay, hpassword, hconfirm,
    h.utf8_ascii, h.lossy]
  rfl

/-- A way ends with what its links have left of the token, and there is at least one link. -/
theorem submitted_eq (journey : Journey) (h : Carried token) :
    ∃ n, journey.submitted (FormUrl.ascii token) =
      some (FormUrl.ascii (afterLink^[n + 1] token)) := by
  obtain ⟨hquestion, hhash⟩ := journey.plainIssuer
  have hfront : 63 ∉ utf8 (trimEndSlashes journey.issuer ++ "/setup") ∧
      35 ∉ utf8 (trimEndSlashes journey.issuer ++ "/setup") := by
    have hsub : ∀ c ∈ (trimEndSlashes journey.issuer).toList, c ∈ journey.issuer.toList := by
      intro c hc
      rw [trimEndSlashes, String.toList_ofList] at hc
      exact (List.rdropWhile_prefix _ _).subset hc
    have hsetup : 63 ∉ utf8 "/setup" ∧ 35 ∉ utf8 "/setup" := by decide
    have hquestion' : 63 ∉ utf8 (trimEndSlashes journey.issuer) := fun hmem =>
      hquestion (hsub '?' ((mem_utf8 (by decide) rfl _).mp hmem))
    have hhash' : 35 ∉ utf8 (trimEndSlashes journey.issuer) := fun hmem =>
      hhash (hsub '#' ((mem_utf8 (by decide) rfl _).mp hmem))
    rw [utf8_append, List.mem_append, List.mem_append, not_or, not_or]
    exact ⟨⟨hquestion', hsetup.1⟩, hhash', hsetup.2⟩
  have hlink : utf8 (trimEndSlashes journey.issuer ++ "/setup?token=") =
      utf8 (trimEndSlashes journey.issuer ++ "/setup") ++ 63 :: (utf8 "token" ++ [61]) := by
    have hsetup : utf8 "/setup?token=" = utf8 "/setup" ++ 63 :: (utf8 "token" ++ [61]) := by
      decide
    rw [utf8_append, utf8_append, hsetup, List.append_assoc]
  obtain ⟨n, hchanges⟩ := changes_token journey.changes h.linked
  have hadmin := adminGet_token (h.linked.iterate n)
  have hposted := hidden_posted (afterLink (afterLink^[n] (afterLink token)))
    (h.linked.iterate n).linked journey.typed
  refine ⟨n + 1, ?_⟩
  rw [Journey.submitted, printedUrl, welcomeGet_token h hlink hfront]
  simp only [hchanges, hadmin, hposted]
  rw [Function.iterate_succ_apply', Function.iterate_succ_apply]

/-- The bytes that `generate_setup_token` writes. -/
private theorem generateSetupToken_eq (buf : Vector UInt8 24) :
    generateSetupToken buf = FormUrl.ascii (Lib.Base64.encode buf.toList) := by
  have hlength : (Lib.Base64.encode buf.toList).length = 32 := by
    rw [Lib.Base64.encode, List.length_append, List.length_map, Lib.Base64.length_sextets,
      List.length_replicate, Vector.length_toList]
    rfl
  rw [generateSetupToken, hlength, if_pos (by omega), ← hlength, List.take_length]

theorem carried_encode (bytes : Bytes) : Carried (Lib.Base64.encode bytes) := by
  intro b hb
  rcases Lib.Base64.mem_encode hb with halnum | hplus | hslash | hequals
  · exact Or.inl halnum
  · exact Or.inr (Or.inl hplus)
  · exact Or.inr (Or.inr (Or.inl hslash))
  · exact Or.inr (Or.inr (Or.inr (Or.inl hequals)))

/-- A `+` is lost at the first link. -/
theorem submitted_ne_of_plus {buf : Vector UInt8 24} (hplus : 62 ∈ Lib.Base64.sextets buf.toList)
    (journey : Journey) :
    journey.submitted (generateSetupToken buf) ≠ some (generateSetupToken buf) := by
  have hcarried := carried_encode buf.toList
  obtain ⟨n, hsubmitted⟩ := submitted_eq journey hcarried
  rw [generateSetupToken_eq, hsubmitted, ne_eq, Option.some_inj]
  intro hsame
  have hbytes : afterLink^[n + 1] (Lib.Base64.encode buf.toList) =
      Lib.Base64.encode buf.toList := by
    rw [← (hcarried.iterate (n + 1)).utf8_ascii, hsame, hcarried.utf8_ascii]
  rw [← Lib.Base64.plus_mem_encode_iff, ← hbytes, Function.iterate_succ_apply'] at hplus
  exact plus_notMem_afterLink (hcarried.iterate n) hplus

/-- The token arrives if and only if no group of six bits of the buffer is 62, the value that is
written as `+`. -/
theorem token_arrives_iff (buf : Vector UInt8 24) (journey : Journey) :
    journey.submitted (generateSetupToken buf) = some (generateSetupToken buf) ↔
      62 ∉ Lib.Base64.sextets buf.toList := by
  constructor
  · intro hsame hplus
    exact submitted_ne_of_plus hplus journey hsame
  · intro hplus
    have hcarried := carried_encode buf.toList
    obtain ⟨n, hsubmitted⟩ := submitted_eq journey hcarried
    rw [← Lib.Base64.plus_mem_encode_iff] at hplus
    have hspace : 32 ∉ Lib.Base64.encode buf.toList := by
      intro hmem
      rcases Lib.Base64.mem_encode hmem with halnum | hother
      · cases halnum
      · revert hother
        decide
    rw [generateSetupToken_eq, hsubmitted,
      Function.iterate_fixed (afterLink_of_plain hcarried hplus hspace)]

/-- A buffer of which a group is 62, on a way without a language change. -/
theorem token_with_plus_is_lost :
    let buf : Vector UInt8 24 := Vector.replicate 24 0xFB
    let journey : Journey := ⟨"https://idp.example.com", by decide, [], ⟨"root", "", "", "p", "p"⟩⟩
    journey.submitted (generateSetupToken buf) ≠ some (generateSetupToken buf) :=
  submitted_ne_of_plus (by decide) _

end SuiId.SetupToken
