import SuiId.Core.DynamicRegistration

/-!
# Registration tokens are counted exactly

A client is created in the transaction that adds one to the use count of its token, and the two are
rolled back together.  So the use count of a token is the number of clients that were created
through it, it stays within the cap, and a token that is revoked or expired creates no client.
-/

namespace SuiId.DynamicRegistration

open Lib Lib.Machine

/-- A step that creates a client through a token. -/
def registersWith (P : Primitives) (tokenHash : String) (x : Taken World Event Answer) : Bool :=
  match x.event, x.out with
  | .register request, .response (.created _) => request.tokenHash P == some tokenHash
  | _, _ => false

/-- How many clients the steps have created through a token. -/
def registered (P : Primitives) (past : List (Taken World Event Answer)) (tokenHash : String) :
    Nat := past.countP (registersWith P tokenHash)

/-- What holds of a run on the registration tokens. -/
structure RegistrationCap (P : Primitives) (db : Database) (events : List Event) : Prop where
  counted : ∀ token ∈ (run (step P) (.new db) events).tokens,
    token.usedCount = registered P (trace (step P) (.new db) events) token.tokenHash
  capped : ∀ token ∈ (run (step P) (.new db) events).tokens, 0 < token.maxUses →
    registered P (trace (step P) (.new db) events) token.tokenHash ≤ token.maxUses
  /-- A client that is created: through a token that is neither revoked nor expired, and one. -/
  valid : ∀ x ∈ trace (step P) (.new db) events, ∀ tokenHash request row,
    registersWith P tokenHash x = true → x.event = .register request →
      x.out = .response (.created row) →
      (∃ token ∈ x.pre.tokens, token.tokenHash = tokenHash ∧ token.revokedAt = none ∧
        ∀ t, token.expiresAt = some t → request.now ≤ t) ∧
      x.pre.db.clients.insert? row = some (step P x.pre x.event).1.db.clients
  revoked : ∀ past x rest now, trace (step P) (.new db) events = past ++ x :: rest →
    ∀ token ∈ x.pre.tokens, x.event = .revoke token.id now → x.out = .done (.ok ()) →
      ∀ y ∈ rest, registersWith P token.tokenHash y = false
  refused : ∀ x ∈ trace (step P) (.new db) events, ∀ request, x.event = .register request →
    (∀ row, x.out ≠ .response (.created row)) →
      (step P x.pre x.event).1.db.clients = x.pre.db.clients ∧
      (step P x.pre x.event).1.tokens = x.pre.tokens

/-! ## The invariant -/

/-- The tokens against the steps so far. -/
structure Counted (P : Primitives) (past : List (Taken World Event Answer)) (w : World) : Prop where
  hashes : ∀ r ∈ w.tokens, ∀ r' ∈ w.tokens, r.tokenHash = r'.tokenHash → r = r'
  uses : ∀ r ∈ w.tokens, r.usedCount = registered P past r.tokenHash
  cap : ∀ r ∈ w.tokens, 0 < r.maxUses → r.usedCount ≤ r.maxUses
  issued : ∀ tokenHash, registered P past tokenHash ≠ 0 →
    ∃ r ∈ w.tokens, r.tokenHash = tokenHash

section Steps

variable {P : Primitives} {past : List (Taken World Event Answer)} {w : World}

theorem registered_append (x : Taken World Event Answer) (tokenHash : String) :
    registered P (past ++ [x]) tokenHash =
      registered P past tokenHash + if registersWith P tokenHash x = true then 1 else 0 := by
  rw [registered, List.countP_append, List.countP_singleton]
  rfl

variable {x : Taken World Event Answer} {tokenHash : String}

/-- A step that creates no client counts for no token. -/
theorem Counted.quiet (hw : Counted P past w)
    (hx : ∀ tokenHash, registersWith P tokenHash x = false) : Counted P (past ++ [x]) w := by
  have hsame : ∀ tokenHash, registered P (past ++ [x]) tokenHash = registered P past tokenHash := by
    intro tokenHash
    rw [registered_append, hx tokenHash, if_neg Bool.false_ne_true, Nat.add_zero]
  refine ⟨hw.hashes, fun r hr => ?_, hw.cap, fun tokenHash h => ?_⟩
  · rw [hsame]
    exact hw.uses r hr
  · rw [hsame] at h
    exact hw.issued tokenHash h

/-- Another database with the same tokens. -/
theorem Counted.of_tokens (hw : Counted P past w) {w' : World} (h : w'.tokens = w.tokens) :
    Counted P past w' := by
  obtain ⟨db, tokens⟩ := w'
  obtain rfl : tokens = w.tokens := h
  exact ⟨hw.hashes, hw.uses, hw.cap, hw.issued⟩

variable {db : Database} {tokens : RegistrationTokens}
  {f : RegistrationTokenRow → RegistrationTokenRow} {token : RegistrationTokenRow}

/-- A token with a hash that is not taken, and so was never presented with success. -/
theorem Counted.issue (hw : Counted P past w) {row : RegistrationTokenRow}
    (hfree : ∀ r ∈ w.tokens, r.tokenHash ≠ row.tokenHash)
    (hinsert : w.tokens.insert? row = some tokens) (huses : row.usedCount = 0) :
    Counted P past ⟨db, tokens⟩ := by
  have hmem : ∀ {r}, r ∈ tokens ↔ r ∈ w.tokens ∨ r = row := Table.mem_of_insert? hinsert
  have hzero : registered P past row.tokenHash = 0 := by
    by_contra h
    obtain ⟨r, hr, hhash⟩ := hw.issued row.tokenHash h
    exact hfree r hr hhash
  refine ⟨fun r hr r' hr' hhash => ?_, fun r hr => ?_, fun r hr hmax => ?_, fun tokenHash h => ?_⟩
  · rcases hmem.mp hr with hr | rfl <;> rcases hmem.mp hr' with hr' | rfl
    · exact hw.hashes r hr r' hr' hhash
    · exact absurd hhash (hfree r hr)
    · exact absurd hhash.symm (hfree r' hr')
    · rfl
  · rcases hmem.mp hr with hr | rfl
    · exact hw.uses r hr
    · rw [huses, hzero]
      rfl
  · rcases hmem.mp hr with hr | rfl
    · exact hw.cap r hr hmax
    · omega
  · obtain ⟨r, hr, hhash⟩ := hw.issued tokenHash h
    exact ⟨r, hmem.mpr (.inl hr), hhash⟩

theorem mem_updated {id : Nat} (hkey) {r : RegistrationTokenRow} :
    r ∈ tokens.update (fun r => r.id == id) f hkey ↔
      ∃ r₀ ∈ tokens, (r₀.id = id ∧ r = f r₀) ∨ (r₀.id ≠ id ∧ r = r₀) := by
  rw [Table.mem_update]
  constructor
  · rintro ⟨r₀, hr₀, rfl⟩
    by_cases hid : r₀.id = id
    · exact ⟨r₀, hr₀, .inl ⟨hid, by simp [hid]⟩⟩
    · exact ⟨r₀, hr₀, .inr ⟨hid, by simp [hid]⟩⟩
  · rintro ⟨r₀, hr₀, ⟨hid, rfl⟩ | ⟨hid, rfl⟩⟩
    · exact ⟨r₀, hr₀, by simp [hid]⟩
    · exact ⟨r, hr₀, by simp [hid]⟩

/-- An update of one token that keeps its identifier and its hash. -/
theorem Counted.update (hw : Counted P past w) {past' : List (Taken World Event Answer)} {hkey}
    (htoken : token ∈ w.tokens) (hhash : ∀ r, (f r).tokenHash = r.tokenHash)
    (huses : (f token).usedCount = registered P past' token.tokenHash)
    (hcap : 0 < (f token).maxUses → (f token).usedCount ≤ (f token).maxUses)
    (hothers : ∀ tokenHash, tokenHash ≠ token.tokenHash →
      registered P past' tokenHash = registered P past tokenHash) :
    Counted P past' ⟨db, w.tokens.update (fun r => r.id == token.id) f hkey⟩ := by
  have honly : ∀ {r}, r ∈ w.tokens → r.id = token.id → r = token :=
    fun hr hid => Table.eq_of_key_eq hr htoken hid
  have hother : ∀ {r}, r ∈ w.tokens → r.id ≠ token.id → r.tokenHash ≠ token.tokenHash :=
    fun hr hid hsame => hid (congrArg _ (hw.hashes _ hr _ htoken hsame))
  have hfrom : ∀ {r}, r ∈ w.tokens.update (fun r => r.id == token.id) f hkey →
      r = f token ∨ (r ∈ w.tokens ∧ r.tokenHash ≠ token.tokenHash) := by
    intro r hr
    obtain ⟨r₀, hr₀, ⟨hid, rfl⟩ | ⟨hid, rfl⟩⟩ := (mem_updated hkey).mp hr
    · exact .inl (congrArg f (honly hr₀ hid))
    · exact .inr ⟨hr₀, hother hr₀ hid⟩
  refine ⟨fun r hr r' hr' hsame => ?_, fun r hr => ?_, fun r hr hmax => ?_, fun tokenHash h => ?_⟩
  · rcases hfrom hr with rfl | ⟨hr, hne⟩ <;> rcases hfrom hr' with rfl | ⟨hr', hne'⟩
    · rfl
    · exact absurd (hsame.symm.trans (hhash token)) hne'
    · exact absurd (hsame.trans (hhash token)) hne
    · exact hw.hashes r hr r' hr' hsame
  · rcases hfrom hr with rfl | ⟨hr, hne⟩
    · rw [hhash]
      exact huses
    · rw [hothers _ hne]
      exact hw.uses r hr
  · rcases hfrom hr with rfl | ⟨hr, -⟩
    · exact hcap hmax
    · exact hw.cap r hr hmax
  · by_cases hsame : tokenHash = token.tokenHash
    · have hmem : f token ∈ w.tokens.update (fun r => r.id == token.id) f hkey :=
        (mem_updated hkey).mpr ⟨token, htoken, .inl ⟨rfl, rfl⟩⟩
      exact ⟨f token, hmem, (hhash token).trans hsame.symm⟩
    · rw [hothers _ hsame] at h
      obtain ⟨r, hr, hrhash⟩ := hw.issued tokenHash h
      have hid : r.id ≠ token.id :=
        fun hid => hsame (hrhash.symm.trans (congrArg _ (honly hr hid)))
      have hmem : r ∈ w.tokens.update (fun r => r.id == token.id) f hkey :=
        (mem_updated hkey).mpr ⟨r, hr, .inr ⟨hid, rfl⟩⟩
      exact ⟨r, hmem, hrhash⟩

theorem counted_step (e : Event) (hw : Counted P past w) :
    Counted P (past ++ [⟨w, e, (step P w e).2⟩]) (step P w e).1 := by
  have heffect := step_effect P w e
  generalize (step P w e).1 = w' at heffect ⊢
  generalize (step P w e).2 = answer at heffect ⊢
  cases heffect with
  | failed =>
    refine hw.quiet fun tokenHash => ?_
    cases e <;> rfl
  | refused => exact hw.quiet fun _ => rfl
  | issued hcommit =>
    obtain ⟨hfree, hinsert, -⟩ := issueRegistrationToken_ok hcommit
    exact (hw.issue hfree hinsert rfl).quiet fun _ => rfl
  | revoked hcommit =>
    obtain ⟨⟨token, htoken, -, rfl⟩, -⟩ := revokeRegistrationToken_ok hcommit
    refine Counted.quiet ?_ fun _ => rfl
    exact hw.update htoken (fun _ => rfl) (hw.uses token htoken) (hw.cap token htoken)
      fun _ _ => rfl
  | @registered request tokenHash row tokens db hhash hcommit =>
    obtain ⟨token, htoken, rfl, husable, rfl⟩ := registerClientDynamically_consumes hcommit
    have hregisters : ∀ tokenHash', registersWith P tokenHash'
        ⟨w, .register request, .response (.created row)⟩ =
          (token.tokenHash == tokenHash') := by
      intro tokenHash'
      simp [registersWith, hhash]
    refine hw.update htoken (fun _ => rfl) ?_ (fun hmax => ?_) fun tokenHash' hne => ?_
    · have hcount : registered P (past ++ [⟨w, .register request, .response (.created row)⟩])
          token.tokenHash = registered P past token.tokenHash + 1 := by
        rw [registered_append, hregisters, beq_self_eq_true, if_pos rfl]
      rw [hcount, Nat.cast_succ, ← hw.uses token htoken]
    · obtain ⟨-, -, hcap⟩ := (RegistrationTokens.usable_iff _ _).mp husable
      dsimp only at hmax ⊢
      omega
    · rw [registered_append, hregisters, beq_eq_false_iff_ne.mpr (Ne.symm hne),
        if_neg Bool.false_ne_true, Nat.add_zero]
  | elsewhere =>
    refine Counted.quiet ?_ fun _ => rfl
    exact hw.of_tokens rfl

/-- What a registration that succeeds did. -/
theorem registers_effect (hout : x.out = (step P x.pre x.event).2)
    (h : registersWith P tokenHash x = true) :
    ∃ request row db tokens, x.event = .register request ∧ x.out = .response (.created row) ∧
      registerClientDynamically x.pre.db x.pre.tokens tokenHash row request.now =
        .ok (tokens, db) ∧
      (step P x.pre x.event).1 = ⟨db, tokens⟩ := by
  obtain ⟨pre, e, answer⟩ := x
  have heffect := step_effect P pre e
  dsimp only at hout ⊢
  rw [← hout] at heffect
  generalize (step P pre e).1 = w' at heffect ⊢
  cases heffect with
  | @registered request hash row tokens db hhash hcommit =>
    simp only [registersWith, hhash, beq_iff_eq, Option.some.injEq] at h
    exact ⟨request, row, db, tokens, rfl, rfl, h ▸ hcommit, rfl⟩
  | failed => cases e <;> cases h
  | refused | issued | revoked | elsewhere => cases h

/-- The token with this hash has been revoked. -/
def Revoked (tokenHash : String) (w : World) : Prop :=
  ∃ r ∈ w.tokens, r.tokenHash = tokenHash ∧ r.revokedAt ≠ none

/-- No command gives a revoked token back. -/
theorem revoked_step (e : Event) (h : Revoked tokenHash w) :
    Revoked tokenHash (step P w e).1 := by
  have heffect := step_effect P w e
  generalize (step P w e).1 = w' at heffect ⊢
  generalize (step P w e).2 = answer at heffect
  obtain ⟨r, hr, hhash, hrevoked⟩ := h
  have hupdate : ∀ (id : Nat) (f : RegistrationTokenRow → RegistrationTokenRow) (hkey),
      (f r).tokenHash = r.tokenHash → (f r).revokedAt ≠ none →
      ∃ r' ∈ w.tokens.update (fun r => r.id == id) f hkey,
        r'.tokenHash = tokenHash ∧ r'.revokedAt ≠ none := by
    intro id f hkey hfhash hfrevoked
    by_cases hid : r.id = id
    · exact ⟨f r, (mem_updated hkey).mpr ⟨r, hr, .inl ⟨hid, rfl⟩⟩, hfhash.trans hhash, hfrevoked⟩
    · exact ⟨r, (mem_updated hkey).mpr ⟨r, hr, .inr ⟨hid, rfl⟩⟩, hhash, hrevoked⟩
  cases heffect with
  | failed | refused | elsewhere => exact ⟨r, hr, hhash, hrevoked⟩
  | issued hcommit =>
    obtain ⟨-, hinsert, -⟩ := issueRegistrationToken_ok hcommit
    exact ⟨r, (Table.mem_of_insert? hinsert).mpr (.inl hr), hhash, hrevoked⟩
  | @revoked _ now _ _ hcommit =>
    obtain ⟨⟨token, -, -, rfl⟩, -⟩ := revokeRegistrationToken_ok hcommit
    exact hupdate token.id (fun r => { r with revokedAt := some now }) (fun _ => rfl) rfl (by simp)
  | registered hcreated hcommit =>
    obtain ⟨token, -, -, -, rfl⟩ := registerClientDynamically_consumes hcommit
    exact hupdate token.id (fun r => { r with usedCount := r.usedCount + 1 }) (fun _ => rfl) rfl
      hrevoked

/-- A revoked token creates no client. -/
theorem not_registers_of_revoked (hx : Counted P past x.pre)
    (hout : x.out = (step P x.pre x.event).2) (h : Revoked tokenHash x.pre) :
    registersWith P tokenHash x = false := by
  rw [Bool.eq_false_iff]
  intro hregisters
  obtain ⟨request, row, db, tokens, -, -, hcommit, -⟩ := registers_effect hout hregisters
  obtain ⟨token, htoken, hhash, husable, -⟩ := registerClientDynamically_consumes hcommit
  obtain ⟨r, hr, hrhash, hrevoked⟩ := h
  obtain rfl := hx.hashes r hr token htoken (hrhash.trans hhash.symm)
  exact hrevoked ((RegistrationTokens.usable_iff _ _).mp husable).1

/-- The commit of a revocation leaves the token revoked. -/
theorem revoked_of_commit {now : DateTime} (htoken : token ∈ x.pre.tokens)
    (hout : x.out = (step P x.pre x.event).2) (hevent : x.event = .revoke token.id now)
    (hok : x.out = .done (.ok ())) :
    Revoked token.tokenHash (step P x.pre x.event).1 := by
  obtain ⟨pre, e, answer⟩ := x
  dsimp only at htoken hout hevent hok ⊢
  subst hevent hok
  have heffect := step_effect P pre (.revoke token.id now)
  rw [← hout] at heffect
  generalize (step P pre (.revoke token.id now)).1 = w' at heffect ⊢
  cases heffect with
  | revoked hcommit =>
    obtain ⟨⟨target, -, hid, rfl⟩, -⟩ := revokeRegistrationToken_ok hcommit
    refine ⟨{ token with revokedAt := some now }, ?_, rfl, by simp⟩
    exact (mem_updated (f := fun r => { r with revokedAt := some now }) fun _ => rfl).mpr
      ⟨token, htoken, .inl ⟨hid.symm, rfl⟩⟩

/-- A registration that is refused or fails. -/
theorem register_quiet {request : Request}
    (h : ∀ row, (step P w (.register request)).2 ≠ .response (.created row)) :
    (step P w (.register request)).1 = w := by
  have heffect := step_effect P w (.register request)
  generalize (step P w (.register request)).1 = w' at heffect ⊢
  generalize (step P w (.register request)).2 = answer at heffect h
  cases heffect with
  | failed | refused => rfl
  | registered => exact absurd rfl (h _)

end Steps

theorem counted_new (P : Primitives) (db : Database) : Counted P [] (.new db) := by
  refine ⟨fun r hr => ?_, fun r hr => ?_, fun r hr => ?_, fun tokenHash h => absurd rfl h⟩
  all_goals cases hr

/-- Registration tokens are counted exactly, in every run. -/
theorem registration_cap (P : Primitives) (db : Database) (events : List Event) :
    RegistrationCap P db events := by
  have hg : Guarded (step P) (fun _ _ => True) (.new db) events := guarded_true _ _
  have hstep : ∀ past w e, Counted P past w → True →
      Counted P (past ++ [⟨w, e, (step P w e).2⟩]) (step P w e).1 :=
    fun past w e hw _ => counted_step e hw
  have hrun : Counted P (trace (step P) (.new db) events) (run (step P) (.new db) events) :=
    run_trace_history hstep hg (counted_new P db)
  have hhistory : ∀ {past x rest}, trace (step P) (.new db) events = past ++ x :: rest →
      Counted P past x.pre ∧ x.out = (step P x.pre x.event).2 := fun hsplit =>
    have h := trace_history hstep hg (counted_new P db) hsplit
    ⟨h.1, h.2.2⟩
  constructor
  · exact hrun.uses
  · intro token htoken hmax
    exact hrun.uses token htoken ▸ hrun.cap token htoken hmax
  · intro x hx tokenHash request row hregisters hevent hcreated
    obtain ⟨past, rest, hsplit⟩ := List.append_of_mem hx
    obtain ⟨request', row', db', tokens, hevent', hcreated', hcommit, hpost⟩ :=
      registers_effect (hhistory hsplit).2 hregisters
    obtain rfl : request' = request := Event.register.inj (hevent'.symm.trans hevent)
    obtain rfl : row' = row := by
      have hsame := hcreated'.symm.trans hcreated
      simpa using hsame
    obtain ⟨token, htoken, hhash, husable, -⟩ := registerClientDynamically_consumes hcommit
    obtain ⟨clients, log, hinsert, rfl⟩ := registerClientDynamically_ok hcommit
    obtain ⟨hunrevoked, hunexpired, -⟩ := (RegistrationTokens.usable_iff _ _).mp husable
    exact ⟨⟨token, htoken, hhash, hunrevoked, hunexpired⟩, hpost ▸ hinsert⟩
  · intro past x rest now hsplit token htoken hevent hok y hy
    have hD : Revoked token.tokenHash (step P x.pre x.event).1 :=
      revoked_of_commit htoken (hhistory hsplit).2 hevent hok
    obtain ⟨⟨-, hrevoked⟩, -, hyout⟩ := trace_after (I := fun _ => True)
      (fun _ _ _ _ => trivial) (fun _ e _ _ h => revoked_step e h) hg trivial hsplit hD hy
    obtain ⟨past', rest', hsplit'⟩ := List.append_of_mem
      (hsplit ▸ List.mem_append_right _ (List.mem_cons_of_mem _ hy))
    exact not_registers_of_revoked (hhistory hsplit').1 hyout hrevoked
  · intro x hx request hevent hrefused
    obtain ⟨past, rest, hsplit⟩ := List.append_of_mem hx
    have hsame : (step P x.pre x.event).1 = x.pre := by
      rw [hevent]
      refine register_quiet fun row hcreated => hrefused row ?_
      rw [(hhistory hsplit).2, hevent]
      exact hcreated
    rw [hsame]
    exact ⟨rfl, rfl⟩

end SuiId.DynamicRegistration
