import SuiId.Core.Settings

/-!
# A pending change is confirmed once, as it was created

`apply` reads the pending row twice: once to decrypt the payload, and once more in the transaction
that deletes it.  Both reads see the row that the creation wrote, because nothing updates a pending
row and no identifier is used twice.  So the settings that the confirmation writes are those of the
payload, and the binding that it checks is that of the creation.

A change that is confirmed, cancelled or purged does not come back.  Every other answer of `apply`
leaves the settings and the pending changes as they are.
-/

namespace SuiId.Settings

open Lib Lib.Machine Lib.Result

/-- The settings of a payload, trimmed. -/
structure OfPayload (ctx : Context) (config : SmtpConfigRow)
    (payload : SmtpPasswordChangePayload) : Prop where
  enabled : config.enabled = payload.enabled
  host : config.host = Text.trim payload.host
  port : config.port = payload.port
  tls : parseTlsMode payload.tlsMode = some config.startTls
  username : config.username = payload.username
  password : ∃ passwordEnc, config.passwordEnc = some passwordEnc ∧
    openBytes ctx.P ctx.key passwordEnc SmtpConfig.passwordAad = .ok (utf8 payload.password)
  fromAddress : config.fromAddress = Text.trim payload.fromAddress
  fromName : config.fromName = payload.fromName
  baseUrl : config.baseUrl = trimBaseUrl payload.baseUrl

/-- A call of `apply` that returns `Ok` with this step. -/
def Confirms (x : Taken World Event Answer) (application : Application) : Prop :=
  ∃ call config, x.event = .commit call ∧ x.pre.calls call = some (.prepared application config) ∧
    x.out = .returned (.ok ())

/-- A step that creates a pending change. -/
def Creates (x : Taken World Event Answer) (id : Nat) (creation : Creation) : Prop :=
  ∃ nonce, x.event.creation = some (creation, id, nonce) ∧ x.out = .returned (.ok ())

/-- The steps that take a pending change away: its confirmation, a cancel, and a purge that finds
it expired. -/
def TakesAway (x : Taken World Event Answer) (id : Nat) : Prop :=
  (∃ application, Confirms x application ∧ application.id = id) ∨
    (∃ c ∈ x.pre.created, c.row.id = id ∧
      ((∃ actor, x.event = .cancel actor id ∧ x.out = .returned (.ok ())) ∨
        ∃ now, x.event = .purgeExpired now ∧ c.row.expiresAt ≤ now))

/-- The steps of `apply`. -/
def Event.isApply : Event → Bool
  | .apply .. | .prepare .. | .commit .. => true
  | _ => false

/-- What holds of a run on the pending changes. -/
structure PendingChanges (ctx : Context) (db : Database) (events : List Event) : Prop where
  applied : ∀ past x rest application, trace (step ctx) (.new db) events = past ++ x :: rest →
    Confirms x application → ∃ z ∈ past, ∃ creation, Creates z application.id creation ∧
      application.actor = creation.actor ∧ application.sessionId = creation.sessionId ∧
      application.csrfToken = creation.csrfToken ∧
      application.now < creation.now + seconds pendingChangeTtlSecs ∧
      ∃ config, (step ctx x.pre x.event).1.db.smtpConfig = some config ∧
        OfPayload ctx config creation.payload
  once : ∀ past x rest id, trace (step ctx) (.new db) events = past ++ x :: rest →
    TakesAway x id → ∀ y ∈ rest, ∀ application, Confirms y application → application.id ≠ id
  refused : ∀ x ∈ trace (step ctx) (.new db) events, x.event.isApply = true →
    x.out ≠ .returned (.ok ()) →
      (step ctx x.pre x.event).1.db.smtpConfig = x.pre.db.smtpConfig ∧
      (step ctx x.pre x.event).1.db.pendingSettingsChange = x.pre.db.pendingSettingsChange

/-- The JSON of a payload is read back as it was written. -/
def JsonRoundTrips (ctx : Context) (e : Event) : Prop :=
  ∀ creation id nonce, e.creation = some (creation, id, nonce) →
    ctx.decode (ctx.encode creation.payload) = some creation.payload

/-! ## The invariant -/

/-- The rows and the calls that are about pending changes, against what has been created. -/
structure Recorded (ctx : Context) (past : List (Taken World Event Answer)) (w : World) : Prop where
  ids : (w.created.map (·.row.id)).Nodup
  origin : ∀ c ∈ w.created, (∃ z ∈ past, Creates z c.row.id c.creation) ∧
    ctx.decode (ctx.encode c.creation.payload) = some c.creation.payload ∧
      ∃ nonce, c.creation.row ctx c.row.id nonce = .ok c.row
  pending : ∀ row ∈ w.db.pendingSettingsChange, ∃ c ∈ w.created, c.row = row
  peeked : ∀ call application row, w.calls call = some (.peeked application row) →
    ∃ c ∈ w.created, c.row = row ∧ row.id = application.id
  prepared : ∀ call application config, w.calls call = some (.prepared application config) →
    ∃ c ∈ w.created, c.row.id = application.id ∧ OfPayload ctx config c.creation.payload

section Steps

variable {ctx : Context} {past : List (Taken World Event Answer)} {w : World} {e : Event}
variable {id : Nat} {nonce : Nonce} {row : PendingSettingsChangeRow} {c : Created}
  {application : Application} {x : Taken World Event Answer}

theorem Creation.row_eq_ok {creation : Creation} (h : creation.row ctx id nonce = .ok row) :
    row.id = id ∧ row.sessionId = creation.sessionId ∧ row.actorId = creation.actor ∧
      row.csrfToken = creation.csrfToken ∧
      row.expiresAt = creation.now + seconds pendingChangeTtlSecs ∧
      sealBytes ctx.P ctx.key nonce (ctx.encode creation.payload) PendingSettingsChange.aad =
        .ok row.payloadEnc := by
  simp only [Creation.row, bind_eq_ok, mapError_eq_ok, pure_eq_ok] at h
  obtain ⟨payloadEnc, hseal, rfl⟩ := h
  exact ⟨rfl, rfl, rfl, rfl, rfl, hseal⟩

/-- Creations with one identifier are one creation. -/
theorem Recorded.unique (hw : Recorded ctx past w) {c' : Created} (hc : c ∈ w.created)
    (hc' : c' ∈ w.created) (hid : c.row.id = c'.row.id) : c = c' :=
  List.inj_on_of_nodup_map hw.ids hc hc' hid

/-- What `apply` seals and writes is what was created. -/
theorem prepare_ofPayload (hP : ctx.P.Lawful) {nonce' : Nonce} {existing : Option SmtpConfigRow}
    {config : SmtpConfigRow}
    (hjson : ctx.decode (ctx.encode c.creation.payload) = some c.creation.payload)
    (hrow : c.creation.row ctx c.row.id nonce = .ok c.row)
    (h : application.prepare ctx c.row existing nonce' = .ok config) :
    OfPayload ctx config c.creation.payload := by
  have hopen := hP.open_seal (Creation.row_eq_ok hrow).2.2.2.2.2
  simp only [Application.prepare, SmtpConfig.sealPassword, bind_eq_ok, mapError_eq_ok,
    require_eq_ok, pure_eq_ok] at h
  obtain ⟨plaintext, hplain, payload, hdecode, startTls, htls, passwordEnc, hseal, rfl⟩ := h
  obtain rfl : plaintext = ctx.encode c.creation.payload := by
    rw [hopen] at hplain
    exact (Except.ok.inj hplain).symm
  obtain rfl : payload = c.creation.payload := by
    rw [hjson] at hdecode
    exact (Option.some.inj hdecode).symm
  exact ⟨rfl, rfl, rfl, htls, rfl, ⟨passwordEnc, rfl, hP.open_seal hseal⟩, rfl, rfl, rfl⟩

/-- Another database, in which no change is pending that was not before. -/
theorem Recorded.of_db (hw : Recorded ctx past w) {w' : World} (hcreated : w'.created = w.created)
    (hcalls : w'.calls = w.calls)
    (hpending : ∀ row ∈ w'.db.pendingSettingsChange, row ∈ w.db.pendingSettingsChange) :
    Recorded ctx past w' := by
  refine ⟨?_, ?_, fun row hrow => ?_, ?_, ?_⟩
  · exact hcreated ▸ hw.ids
  · exact hcreated ▸ hw.origin
  · exact hcreated ▸ hw.pending row (hpending row hrow)
  · exact hcreated ▸ hcalls ▸ hw.peeked
  · exact hcreated ▸ hcalls ▸ hw.prepared

/-- Another call, which has read or prepared what was created. -/
theorem Recorded.setCall (hw : Recorded ctx past w) {call : CallId} {c : Call}
    (hpeeked : ∀ application row, c = .peeked application row →
      ∃ c' ∈ w.created, c'.row = row ∧ row.id = application.id)
    (hprepared : ∀ application config, c = .prepared application config →
      ∃ c' ∈ w.created, c'.row.id = application.id ∧ OfPayload ctx config c'.creation.payload) :
    Recorded ctx past (w.setCall call c) := by
  refine ⟨hw.ids, hw.origin, hw.pending, fun call' application row h => ?_,
    fun call' application config h => ?_⟩
  · rcases World.setCall_eq_some.mp h with ⟨-, h⟩ | ⟨-, h⟩
    · exact hpeeked application row h
    · exact hw.peeked call' application row h
  · rcases World.setCall_eq_some.mp h with ⟨-, h⟩ | ⟨-, h⟩
    · exact hprepared application config h
    · exact hw.prepared call' application config h

theorem Recorded.ended (hw : Recorded ctx past w) (call : CallId) :
    Recorded ctx past (w.setCall call .ended) :=
  hw.setCall (fun _ _ h => by cases h) (fun _ _ h => by cases h)

theorem Recorded.snoc (hw : Recorded ctx past w) (x : Taken World Event Answer) :
    Recorded ctx (past ++ [x]) w := by
  refine ⟨hw.ids, fun c hc => ?_, hw.pending, hw.peeked, hw.prepared⟩
  obtain ⟨⟨z, hz, hcreates⟩, hrest⟩ := hw.origin c hc
  exact ⟨⟨z, List.mem_append_left _ hz, hcreates⟩, hrest⟩

/-- A creation with a fresh identifier. -/
theorem Recorded.create (hw : Recorded ctx past w) (hjson : JsonRoundTrips ctx e)
    {creation : Creation} {db : Database} (he : e.creation = some (creation, id, nonce))
    (hfresh : ∀ c ∈ w.created, c.row.id ≠ id) (hrow : creation.row ctx id nonce = .ok row)
    (hcommit : createPendingSettingsChange w.db creation.actor row = .ok ((), db)) :
    Recorded ctx (past ++ [⟨w, e, .returned (.ok ())⟩])
      { w with db, created := ⟨row, creation⟩ :: w.created } := by
  obtain ⟨pending, log, hinsert, rfl⟩ := createPendingSettingsChange_ok hcommit
  obtain rfl : row.id = id := (Creation.row_eq_ok hrow).1
  have hold : ∀ {p : Created → Prop}, (∃ c ∈ w.created, p c) →
      ∃ c ∈ (⟨row, creation⟩ :: w.created : List Created), p c :=
    fun ⟨c, hc, hp⟩ => ⟨c, List.mem_cons_of_mem _ hc, hp⟩
  refine ⟨?_, fun c hc => ?_, fun r hr => ?_, fun call application r h => ?_,
    fun call application config h => ?_⟩
  · rw [List.map_cons, List.nodup_cons]
    refine ⟨fun hmem => ?_, hw.ids⟩
    obtain ⟨c, hc, hid⟩ := List.mem_map.mp hmem
    exact hfresh c hc hid
  · rcases List.mem_cons.mp hc with rfl | hc
    · exact ⟨⟨_, List.mem_append_right _ (List.mem_singleton_self _), nonce, he, rfl⟩,
        hjson creation row.id nonce he, nonce, hrow⟩
    · exact (hw.snoc _).origin c hc
  · rcases (Table.mem_of_insert? hinsert).mp hr with hr | rfl
    · exact hold (hw.pending r hr)
    · exact ⟨_, List.mem_cons_self, rfl⟩
  · exact hold (hw.peeked call application r h)
  · exact hold (hw.prepared call application config h)

theorem recorded_step (hP : ctx.P.Lawful) (hjson : JsonRoundTrips ctx e)
    (hw : Recorded ctx past w) :
    Recorded ctx (past ++ [⟨w, e, (step ctx w e).2⟩]) (step ctx w e).1 := by
  have heffect := step_effect ctx w e
  generalize (step ctx w e).1 = w' at heffect ⊢
  generalize (step ctx w e).2 = answer at heffect ⊢
  cases heffect with
  | ignored => exact hw.snoc _
  | failed => exact hw.snoc _
  | ended => exact (hw.ended _).snoc _
  | copied => exact (hw.setCall (fun _ _ h => by cases h) (fun _ _ h => by cases h)).snoc _
  | saved hcall hcommit =>
    obtain ⟨log, rfl⟩ := changeSmtpConfig_ok hcommit
    refine Recorded.snoc ?_ _
    exact (hw.ended _).of_db rfl rfl fun _ h => h
  | created he hw₀ hfresh hrow hcommit =>
    obtain rfl | ⟨call, rfl⟩ := hw₀
    · exact hw.create hjson he hfresh hrow hcommit
    · exact (hw.create hjson he hfresh hrow hcommit).ended call
  | peeked hpeek =>
    -- The row that is read is one that was created.
    obtain ⟨hrow, hid⟩ := Table.get?_eq_some.mp (PendingSettingsChange.peek_eq_ok.mp hpeek).1
    obtain ⟨c, hc, hcrow⟩ := hw.pending _ hrow
    refine (hw.setCall (fun application row h => ?_) (fun _ _ h => by cases h)).snoc _
    cases h
    exact ⟨c, hc, hcrow, hid⟩
  | prepared hcall hprepare =>
    obtain ⟨c, hc, rfl, hid⟩ := hw.peeked _ _ _ hcall
    obtain ⟨-, hdecode, nonce, hrow⟩ := hw.origin c hc
    refine (hw.setCall (fun _ _ h => by cases h) (fun application config h => ?_)).snoc _
    cases h
    exact ⟨c, hc, hid, prepare_ofPayload hP hdecode hrow hprepare⟩
  | confirmed hcall hcommit =>
    obtain ⟨row, log, -, -, -, rfl⟩ := applyPendingSettingsChange_applied hcommit
    refine Recorded.snoc ?_ _
    exact (hw.ended _).of_db rfl rfl fun _ h => (Table.mem_delete.mp h).1
  | unbound hcommit =>
    obtain ⟨log, rfl⟩ := applyPendingSettingsChange_bindingFailed hcommit
    refine Recorded.snoc ?_ _
    exact (hw.ended _).of_db rfl rfl fun _ h => h
  | cancelled hcommit =>
    obtain ⟨log, rfl⟩ := cancelPendingSettingsChange_ok hcommit
    refine Recorded.snoc ?_ _
    exact hw.of_db rfl rfl fun _ h => (Table.mem_delete.mp h).1
  | purged =>
    refine Recorded.snoc ?_ _
    exact hw.of_db rfl rfl fun _ h => (Table.mem_delete.mp h).1

/-- The commit of a call that returns `Ok`. -/
theorem confirms_effect (hout : x.out = (step ctx x.pre x.event).2) (h : Confirms x application) :
    ∃ config db call, x.pre.calls call = some (.prepared application config) ∧
      applyPendingSettingsChange x.pre.db application.actor application.id application.sessionId
        application.csrfToken application.now config = .ok (.applied, db) ∧
      (step ctx x.pre x.event).1.db = db := by
  obtain ⟨call, config, hevent, hcall, hok⟩ := h
  have heffect := step_effect ctx x.pre x.event
  rw [← hout, hok] at heffect
  generalize (step ctx x.pre x.event).1 = w' at heffect ⊢
  rw [hevent] at heffect
  cases heffect with
  | ended hanswer => exact absurd rfl hanswer
  | created he => cases he
  | confirmed hcall' hcommit =>
    rw [hcall] at hcall'
    cases hcall'
    exact ⟨config, _, call, hcall, hcommit, rfl⟩

/-- A change that has been created and is not pending any more. -/
def Gone (id : Nat) (w : World) : Prop :=
  (∃ c ∈ w.created, c.row.id = id) ∧ ∀ row ∈ w.db.pendingSettingsChange, row.id ≠ id

/-- What has been created stays recorded. -/
theorem created_step (hc : c ∈ w.created) : c ∈ (step ctx w e).1.created := by
  have heffect := step_effect ctx w e
  generalize (step ctx w e).1 = w' at heffect ⊢
  generalize (step ctx w e).2 = answer at heffect
  cases heffect with
  | created => exact List.mem_cons_of_mem _ hc
  | _ => exact hc

/-- A pending row after a step was there before, or it has an identifier that was never used. -/
theorem pending_step (h : row ∈ (step ctx w e).1.db.pendingSettingsChange) :
    row ∈ w.db.pendingSettingsChange ∨ ∀ c ∈ w.created, c.row.id ≠ row.id := by
  have heffect := step_effect ctx w e
  generalize (step ctx w e).1 = w' at heffect h
  generalize (step ctx w e).2 = answer at heffect
  cases heffect with
  | ignored | failed | ended | copied | peeked | prepared => exact .inl h
  | saved hcall hcommit =>
    obtain ⟨log, rfl⟩ := changeSmtpConfig_ok hcommit
    exact .inl h
  | created he hw₀ hfresh hrow hcommit =>
    obtain ⟨pending, log, hinsert, rfl⟩ := createPendingSettingsChange_ok hcommit
    rcases (Table.mem_of_insert? hinsert).mp h with h | rfl
    · exact .inl h
    · exact .inr ((Creation.row_eq_ok hrow).1 ▸ hfresh)
  | confirmed hcall hcommit =>
    obtain ⟨-, log, -, -, -, rfl⟩ := applyPendingSettingsChange_applied hcommit
    exact .inl (Table.mem_delete.mp h).1
  | unbound hcommit =>
    obtain ⟨log, rfl⟩ := applyPendingSettingsChange_bindingFailed hcommit
    exact .inl h
  | cancelled hcommit =>
    obtain ⟨log, rfl⟩ := cancelPendingSettingsChange_ok hcommit
    exact .inl (Table.mem_delete.mp h).1
  | purged => exact .inl (Table.mem_delete.mp h).1

theorem gone_step (h : Gone id w) : Gone id (step ctx w e).1 := by
  obtain ⟨⟨c, hc, hid⟩, hgone⟩ := h
  refine ⟨⟨c, created_step hc, hid⟩, fun row hrow => ?_⟩
  rcases pending_step hrow with hrow | hfresh
  · exact hgone row hrow
  · exact fun hsame => hfresh c hc (hid.trans hsame.symm)

/-- What is taken away is gone. -/
theorem gone_of_takesAway (hx : Recorded ctx past x.pre)
    (hout : x.out = (step ctx x.pre x.event).2) (h : TakesAway x id) :
    Gone id (step ctx x.pre x.event).1 := by
  rcases h with ⟨application, hconfirms, rfl⟩ | ⟨c, hc, rfl, hdeleted⟩
  · obtain ⟨config, db, call, hcall, hcommit, hdb⟩ := confirms_effect hout hconfirms
    obtain ⟨c, hc, hid, -⟩ := hx.prepared call application config hcall
    obtain ⟨-, log, -, -, -, rfl⟩ := applyPendingSettingsChange_applied hcommit
    refine ⟨⟨c, created_step hc, hid⟩, fun row hrow => ?_⟩
    rw [hdb] at hrow
    simpa using (Table.mem_delete.mp hrow).2
  · refine ⟨⟨c, created_step hc, rfl⟩, fun row hrow hid => ?_⟩
    rcases hdeleted with ⟨actor, hevent, hok⟩ | ⟨now, hevent, hle⟩
    · have heffect := step_effect ctx x.pre x.event
      rw [← hout, hok] at heffect
      generalize (step ctx x.pre x.event).1 = w' at heffect hrow
      rw [hevent] at heffect
      cases heffect with
      | ended hanswer => exact absurd rfl hanswer
      | created he => cases he
      | cancelled hcommit =>
        obtain ⟨log, rfl⟩ := cancelPendingSettingsChange_ok hcommit
        have hkept := (Table.mem_delete.mp hrow).2
        rw [hid, beq_self_eq_true] at hkept
        cases hkept
    · rw [hevent] at hrow
      obtain ⟨hmem, hkept⟩ := Table.mem_delete.mp hrow
      obtain ⟨c', hc', rfl⟩ := hx.pending row hmem
      rw [hx.unique hc' hc hid] at hkept
      simp [hle] at hkept

/-- Only a confirmation, a save, a creation, a cancel or a purge changes the settings or the pending
changes. -/
theorem apply_quiet (happly : e.isApply = true) (hout : (step ctx w e).2 ≠ .returned (.ok ())) :
    (step ctx w e).1.db.smtpConfig = w.db.smtpConfig ∧
      (step ctx w e).1.db.pendingSettingsChange = w.db.pendingSettingsChange := by
  have heffect := step_effect ctx w e
  generalize (step ctx w e).1 = w' at heffect ⊢
  generalize (step ctx w e).2 = answer at heffect hout
  cases heffect with
  | ignored | failed | ended | copied | peeked | prepared => exact ⟨rfl, rfl⟩
  | saved | created | confirmed | cancelled | purged => exact absurd rfl hout
  | unbound hcommit =>
    obtain ⟨log, rfl⟩ := applyPendingSettingsChange_bindingFailed hcommit
    exact ⟨rfl, rfl⟩

/-- A confirmation, against what has been created. -/
theorem confirms_created (hx : Recorded ctx past x.pre)
    (hout : x.out = (step ctx x.pre x.event).2) (h : Confirms x application) :
    ∃ z ∈ past, ∃ creation, Creates z application.id creation ∧
      application.actor = creation.actor ∧ application.sessionId = creation.sessionId ∧
      application.csrfToken = creation.csrfToken ∧
      application.now < creation.now + seconds pendingChangeTtlSecs ∧
      ∃ config, (step ctx x.pre x.event).1.db.smtpConfig = some config ∧
        OfPayload ctx config creation.payload := by
  obtain ⟨config, db, call, hcall, hcommit, hdb⟩ := confirms_effect hout h
  obtain ⟨row, log, hget, hlt, hbound, rfl⟩ := applyPendingSettingsChange_applied hcommit
  obtain ⟨hmem, hrowid⟩ := Table.get?_eq_some.mp hget
  -- The row of the transaction and the row that was decrypted are those of one creation.
  obtain ⟨c, hc, hid, hpayload⟩ := hx.prepared call application config hcall
  obtain ⟨c', hc', rfl⟩ := hx.pending row hmem
  obtain rfl := hx.unique hc hc' (hid.trans hrowid.symm)
  obtain ⟨⟨z, hz, hcreates⟩, -, nonce, hrow⟩ := hx.origin c hc
  obtain ⟨-, hsession, hactor, hcsrf, hexpires, -⟩ := Creation.row_eq_ok hrow
  simp only [PendingSettingsChange.bound, Bool.and_eq_true, beq_iff_eq] at hbound
  obtain ⟨⟨hsession', hactor'⟩, hcsrf'⟩ := hbound
  refine ⟨z, hz, c.creation, hid ▸ hcreates, ?_, ?_, ?_, ?_, ?_⟩
  · exact hactor'.symm.trans hactor
  · exact hsession'.symm.trans hsession
  · exact hcsrf'.symm.trans hcsrf
  · exact hexpires ▸ hlt
  · rw [hdb]
    exact ⟨_, rfl, ⟨hpayload.enabled, hpayload.host, hpayload.port, hpayload.tls, hpayload.username,
      hpayload.password, hpayload.fromAddress, hpayload.fromName, hpayload.baseUrl⟩⟩

end Steps

theorem recorded_new (ctx : Context) (db : Database) : Recorded ctx [] (.new db) := by
  refine ⟨List.nodup_nil, fun c hc => ?_, fun row hrow => ?_, fun _ _ _ h => ?_,
    fun _ _ _ h => ?_⟩
  · cases hc
  · cases hrow
  · cases h
  · cases h

/-- The protocol of pending changes, in every run. -/
theorem pending_changes {ctx : Context} {db : Database} {events : List Event} (hP : ctx.P.Lawful)
    (hjson : ∀ e ∈ events, JsonRoundTrips ctx e) : PendingChanges ctx db events := by
  have hg : Guarded (step ctx) (fun _ e => JsonRoundTrips ctx e) (.new db) events :=
    guarded_of_forall hjson
  have hstep : ∀ past w e, Recorded ctx past w → JsonRoundTrips ctx e →
      Recorded ctx (past ++ [⟨w, e, (step ctx w e).2⟩]) (step ctx w e).1 :=
    fun past w e hw he => recorded_step hP he hw
  have hhistory : ∀ {past x rest}, trace (step ctx) (.new db) events = past ++ x :: rest →
      Recorded ctx past x.pre ∧ JsonRoundTrips ctx x.event ∧
        x.out = (step ctx x.pre x.event).2 :=
    fun hsplit => trace_history hstep hg (recorded_new ctx db) hsplit
  constructor
  · intro past x rest application hsplit hconfirms
    obtain ⟨hx, -, hout⟩ := hhistory hsplit
    exact confirms_created hx hout hconfirms
  · intro past x rest id hsplit haway y hy application hconfirms hid
    obtain ⟨hx, -, hout⟩ := hhistory hsplit
    obtain ⟨⟨-, hgone⟩, -, hyout⟩ := trace_after (I := fun _ => True) (D := Gone id)
      (fun _ _ _ _ => trivial) (fun _ _ _ _ h => gone_step h) hg trivial hsplit
      (gone_of_takesAway hx hout haway) hy
    obtain ⟨config, db', call, -, hcommit, -⟩ := confirms_effect hyout hconfirms
    obtain ⟨row, log, hget, -, -, -⟩ := applyPendingSettingsChange_applied hcommit
    obtain ⟨hmem, hrowid⟩ := Table.get?_eq_some.mp hget
    exact hgone.2 row hmem (hrowid.trans hid)
  · intro x hx happly hok
    obtain ⟨past, rest, hsplit⟩ := List.append_of_mem hx
    obtain ⟨-, -, hout⟩ := hhistory hsplit
    exact apply_quiet happly (hout ▸ hok)

/-! ## A refused confirmation and a confirmed one -/

private def relayPayload : SmtpPasswordChangePayload :=
  ⟨true, "h", 25, "starttls", none, "pw", "a@h", none, "http://h"⟩

/-- The JSON of this payload. -/
private def relayJson : Bytes :=
  utf8 ("\x7b\"enabled\":true,\"host\":\"h\",\"port\":25,\"tls_mode\":\"starttls\"," ++
    "\"username\":null,\"password\":\"pw\",\"from_address\":\"a@h\",\"from_name\":null," ++
    "\"base_url\":\"http://h\"\x7d")

private def relayContext : Context where
  P := .transparent
  key := .constant 1
  encode payload := if payload = relayPayload then relayJson else []
  decode bytes := if bytes = relayJson then some relayPayload else none

/-- A session that did not create the change is refused, the one that did confirms it. -/
private def confirmRun : List Event :=
  [.create ⟨1, 5, "smtp_password_update", relayPayload, "", "csrf", 0⟩ 9 (.constant 2),
    .apply 1 ⟨9, 1, 6, "csrf", seconds 5⟩, .prepare 1 (.constant 3), .commit 1,
    .apply 2 ⟨9, 1, 5, "csrf", seconds 299⟩, .prepare 2 (.constant 4), .commit 2]

theorem pending_changes_confirmRun : PendingChanges relayContext .empty confirmRun := by
  refine pending_changes Primitives.transparent_lawful fun e he creation id nonce hcreation => ?_
  have hpayload : creation.payload = relayPayload := by
    simp only [confirmRun, List.mem_cons, List.not_mem_nil, or_false] at he
    rcases he with rfl | rfl | rfl | rfl | rfl | rfl | rfl <;> cases hcreation
    rfl
  rw [hpayload]
  simp only [relayContext, if_true]

/-- The second confirmation of the run goes through. -/
example : ((trace (step relayContext) (.new .empty) confirmRun).map fun x =>
    x.out matches .returned (.ok ())) = [true, false, false, false, false, false, true] := by
  decide +kernel

end SuiId.Settings
