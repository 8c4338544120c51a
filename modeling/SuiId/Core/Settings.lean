import Mathlib.Logic.Function.Basic
import SuiId.Core.Session
import SuiId.Lib.Machine
import SuiId.Store.Settings

/-!
# Changing the SMTP settings

`email_post` of `handlers/settings.rs` and the flow of `settings/pending_change.rs`.

A save with an empty password reads `smtp_config`, copies its password and writes the row in a
later transaction (S06).  A save with a password creates a pending change (S07).  Its confirmation
reads the pending row, decrypts it and seals the password outside of any transaction, and then
applies it in one (S08).

A step is one read or one transaction.  The identifier of a pending change is a fresh one, so a
creation with a used one is ignored.  JSON is the pair `encode` and `decode`.
-/

namespace SuiId.Settings

open Lib Lib.Result

/-- `EmailSettingsForm`, without its CSRF token. -/
structure EmailSettingsForm where
  enabled : Option String
  host : String
  port : Nat
  tlsMode : String
  username : String
  password : String
  fromAddress : String
  fromName : String
  baseUrl : String

/-- `SmtpPasswordChangePayload`. -/
structure SmtpPasswordChangePayload where
  enabled : Bool
  host : String
  port : Nat
  tlsMode : String
  username : Option String
  password : String
  fromAddress : String
  fromName : Option String
  baseUrl : String
deriving DecidableEq

/-- The key of the database, and the cipher and the JSON that are not part of the repository. -/
structure Context where
  P : Primitives
  key : MasterKey
  encode : SmtpPasswordChangePayload → Bytes
  decode : Bytes → Option SmtpPasswordChangePayload

/-- `trimmed_or_none`. -/
def trimmedOrNone (s : String) : Option String :=
  if (Text.trim s).isEmpty then none else some (Text.trim s)

/-- `trim().trim_end_matches('/')`. -/
def trimBaseUrl (s : String) : String :=
  String.ofList ((Text.trim s).toList.rdropWhile fun c => c = '/')

/-! ## `email_post` -/

namespace EmailSettingsForm

/-- What `email_post` refuses before it reads anything. -/
def check (form : EmailSettingsForm) : CoreResult Bool := do
  let startTls ← require (parseTlsMode form.tlsMode)
    (.badRequest ("unknown tls_mode: " ++ form.tlsMode))
  ensure (Text.startsWith form.baseUrl "http://" || Text.startsWith form.baseUrl "https://")
    (.badRequest "base_url must start with http:// or https://")
  pure startTls

/-- `is_enabled`. -/
def isEnabled (form : EmailSettingsForm) : Bool :=
  form.enabled.any fun v => v = "true" || v = "on" || v = "1"

/-- The row of a save without a password: the password of the copy is kept. -/
def row (form : EmailSettingsForm) (startTls : Bool) (existing : Option SmtpConfigRow)
    (now : DateTime) : SmtpConfigRow where
  enabled := form.isEnabled
  host := Text.trim form.host
  port := form.port
  startTls := startTls
  username := trimmedOrNone form.username
  passwordEnc := existing.bind (·.passwordEnc)
  fromAddress := Text.trim form.fromAddress
  fromName := trimmedOrNone form.fromName
  baseUrl := trimBaseUrl form.baseUrl
  createdAt := (existing.map (·.createdAt)).getD now
  updatedAt := now

/-- The payload of a change. -/
def payload (form : EmailSettingsForm) : SmtpPasswordChangePayload where
  enabled := form.isEnabled
  host := Text.trim form.host
  port := form.port
  tlsMode := form.tlsMode
  username := trimmedOrNone form.username
  password := form.password
  fromAddress := Text.trim form.fromAddress
  fromName := trimmedOrNone form.fromName
  baseUrl := trimBaseUrl form.baseUrl

/-- The summary of a change. -/
def summary (form : EmailSettingsForm) : String :=
  "SMTP password: will be updated | host: " ++ Text.trim form.host ++ " | port: " ++
    toString form.port

end EmailSettingsForm

/-! ## Pending changes -/

/-- `PENDING_CHANGE_TTL_SECS`. -/
def pendingChangeTtlSecs : Int := 300

/-- `EXPIRED_OR_INVALID`. -/
def expiredOrInvalid : String := "This pending change has expired or is no longer valid."

/-- What a caller of `create` says. -/
structure Creation where
  actor : UserId
  sessionId : SessionId
  intent : String
  payload : SmtpPasswordChangePayload
  summary : String
  csrfToken : String
  now : DateTime

/-- The row that `create` inserts. -/
def Creation.row (ctx : Context) (creation : Creation) (id : Nat) (nonce : Nonce) :
    CoreResult PendingSettingsChangeRow := do
  let payloadEnc ← (sealBytes ctx.P ctx.key nonce (ctx.encode creation.payload)
    PendingSettingsChange.aad).mapError .store
  pure
    { id
      sessionId := creation.sessionId
      actorId := creation.actor
      intent := creation.intent
      payloadEnc
      summary := creation.summary
      csrfToken := creation.csrfToken
      expiresAt := creation.now + seconds pendingChangeTtlSecs
      createdAt := creation.now }

/-- What a caller of `apply` says. -/
structure Application where
  id : Nat
  actor : UserId
  sessionId : SessionId
  csrfToken : String
  now : DateTime

/-- The second step of `apply`: decrypt, validate and seal. -/
def Application.prepare (ctx : Context) (application : Application)
    (peeked : PendingSettingsChangeRow) (existing : Option SmtpConfigRow) (nonce : Nonce) :
    CoreResult SmtpConfigRow := do
  let plaintext ← (openBytes ctx.P ctx.key peeked.payloadEnc PendingSettingsChange.aad).mapError
    fun _ => .badRequest expiredOrInvalid
  let payload ← require (ctx.decode plaintext) .internal
  let startTls ← require (parseTlsMode payload.tlsMode)
    (.badRequest ("unknown tls_mode: " ++ payload.tlsMode))
  let passwordEnc ← (SmtpConfig.sealPassword ctx.P ctx.key nonce payload.password).mapError .store
  pure
    { enabled := payload.enabled
      host := Text.trim payload.host
      port := payload.port
      startTls
      username := payload.username
      passwordEnc := some passwordEnc
      fromAddress := Text.trim payload.fromAddress
      fromName := payload.fromName
      baseUrl := trimBaseUrl payload.baseUrl
      createdAt := (existing.map (·.createdAt)).getD application.now
      updatedAt := application.now }

/-! ## Calls -/

abbrev CallId := Nat

/-- Where a call stands between two steps. -/
inductive Call where
  /-- `email_post` has its copy of the row.  `seen` is how many confirmations had committed. -/
  | saving (admin : UserId) (form : EmailSettingsForm) (startTls : Bool)
      (existing : Option SmtpConfigRow) (now : DateTime) (seen : Nat)
  | peeked (application : Application) (row : PendingSettingsChangeRow)
  | prepared (application : Application) (config : SmtpConfigRow)
  | ended

/-- A pending change that has been created. -/
structure Created where
  row : PendingSettingsChangeRow
  creation : Creation

/-- The database and the calls in flight. -/
structure World where
  db : Database
  calls : CallId → Option Call
  created : List Created
  /-- How many confirmations have committed. -/
  confirmed : Nat

/-- A step of a handler, or the purge. -/
inductive Event where
  /-- `email_post` up to its read, and to its end where it has a password. -/
  | emailPost (call : CallId) (admin : UserId) (sessionId : SessionId) (form : EmailSettingsForm)
      (csrfToken : String) (now : DateTime) (id : Nat) (nonce : Nonce)
  | emailSave (call : CallId)
  | create (creation : Creation) (id : Nat) (nonce : Nonce)
  | apply (call : CallId) (application : Application)
  | prepare (call : CallId) (nonce : Nonce)
  | commit (call : CallId)
  | cancel (actor : UserId) (id : Nat)
  | purgeExpired (now : DateTime)

/-- What an event answers. -/
inductive Answer where
  | ignored
  | running
  | returned (result : CoreResult Unit)

namespace World

/-- No call has begun and no change is pending. -/
def new (db : Database) : World := ⟨{ db with pendingSettingsChange := ∅ }, fun _ => none, [], 0⟩

/-- The call stands at `call`. -/
def setCall (w : World) (id : CallId) (call : Call) : World :=
  { w with calls := Function.update w.calls id (some call) }

theorem setCall_eq_some {w : World} {id id' : CallId} {call call' : Call} :
    (w.setCall id call).calls id' = some call' ↔
      (id' = id ∧ call = call') ∨ (id' ≠ id ∧ w.calls id' = some call') := by
  by_cases hid : id' = id <;> simp [setCall, hid]

/-- `pending_change::create`. -/
def create (ctx : Context) (w : World) (creation : Creation) (id : Nat) (nonce : Nonce) :
    World × Answer :=
  if (w.created.any fun c => c.row.id = id) = true then (w, .ignored)
  else
    match creation.row ctx id nonce with
    | .error e => (w, .returned (.error e))
    | .ok row =>
      match createPendingSettingsChange w.db creation.actor row with
      | .error e => (w, .returned (.error (.store e)))
      | .ok (_, db) => ({ w with db, created := ⟨row, creation⟩ :: w.created }, .returned (.ok ()))

end World

/-- One event. -/
def step (ctx : Context) (w : World) : Event → World × Answer
  | .emailPost call admin sessionId form csrfToken now id nonce =>
    match w.calls call with
    | some _ => (w, .ignored)
    | none =>
      match form.check with
      | .error e => (w.setCall call .ended, .returned (.error e))
      | .ok startTls =>
        if form.password.isEmpty then
          (w.setCall call (.saving admin form startTls w.db.smtpConfig now w.confirmed), .running)
        else
          (w.setCall call .ended).create ctx
            ⟨admin, sessionId, "smtp_password_update", form.payload, form.summary, csrfToken, now⟩
            id nonce
  | .emailSave call =>
    match w.calls call with
    | some (.saving admin form startTls existing now _) =>
      match changeSmtpConfig w.db admin (form.row startTls existing now) with
      | .error e => (w.setCall call .ended, .returned (.error (.store e)))
      | .ok (_, db) => ({ w with db }.setCall call .ended, .returned (.ok ()))
    | _ => (w, .ignored)
  | .create creation id nonce => w.create ctx creation id nonce
  | .apply call application =>
    match w.calls call with
    | some _ => (w, .ignored)
    | none =>
      match PendingSettingsChange.peek w.db application.id application.now with
      | .error _ => (w.setCall call .ended, .returned (.error (.badRequest expiredOrInvalid)))
      | .ok row => (w.setCall call (.peeked application row), .running)
  | .prepare call nonce =>
    match w.calls call with
    | some (.peeked application row) =>
      match application.prepare ctx row w.db.smtpConfig nonce with
      | .error e => (w.setCall call .ended, .returned (.error e))
      | .ok config => (w.setCall call (.prepared application config), .running)
    | _ => (w, .ignored)
  | .commit call =>
    match w.calls call with
    | some (.prepared application config) =>
      match applyPendingSettingsChange w.db application.actor application.id application.sessionId
          application.csrfToken application.now config with
      | .error e => (w.setCall call .ended, .returned (.error (.store e)))
      | .ok (.applied, db) =>
        ({ w with db, confirmed := w.confirmed + 1 }.setCall call .ended, .returned (.ok ()))
      | .ok (.bindingFailed, db) =>
        ({ w with db }.setCall call .ended, .returned (.error (.badRequest expiredOrInvalid)))
    | _ => (w, .ignored)
  | .cancel actor id =>
    match cancelPendingSettingsChange w.db actor id with
    | .error e => (w, .returned (.error (.store e)))
    | .ok (_, db) => ({ w with db }, .returned (.ok ()))
  | .purgeExpired now =>
    ({ w with db := PendingSettingsChange.purgeExpired w.db now }, .returned (.ok ()))

/-! ## What a step does -/

/-- The creation that an event asks for, with its draws. -/
def Event.creation : Event → Option (Creation × Nat × Nonce)
  | .emailPost _ admin sessionId form csrfToken now id nonce =>
    if form.password.isEmpty then none
    else some (⟨admin, sessionId, "smtp_password_update", form.payload, form.summary, csrfToken,
      now⟩, id, nonce)
  | .create creation id nonce => some (creation, id, nonce)
  | _ => none

/-- The effect of a step. -/
inductive Effect (ctx : Context) (w : World) : Event → World → Answer → Prop where
  | ignored {e} : Effect ctx w e w .ignored
  | failed {e error} : Effect ctx w e w (.returned (.error error))
  | ended {e call answer} :
      answer ≠ .returned (.ok ()) → Effect ctx w e (w.setCall call .ended) answer
  | copied {call admin sessionId form csrfToken now id nonce startTls} :
      Effect ctx w (.emailPost call admin sessionId form csrfToken now id nonce)
        (w.setCall call (.saving admin form startTls w.db.smtpConfig now w.confirmed)) .running
  | saved {call admin} {form : EmailSettingsForm} {startTls existing now seen db} :
      w.calls call = some (.saving admin form startTls existing now seen) →
      changeSmtpConfig w.db admin (form.row startTls existing now) = .ok ((), db) →
      Effect ctx w (.emailSave call) ({ w with db }.setCall call .ended) (.returned (.ok ()))
  | created {e : Event} {creation : Creation} {id nonce row db} {w₀ : World} :
      e.creation = some (creation, id, nonce) → (w₀ = w ∨ ∃ call, w₀ = w.setCall call .ended) →
      (∀ c ∈ w.created, c.row.id ≠ id) → creation.row ctx id nonce = .ok row →
      createPendingSettingsChange w.db creation.actor row = .ok ((), db) →
      Effect ctx w e { w₀ with db, created := ⟨row, creation⟩ :: w.created } (.returned (.ok ()))
  | peeked {call} {application : Application} {row} :
      PendingSettingsChange.peek w.db application.id application.now = .ok row →
      Effect ctx w (.apply call application) (w.setCall call (.peeked application row)) .running
  | prepared {call nonce} {application : Application} {row config} :
      w.calls call = some (.peeked application row) →
      application.prepare ctx row w.db.smtpConfig nonce = .ok config →
      Effect ctx w (.prepare call nonce) (w.setCall call (.prepared application config)) .running
  | confirmed {call} {application : Application} {config db} :
      w.calls call = some (.prepared application config) →
      applyPendingSettingsChange w.db application.actor application.id application.sessionId
        application.csrfToken application.now config = .ok (.applied, db) →
      Effect ctx w (.commit call) ({ w with db, confirmed := w.confirmed + 1 }.setCall call .ended)
        (.returned (.ok ()))
  | unbound {call} {application : Application} {config db error} :
      applyPendingSettingsChange w.db application.actor application.id application.sessionId
        application.csrfToken application.now config = .ok (.bindingFailed, db) →
      Effect ctx w (.commit call) ({ w with db }.setCall call .ended) (.returned (.error error))
  | cancelled {actor id db} :
      cancelPendingSettingsChange w.db actor id = .ok ((), db) →
      Effect ctx w (.cancel actor id) { w with db } (.returned (.ok ()))
  | purged {now} :
      Effect ctx w (.purgeExpired now)
        { w with db := PendingSettingsChange.purgeExpired w.db now } (.returned (.ok ()))

/-- A creation begins from the state before the step, or from that with a call ended. -/
theorem create_effect (ctx : Context) {w w₀ : World} {e : Event} {creation : Creation} {id : Nat}
    {nonce : Nonce} (he : e.creation = some (creation, id, nonce))
    (hw₀ : w₀ = w ∨ ∃ call, w₀ = w.setCall call .ended) :
    Effect ctx w e (w₀.create ctx creation id nonce).1 (w₀.create ctx creation id nonce).2 := by
  have hcreated : w₀.created = w.created := by
    obtain rfl | ⟨call, rfl⟩ := hw₀ <;> rfl
  have hdb : w₀.db = w.db := by
    obtain rfl | ⟨call, rfl⟩ := hw₀ <;> rfl
  have hquiet : ∀ {answer : Answer},
      (answer = .ignored ∨ ∃ error, answer = .returned (.error error)) →
        Effect ctx w e w₀ answer := by
    intro answer hanswer
    obtain rfl | ⟨call, rfl⟩ := hw₀
    · obtain rfl | ⟨error, rfl⟩ := hanswer
      · exact .ignored
      · exact .failed
    · refine .ended ?_
      obtain rfl | ⟨error, rfl⟩ := hanswer <;> nofun
  unfold World.create
  rw [hcreated, hdb]
  split
  · exact hquiet (.inl rfl)
  · next hfresh =>
    split
    · exact hquiet (.inr ⟨_, rfl⟩)
    · next row hrow =>
      split
      · exact hquiet (.inr ⟨_, rfl⟩)
      · next u db hcommit =>
        refine .created he hw₀ (fun c hc hid => hfresh ?_) hrow hcommit
        exact List.any_eq_true.mpr ⟨c, hc, decide_eq_true hid⟩

theorem step_effect (ctx : Context) (w : World) (e : Event) :
    Effect ctx w e (step ctx w e).1 (step ctx w e).2 := by
  cases e with
  | emailPost call admin sessionId form csrfToken now id nonce =>
    dsimp only [step]
    split
    · exact .ignored
    · split
      · exact .ended nofun
      · split
        · exact .copied
        · next hpassword =>
          exact create_effect ctx (by simp [Event.creation, hpassword]) (.inr ⟨call, rfl⟩)
  | emailSave call =>
    dsimp only [step]
    split
    · next hcall =>
      split
      · exact .ended nofun
      · next u db hcommit => exact .saved hcall hcommit
    · exact .ignored
  | create creation id nonce => exact create_effect ctx rfl (.inl rfl)
  | apply call application =>
    dsimp only [step]
    split
    · exact .ignored
    · split
      · exact .ended nofun
      · next hpeek => exact .peeked hpeek
  | prepare call nonce =>
    dsimp only [step]
    split
    · next hcall =>
      split
      · exact .ended nofun
      · next hprepare => exact .prepared hcall hprepare
    · exact .ignored
  | commit call =>
    dsimp only [step]
    split
    · next hcall =>
      split
      · exact .ended nofun
      · next hcommit => exact .confirmed hcall hcommit
      · next hcommit => exact .unbound hcommit
    · exact .ignored
  | cancel actor id =>
    dsimp only [step]
    split
    · exact .failed
    · next hcommit => exact .cancelled hcommit
  | purgeExpired now => exact .purged

end SuiId.Settings
