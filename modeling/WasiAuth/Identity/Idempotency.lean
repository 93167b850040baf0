import WasiAuth.Base.Calls
import WasiAuth.Identity.Values
import WasiAuth.Postgres.Footprints
import WasiAuth.Postgres.Intents

/-! # Calls with an idempotency key

`register_password` and `create_organization` each run one statement and store its result under the caller's
idempotency key. PostgreSQL evaluates the reads of a statement on the snapshot taken when it starts, while its
inserts meet whatever has been committed by the time they are made:

| read or write | sees |
|---|---|
| `existing_idempotency`, `slug_conflict`, `replayed` | the snapshot |
| `eligible … FOR UPDATE` | the snapshot, and the row as it is once it is locked |
| `ON CONFLICT (normalized_email) DO NOTHING`, every unique index | the committed rows |

So two twins can both miss the stored result. `registerPasswordFrom` and `createOrganizationFrom` take the snapshot
as a second argument. A twin that comes too late finds the email taken, and `register_password` then looks for the
stored result once more (postgres.rs:483-487); `create_organization` fails on a unique index and is rolled back.
-/

namespace WasiAuth

open Relational Transition

/-! ## The statements on a snapshot -/

/-- `register_password.sql` with the snapshot it started with. -/
def registerPasswordFrom (snapshot : Db) (p : RegisterPassword) (db : Db) :
    Except SqlError (RegistrationOutcome × Db) :=
  match snapshot.idempotency.find? p.idempotencyKey with
  | some row =>
    if row.actorKey = p.actorKey ∧ row.operation = .registerPassword ∧ row.requestHash = p.requestHash then
      .ok (.replayed row.response, db)
    else .ok (.idempotencyConflict, db)
  | none =>
    if (db.userByEmail p.normalizedEmail).isSome then .ok (.emailConflict, db) else insertRegistration p db

theorem registerPasswordFrom_self (p : RegisterPassword) (db : Db) :
    registerPasswordFrom db p db = registerPassword p db := rfl

/-- `create_organization.sql` with the snapshot it started with. -/
def createOrganizationFrom (snapshot : Db) (p : CreateOrganization) (db : Db) :
    Except SqlError (CreateOrganizationOutcome × Db) :=
  match snapshot.idempotency.find? p.idempotencyKey with
  | some row =>
    if row.operation = .createOrganization ∧ row.actorKey = p.sessionId.text ∧ row.requestHash = p.requestHash then
      .ok (replayOrganization p row snapshot, db)
    else .ok (.idempotencyConflict, db)
  | none =>
    if snapshot.slugTaken p.slug then .ok (.slugConflict, db)
    else
      match snapshot.liveSession p.sessionId p.nowMs, db.liveSession p.sessionId p.nowMs with
      | some _, some (session, user) =>
        -- `auth_organizations_slug_uidx`
        if db.slugTaken p.slug then .error .uniqueViolation else insertFounded p session user db
      | _, _ => .ok (.unauthorized, db)

theorem createOrganizationFrom_self (p : CreateOrganization) (db : Db) :
    createOrganizationFrom db p db = createOrganization p db := by
  unfold createOrganizationFrom createOrganization
  cases db.idempotency.find? p.idempotencyKey with
  | some row => rfl
  | none =>
    cases db.slugTaken p.slug with
    | true => simp
    | false =>
      simp only [Bool.false_eq_true, if_false]
      cases db.liveSession p.sessionId p.nowMs with
      | none => rfl
      | some live => rfl

/-! ## What a statement on a snapshot can do -/

section Snapshot
variable {snapshot db db' : Db}

theorem registerPasswordFrom_cases {p : RegisterPassword} {r : RegistrationOutcome}
    (h : registerPasswordFrom snapshot p db = .ok (r, db')) :
    (∃ row, snapshot.idempotency.find? p.idempotencyKey = some row ∧ row.actorKey = p.actorKey ∧
      row.operation = .registerPassword ∧ row.requestHash = p.requestHash ∧ r = .replayed row.response ∧ db' = db) ∨
      (r = .idempotencyConflict ∨ r = .emailConflict) ∧ db' = db ∨
        r = .created p.userId ∧ Registered p db db' ∧ registerPassword p db = .ok (r, db') := by
  unfold registerPasswordFrom at h
  split at h
  · rename_i row hrow
    split at h
    · rename_i hsame
      cases h
      exact .inl ⟨row, hrow, hsame.1, hsame.2.1, hsame.2.2, rfl, rfl⟩
    · cases h
      exact .inr (.inl ⟨.inl rfl, rfl⟩)
  · split at h
    · cases h
      exact .inr (.inl ⟨.inr rfl, rfl⟩)
    · rename_i hemail
      obtain ⟨hr, hwhole⟩ := insertRegistration_eq_ok h
      refine .inr (.inr ⟨hr, hwhole, ?_⟩)
      have hfresh : db.idempotency.find? p.idempotencyKey = none := (Table.insertOr_eq_ok hwhole.idempotency).1
      rw [← registerPasswordFrom_self, registerPasswordFrom, hfresh]
      exact (if_neg hemail).trans h

/-- Where a statement on an old snapshot founds an organization, it does so on the committed rows alone. -/
theorem createOrganization_of_inserts {p : CreateOrganization} {session : Session} {user : User}
    {r : CreateOrganizationOutcome} (hlive : db.liveSession p.sessionId p.nowMs = some (session, user))
    (hslug : db.slugTaken p.slug = false) (h : insertFounded p session user db = .ok (r, db')) :
    db.idempotency.find? p.idempotencyKey = none ∧ createOrganization p db = .ok (r, db') := by
  have hrun := h
  obtain ⟨_, -, h⟩ := bind_eq_ok.1 h
  obtain ⟨_, -, h⟩ := bind_eq_ok.1 h
  obtain ⟨idempotency, hidem, -⟩ := bind_eq_ok.1 h
  have hfresh : db.idempotency.find? p.idempotencyKey = none := (Table.insertOr_eq_ok hidem).1
  refine ⟨hfresh, ?_⟩
  rw [← createOrganizationFrom_self, createOrganizationFrom, hfresh]
  simp only [hslug, Bool.false_eq_true, if_false, hlive]
  exact hrun

theorem createOrganizationFrom_cases {p : CreateOrganization} {r : CreateOrganizationOutcome}
    (h : createOrganizationFrom snapshot p db = .ok (r, db')) :
    (∃ row, snapshot.idempotency.find? p.idempotencyKey = some row ∧ row.actorKey = p.sessionId.text ∧
      row.operation = .createOrganization ∧ row.requestHash = p.requestHash ∧
        r = replayOrganization p row snapshot ∧ db' = db) ∨
      (r = .idempotencyConflict ∨ r = .slugConflict ∨ r = .unauthorized) ∧ db' = db ∨
        ∃ session user view, r = .created view ∧ Founded p session user view db db' ∧
          createOrganization p db = .ok (r, db') := by
  unfold createOrganizationFrom at h
  split at h
  · rename_i row hrow
    split at h
    · rename_i hsame
      cases h
      exact .inl ⟨row, hrow, hsame.2.1, hsame.1, hsame.2.2, rfl, rfl⟩
    · cases h
      exact .inr (.inl ⟨.inl rfl, rfl⟩)
  · split at h
    · cases h
      exact .inr (.inl ⟨.inr (.inl rfl), rfl⟩)
    · split at h
      · rename_i session user _ hlive
        split at h
        · cases h
        · rename_i hslug
          obtain ⟨hfresh, hok⟩ := createOrganization_of_inserts hlive (by simpa using hslug) h
          rcases createOrganization_cases hok with
            ⟨row, hrow, -, -⟩ | ⟨-, rfl, hr⟩ | ⟨session, user, view, hr, hfounded⟩
          · cases hfresh.symm.trans hrow
          · exact .inr (.inl ⟨.inr hr, rfl⟩)
          · exact .inr (.inr ⟨session, user, view, hr, hfounded, hok⟩)
      · cases h
        exact .inr (.inl ⟨.inr (.inr rfl), rfl⟩)

/-- No intent of an organization is stored before the organization is. -/
theorem Founded.ownerIntent {p : CreateOrganization} {session : Session} {user : User} {view : OrganizationView}
    (h : Founded p session user view db db') (htracked : Tracked db []) :
    db.outbox.insertOr SqlError.uniqueViolation (p.ownerIntent user.userId) = .ok db'.outbox := by
  have hnone (o : Organization) (ho : db.organizations.find? p.organizationId = some o) :
      o.authorizationRevision < 2 := by
    cases h.organization.symm.trans ho
  obtain ⟨outbox, hins, hdb⟩ := insertOutboxOnce_of_free (htracked.key_free hnone .grant) h.outbox
  have houtbox : db'.outbox = outbox := congrArg Db.outbox hdb
  rw [houtbox]
  exact hins

end Snapshot

/-! ## The calls -/

/-- The two calls that store their result under a key. -/
inductive KeyedCall
  | register (p : RegisterPassword)
  | create (p : CreateOrganization)

/-- What a stored result belongs to; a key used for anything else is a conflict. -/
structure KeyBinding where
  idempotencyKey : String
  actorKey : String
  operation : IdempotentOperation
  requestHash : Bytes
deriving DecidableEq

def Idempotency.binding (row : Idempotency) : KeyBinding :=
  ⟨row.idempotencyKey, row.actorKey, row.operation, row.requestHash⟩

namespace KeyedCall

def binding : KeyedCall → KeyBinding
  | .register p => ⟨p.idempotencyKey, p.actorKey, .registerPassword, p.requestHash⟩
  | .create p => ⟨p.idempotencyKey, p.sessionId.text, .createOrganization, p.requestHash⟩

def key (c : KeyedCall) : String := c.binding.idempotencyKey

/-- What the call would create. -/
def entityId : KeyedCall → Uuid
  | .register p => p.userId
  | .create p => p.organizationId

/-- The call's statement as a command that runs alone. -/
def command : KeyedCall → Command
  | .register p => .registerPassword p
  | .create p => .createOrganization p

/-- The call's rows are inserted, all of them, and nothing else is written but that a founder's session selects the
new organization. -/
def Whole : KeyedCall → Db → Db → Prop
  | .register p, db, db' => Registered p db db'
  | .create p, db, db' => ∃ session user view, Founded p session user view db db' ∧
      db.outbox.insertOr SqlError.uniqueViolation (p.ownerIntent user.userId) = .ok db'.outbox

end KeyedCall

/-- `PasswordRegistrationError`, as far as the store can cause it (postgres/workflows.rs:1645). -/
inductive RegistrationError
  | transport | emailAlreadyExists | idempotencyConflict
deriving DecidableEq

/-- postgres.rs:366 -/
structure RegistrationReceipt where
  userId : Uuid
  replayed : Bool
deriving DecidableEq

/-- postgres/organizations.rs:286 -/
inductive OrganizationError
  | unauthenticated | idempotencyConflict | slugConflict | transport | invalidRow
deriving DecidableEq

/-- `registration_replay`: the stored result, if there is one by now. -/
def registrationReplay (p : RegisterPassword) (db : Db) : Except RegistrationError (Option RegistrationReceipt) :=
  match db.idempotency.find? p.idempotencyKey with
  | none => .ok none
  | some row =>
    if row.actorKey = p.actorKey ∧ row.operation = .registerPassword ∧ row.requestHash = p.requestHash then
      .ok (some ⟨row.response, true⟩)
    else .error .idempotencyConflict

/-- `decode_organization`: the creation time is read as an unsigned number. -/
def decodeOrganization (view : OrganizationView) : Except OrganizationError OrganizationView :=
  if view.createdAtMs < 0 then .error .invalidRow else .ok view

def CreateOrganizationOutcome.response : CreateOrganizationOutcome → Except OrganizationError OrganizationView
  | .created view | .replayed view => decodeOrganization view
  | .idempotencyConflict => .error .idempotencyConflict
  | .slugConflict => .error .slugConflict
  | .unauthorized => .error .unauthenticated

inductive KeyedResult
  | registration (r : Except RegistrationError RegistrationReceipt)
  | organization (r : Except OrganizationError OrganizationView)

def KeyedResult.entity : KeyedResult → Option Uuid
  | .registration (.ok receipt) => some receipt.userId
  | .organization (.ok view) => some view.organizationId
  | _ => none

inductive KeyedPhase
  | started
  /-- The statement has taken its snapshot. -/
  | running (snapshot : Db)
  /-- A registration has found the email taken. -/
  | replaying
  /-- With the id of the entity whose rows the call has inserted. -/
  | ended (result : KeyedResult) (created : Option Uuid)

structure KeyedThread where
  call : KeyedCall
  phase : KeyedPhase

namespace KeyedThread

def start (call : KeyedCall) : KeyedThread := ⟨call, .started⟩

/-- `register_password` (postgres.rs:467-488) once its statement has been run. -/
def answerRegistration (lost : Bool) (outcome : RegistrationOutcome) : KeyedPhase :=
  match lost, outcome with
  | true, .created id => .ended (.registration (.error .transport)) (some id)
  | true, _ => .ended (.registration (.error .transport)) none
  | false, .created id => .ended (.registration (.ok ⟨id, false⟩)) (some id)
  | false, .replayed id => .ended (.registration (.ok ⟨id, true⟩)) none
  | false, .emailConflict => .replaying
  | false, .idempotencyConflict => .ended (.registration (.error .idempotencyConflict)) none

/-- `create` (organizations.rs:121-151) once its statement has been run. -/
def answerOrganization (lost : Bool) (outcome : CreateOrganizationOutcome) : KeyedPhase :=
  let created := match outcome with
    | .created view => some view.organizationId
    | _ => none
  .ended (.organization (if lost then .error .transport else outcome.response)) created

/-- `registration_replay` (postgres.rs:483) -/
def answerReplay (lost : Bool) (p : RegisterPassword) (db : Db) : Except RegistrationError RegistrationReceipt :=
  if lost then .error .transport
  else (registrationReplay p db).bind (okOr .emailAlreadyExists)

def advance (lost : Bool) (db : Db) (t : KeyedThread) : Option (Db × KeyedThread) :=
  match t.phase, t.call with
  | .started, _ => some (db, { t with phase := .running db })
  | .running snapshot, .register p =>
    match registerPasswordFrom snapshot p db with
    | .error _ => some (db, { t with phase := .ended (.registration (.error .transport)) none })
    | .ok (outcome, db') => some (db', { t with phase := answerRegistration lost outcome })
  | .running snapshot, .create p =>
    match createOrganizationFrom snapshot p db with
    | .error _ => some (db, { t with phase := .ended (.organization (.error .transport)) none })
    | .ok (outcome, db') => some (db', { t with phase := answerOrganization lost outcome })
  | .replaying, .register p => some (db, { t with phase := .ended (.registration (answerReplay lost p db)) none })
  | .replaying, .create _ | .ended .., _ => none

/-- What this call has inserted. -/
def created (t : KeyedThread) : Option Uuid :=
  match t.phase with
  | .ended _ created => created
  | _ => none

/-- What the caller is told. -/
def returned (t : KeyedThread) : Option Uuid :=
  match t.phase with
  | .ended result _ => result.entity
  | _ => none

end KeyedThread

def Command.isKeyed : Command → Bool
  | .registerPassword _ | .createOrganization _ => true
  | _ => false

/-- The commands that take no key: every registration and every creation is the statement of a call. -/
structure UnkeyedCommand where
  command : Command
  unkeyed : command.isKeyed = false

def keyedCalls : Calls.Service Db KeyedThread KeyedCall Bool UnkeyedCommand where
  start := KeyedThread.start
  advance := KeyedThread.advance
  command c db := db.step c.command

/-! ## One operation -/

/-- Stored results stay. -/
def KeepsKeys (db db' : Db) : Prop :=
  ∀ key row, db.idempotency.find? key = some row → db'.idempotency.find? key = some row

/-- `id` is stored as the result of the call. -/
def Db.StoresFor (call : KeyedCall) (id : Uuid) (db : Db) : Prop :=
  ∃ row, db.idempotency.find? call.key = some row ∧ row.binding = call.binding ∧ row.response = id

section Operation
variable {snapshot db db' : Db} {call : KeyedCall} {id : Uuid}

theorem KeepsKeys.refl (db : Db) : KeepsKeys db db := fun _ _ h => h

theorem Db.StoresFor.keep (hk : KeepsKeys db db') (h : db.StoresFor call id) : db'.StoresFor call id := by
  obtain ⟨row, hrow, hrest⟩ := h
  exact ⟨row, hk _ _ hrow, hrest⟩

theorem KeyedCall.Whole.stored (h : call.Whole db db') :
    ∃ row, row.binding = call.binding ∧ row.response = call.entityId ∧
      db.idempotency.insertOr SqlError.uniqueViolation row = .ok db'.idempotency := by
  cases call with
  | register p => exact ⟨p.idempotencyRow, rfl, rfl, h.idempotency⟩
  | create p =>
    obtain ⟨_, _, _, hfounded, -⟩ := h
    exact ⟨p.idempotencyRow, rfl, rfl, hfounded.idempotency⟩

theorem KeyedCall.Whole.keepsKeys (h : call.Whole db db') : KeepsKeys db db' := by
  obtain ⟨row, -, -, hins⟩ := h.stored
  exact fun _ _ hrow => Table.find?_insertOr_of_some hins hrow

theorem KeyedCall.Whole.fresh (h : call.Whole db db') : db.idempotency.find? call.key = none := by
  obtain ⟨row, hb, -, hins⟩ := h.stored
  have hkey : row.idempotencyKey = call.key := congrArg KeyBinding.idempotencyKey hb
  exact hkey ▸ (Table.insertOr_eq_ok hins).1

theorem KeyedCall.Whole.storesFor (h : call.Whole db db') : db'.StoresFor call call.entityId := by
  obtain ⟨row, hb, hid, hins⟩ := h.stored
  have hkey : call.key = row.idempotencyKey := (congrArg KeyBinding.idempotencyKey hb).symm
  refine ⟨row, ?_, hb, hid⟩
  rw [Table.find?_of_insertOr hins, if_pos hkey]

/-- What an operation of a keyed call can do. -/
inductive KeyedStep (t : KeyedThread) (db : Db) : Db → KeyedThread → Prop
  | snapshot (h : t.phase = .started) : KeyedStep t db db { t with phase := .running db }
  /-- Nothing is written, and what is returned was stored before. -/
  | answered {phase : KeyedPhase} (hphase : ∀ snapshot, phase ≠ .running snapshot)
      (hcreated : KeyedThread.created ⟨t.call, phase⟩ = none)
      (hreturned : ∀ id, KeyedThread.returned ⟨t.call, phase⟩ = some id → db.StoresFor t.call id) :
      KeyedStep t db db { t with phase := phase }
  | created {db' : Db} {result : KeyedResult} (hrun : postgres.next db t.call.command = some db')
      (hwhole : t.call.Whole db db')
      (hreturned : ∀ id, result.entity = some id → id = t.call.entityId) :
      KeyedStep t db db' { t with phase := .ended result (some t.call.entityId) }

theorem KeyedStep.ended {t : KeyedThread} {result : KeyedResult}
    (h : ∀ id, result.entity = some id → db.StoresFor t.call id) :
    KeyedStep t db db { t with phase := .ended result none } :=
  .answered (by simp) rfl h

theorem KeyedStep.failed {t : KeyedThread} {result : KeyedResult} (h : result.entity = none) :
    KeyedStep t db db { t with phase := .ended result none } :=
  .ended fun id hid => by simp [h] at hid

theorem storesFor_of_row {row : Idempotency} (hrow : db.idempotency.find? call.key = some row)
    (ha : row.actorKey = call.binding.actorKey) (ho : row.operation = call.binding.operation)
    (hh : row.requestHash = call.binding.requestHash) : db.StoresFor call row.response := by
  have hkey : row.idempotencyKey = call.key := (Table.find?_eq_some.1 hrow).2
  exact ⟨row, hrow, by rw [Idempotency.binding, hkey, ha, ho, hh]; rfl, rfl⟩

theorem step_register {lost : Bool} {p : RegisterPassword} {outcome : RegistrationOutcome} {phase : KeyedPhase}
    (hkeeps : KeepsKeys snapshot db) (h : registerPasswordFrom snapshot p db = .ok (outcome, db')) :
    KeyedStep ⟨.register p, phase⟩ db db' ⟨.register p, KeyedThread.answerRegistration lost outcome⟩ := by
  rcases registerPasswordFrom_cases h with ⟨row, hrow, ha, ho, hh, rfl, rfl⟩ | ⟨hr, rfl⟩ | ⟨rfl, hwhole, hok⟩
  · cases lost with
    | true => exact .failed rfl
    | false =>
      refine .ended fun id hid => ?_
      cases hid
      exact storesFor_of_row (hkeeps _ _ hrow) ha ho hh
  · rcases hr with rfl | rfl
    · cases lost <;> exact .failed rfl
    · cases lost with
      | true => exact .failed rfl
      | false =>
        have hstep : KeyedStep ⟨.register p, phase⟩ db' db' ⟨.register p, .replaying⟩ :=
          .answered (by simp) rfl (by simp [KeyedThread.returned])
        exact hstep
  · have hrun : postgres.next db (.registerPassword p) = some db' := next_of_execute (congrArg written hok)
    cases lost with
    | true => exact .created hrun hwhole (by simp [KeyedResult.entity])
    | false =>
      refine .created hrun hwhole fun id hid => ?_
      cases hid
      rfl

theorem replayOrganization_cases (p : CreateOrganization) (row : Idempotency) (db : Db) :
    replayOrganization p row db = .unauthorized ∨
      ∃ org, db.organizations.find? row.response = some org ∧
        replayOrganization p row db = .replayed (.of org "owner" db) := by
  unfold replayOrganization
  split
  · rename_i org _ horg _
    split
    · exact .inr ⟨org, horg, rfl⟩
    · exact .inl rfl
  · exact .inl rfl

theorem entity_of_decode {view : OrganizationView}
    (h : (KeyedResult.organization (decodeOrganization view)).entity = some id) : id = view.organizationId := by
  unfold decodeOrganization at h
  split at h
  · cases h
  · cases h
    rfl

theorem step_create {lost : Bool} {p : CreateOrganization} {outcome : CreateOrganizationOutcome} {phase : KeyedPhase}
    (htracked : Tracked db []) (hkeeps : KeepsKeys snapshot db)
    (h : createOrganizationFrom snapshot p db = .ok (outcome, db')) :
    KeyedStep ⟨.create p, phase⟩ db db' ⟨.create p, KeyedThread.answerOrganization lost outcome⟩ := by
  rcases createOrganizationFrom_cases h with
    ⟨row, hrow, ha, ho, hh, rfl, rfl⟩ | ⟨hr, rfl⟩ | ⟨session, user, view, rfl, hf, hok⟩
  · rcases replayOrganization_cases p row snapshot with hreplay | ⟨org, horg, hreplay⟩ <;> rw [hreplay]
    · cases lost <;> exact .failed rfl
    · cases lost with
      | true => exact .failed rfl
      | false =>
        refine .ended fun id hid => ?_
        have hid : id = row.response := (entity_of_decode hid).trans (Table.find?_eq_some.1 horg).2
        rw [hid]
        exact storesFor_of_row (hkeeps _ _ hrow) ha ho hh
  · rcases hr with rfl | rfl | rfl <;> cases lost <;> exact .failed rfl
  · have hview : view.organizationId = p.organizationId := by rw [hf.view]; rfl
    have hphase : KeyedThread.answerOrganization lost (.created view) =
        .ended (.organization (if lost then .error .transport else decodeOrganization view))
          (some p.organizationId) := by
      rw [← hview]
      rfl
    rw [hphase]
    refine .created (next_of_execute (congrArg written hok))
      ⟨session, user, view, hf, hf.ownerIntent htracked⟩ fun id hid => ?_
    cases lost with
    | true => cases hid
    | false => exact (entity_of_decode hid).trans hview

theorem step_replay {lost : Bool} {p : RegisterPassword} {phase : KeyedPhase} :
    KeyedStep ⟨.register p, phase⟩ db db
      ⟨.register p, .ended (.registration (KeyedThread.answerReplay lost p db)) none⟩ := by
  refine .ended fun id hid => ?_
  unfold KeyedThread.answerReplay registrationReplay at hid
  split at hid
  · cases hid
  · split at hid
    · cases hid
    · rename_i row hrow
      split at hid
      · rename_i hsame
        cases hid
        exact storesFor_of_row hrow hsame.1 hsame.2.1 hsame.2.2
      · cases hid

theorem step_of_advance {lost : Bool} {t t' : KeyedThread} (htracked : Tracked db [])
    (hkeeps : ∀ snapshot, t.phase = .running snapshot → KeepsKeys snapshot db)
    (h : t.advance lost db = some (db', t')) : KeyedStep t db db' t' := by
  obtain ⟨call, phase⟩ := t
  cases phase with
  | started =>
    cases h
    exact .snapshot rfl
  | running snapshot =>
    have hsnapshot := hkeeps snapshot rfl
    cases call with
    | register p =>
      simp only [KeyedThread.advance] at h
      split at h
      · cases h
        exact .failed rfl
      · rename_i hok
        cases h
        exact step_register hsnapshot hok
    | create p =>
      simp only [KeyedThread.advance] at h
      split at h
      · cases h
        exact .failed rfl
      · rename_i hok
        cases h
        exact step_create htracked hsnapshot hok
  | replaying =>
    cases call with
    | register p =>
      cases h
      exact step_replay
    | create p => cases h
  | ended => cases h

end Operation

/-! ## Every interleaving -/

/-- What holds of a call in every reachable state. -/
structure KeyedThread.Holds (db : Db) (t : KeyedThread) : Prop where
  snapshot : ∀ snapshot, t.phase = .running snapshot → KeepsKeys snapshot db
  created : ∀ id, t.created = some id → db.StoresFor t.call id
  returned : ∀ id, t.returned = some id → db.StoresFor t.call id

section Interleaving
variable {db db' : Db} {t t' : KeyedThread}

theorem created_of_step (h : KeyedStep t db db' t') : t'.call = t.call ∧
    (db' = db ∧ t'.created = none ∨ t.call.Whole db db' ∧ t'.created = some t.call.entityId) := by
  cases h with
  | snapshot => exact ⟨rfl, .inl ⟨rfl, rfl⟩⟩
  | answered _ hcreated => exact ⟨rfl, .inl ⟨rfl, hcreated⟩⟩
  | created _ hwhole => exact ⟨rfl, .inr ⟨hwhole, rfl⟩⟩

theorem tracked_of_step (h : KeyedStep t db db' t') (htracked : Tracked db []) : Tracked db' [] := by
  cases h with
  | snapshot | answered => exact htracked
  | created hrun => exact htracked.next hrun

theorem keepsKeys_of_step (h : KeyedStep t db db' t') : KeepsKeys db db' := by
  rcases (created_of_step h).2 with ⟨rfl, -⟩ | ⟨hwhole, -⟩
  · exact .refl _
  · exact hwhole.keepsKeys

theorem holds_of_step (h : KeyedStep t db db' t') : t'.Holds db' := by
  cases h with
  | snapshot =>
    refine ⟨fun snapshot hs => ?_, by simp [KeyedThread.created], by simp [KeyedThread.returned]⟩
    cases hs
    exact .refl _
  | answered hphase hcreated hreturned =>
    exact ⟨fun snapshot hs => absurd hs (hphase snapshot), fun id hid => by simp [hcreated] at hid, hreturned⟩
  | created _ hwhole hreturned =>
    refine ⟨by simp, fun id hid => ?_, fun id hid => ?_⟩
    · cases hid
      exact hwhole.storesFor
    · rw [hreturned id hid]
      exact hwhole.storesFor

theorem created_of_advance {lost : Bool} (h : t.advance lost db = some (db', t')) : t.created = none := by
  obtain ⟨call, phase⟩ := t
  cases phase with
  | ended => cases h
  | started | running | replaying => rfl

theorem idempotency_of_command (c : UnkeyedCommand) : (db.step c.command).idempotency = db.idempotency := by
  have hnext : postgres.next db c.command = some (db.step c.command) := rfl
  refine (frame_of_next hnext).idempotency ?_
  obtain ⟨command, hc⟩ := c
  cases command
  case registerPassword | createOrganization => cases hc
  all_goals simp [Command.writes]

theorem keyedCalls_upholds : keyedCalls.Upholds (fun db => Tracked db []) KeepsKeys KeyedThread.Holds where
  stable hk h :=
    ⟨fun snapshot hs => fun key row hrow => hk key row (h.snapshot snapshot hs key row hrow),
      fun id hid => (h.created id hid).keep hk, fun id hid => (h.returned id hid).keep hk⟩
  start _ _ := ⟨by simp [keyedCalls, KeyedThread.start], by simp [keyedCalls, KeyedThread.start, KeyedThread.created],
    by simp [keyedCalls, KeyedThread.start, KeyedThread.returned]⟩
  advance htracked h hadvance := by
    have hstep := step_of_advance htracked h.snapshot hadvance
    exact ⟨tracked_of_step hstep htracked, keepsKeys_of_step hstep, holds_of_step hstep⟩
  command {c d} htracked := by
    refine ⟨htracked.next (c := c.command) rfl, fun key row hrow => ?_⟩
    have hsame : (d.step c.command).idempotency = d.idempotency := idempotency_of_command c
    show (d.step c.command).idempotency.find? key = some row
    rw [hsame]
    exact hrow

/-- A call that creates finds nothing stored under its key, so no other has created under it. -/
theorem created_once {s : Calls.State Db KeyedThread} (hs : Reachable (keyedCalls.system Db.empty) s) :
    s.calls.Pairwise fun t t' => t.call.key = t'.call.key → t.created = none ∨ t'.created = none := by
  refine keyedCalls_upholds.pairwise (X := fun t t' => t.call.key = t'.call.key → t.created = none ∨ t'.created = none)
    (fun h hkey => (h hkey.symm).symm) (fun _ _ _ => .inr rfl) ?_ tracked_empty hs
  intro _ d t d' t' q htracked ht hq _ hadvance hkey
  obtain ⟨hcall, hcreated⟩ := created_of_step (step_of_advance htracked ht.snapshot hadvance)
  rcases hcreated with ⟨-, hnone⟩ | ⟨hwhole, -⟩
  · exact .inr hnone
  · refine .inl (Option.eq_none_iff_forall_ne_some.2 fun id hid => ?_)
    obtain ⟨row, hrow, -⟩ := hq.created id hid
    rw [hkey, hcall, hwhole.fresh] at hrow
    cases hrow

theorem index_eq_of_created {ts : List KeyedThread} {i j : Nat} {t t' : KeyedThread}
    (h : ts.Pairwise fun t t' => t.call.key = t'.call.key → t.created = none ∨ t'.created = none)
    (ht : ts[i]? = some t) (ht' : ts[j]? = some t') (hkey : t.call.key = t'.call.key) (hc : t.created.isSome)
    (hc' : t'.created.isSome) : i = j := by
  obtain ⟨hi, rfl⟩ := List.getElem?_eq_some_iff.1 ht
  obtain ⟨hj, rfl⟩ := List.getElem?_eq_some_iff.1 ht'
  rcases Nat.lt_trichotomy i j with hlt | rfl | hlt
  · rcases List.pairwise_iff_getElem.1 h i j hi hj hlt hkey with hnone | hnone
    · simp [hnone] at hc
    · simp [hnone] at hc'
  · rfl
  · rcases List.pairwise_iff_getElem.1 h j i hj hi hlt hkey.symm with hnone | hnone
    · simp [hnone] at hc'
    · simp [hnone] at hc

/-- Every stored result is that of a call which created its entity. -/
theorem stored_by_call {s : Calls.State Db KeyedThread} (hs : Reachable (keyedCalls.system Db.empty) s) :
    ∀ row ∈ s.data.idempotency, ∃ t ∈ s.calls, t.created = some row.response ∧ t.call.binding = row.binding := by
  refine keyedCalls_upholds.traced (M := fun db row => row ∈ db.idempotency)
    (W := fun t row => t.created = some row.response ∧ t.call.binding = row.binding) ?_ ?_ tracked_empty
    (fun row hrow => Table.not_mem_empty row hrow) hs
  · intro _ d t d' t' htracked ht hadvance row
    refine ⟨fun hW => ?_, fun hrow => ?_⟩
    · rw [created_of_advance hadvance] at hW
      cases hW.1
    · obtain ⟨hcall, hcreated⟩ := created_of_step (step_of_advance htracked ht.snapshot hadvance)
      rcases hcreated with ⟨rfl, -⟩ | ⟨hwhole, hid⟩
      · exact .inl hrow
      · obtain ⟨stored, hb, hresponse, hins⟩ := hwhole.stored
        rcases (Table.mem_of_insertOr hins).1 hrow with hrow | rfl
        · exact .inl hrow
        · exact .inr ⟨hid.trans (congrArg some hresponse.symm), by rw [hcall, hb]⟩
  · intro c d row hrow
    have hsame : (d.step c.command).idempotency = d.idempotency := idempotency_of_command c
    have hrow : row ∈ (d.step c.command).idempotency := hrow
    rwa [hsame] at hrow

end Interleaving

/-- In every interleaving of keyed calls with each other and with any other commands: at most one call creates under
a key; what a successful call returns was created by a call with the same key, actor, operation and request hash; a
call whose key is stored for another request has created and returned nothing; and each operation of a call inserts
all of the call's rows or writes nothing. -/
theorem keyed_calls_create_once {s : Calls.State Db KeyedThread} (hs : Reachable (keyedCalls.system Db.empty) s) :
    (∀ (i j : Nat) (t t' : KeyedThread), s.calls[i]? = some t → s.calls[j]? = some t' → t.call.key = t'.call.key →
      t.created.isSome → t'.created.isSome → i = j) ∧
    (∀ t ∈ s.calls, ∀ id, t.returned = some id →
      ∃ t' ∈ s.calls, t'.call.binding = t.call.binding ∧ t'.created = some id) ∧
    (∀ t ∈ s.calls, ∀ row, s.data.idempotency.find? t.call.key = some row → row.binding ≠ t.call.binding →
      t.created = none ∧ t.returned = none) ∧
    ∀ (i : Nat) (lost : Bool) (t : KeyedThread) (s' : Calls.State Db KeyedThread), s.calls[i]? = some t →
      (keyedCalls.system Db.empty).next s (.advance i lost) = some s' →
        ∃ t', s'.calls[i]? = some t' ∧ (s'.data = s.data ∧ t'.created = none ∨
          t.call.Whole s.data s'.data ∧ t'.created = some t.call.entityId) := by
  obtain ⟨htracked, hholds⟩ := keyedCalls_upholds.each tracked_empty hs
  refine ⟨fun i j t t' ht ht' hkey hc hc' => ?_, fun t ht id hid => ?_, fun t ht row hrow hother => ⟨?_, ?_⟩,
    fun i lost t s' ht hnext => ?_⟩
  · exact index_eq_of_created (created_once hs) ht ht' hkey hc hc'
  · obtain ⟨row, hrow, hb, rfl⟩ := (hholds t ht).returned id hid
    obtain ⟨t', ht', hcreated, hb'⟩ := stored_by_call hs row (Table.find?_eq_some.1 hrow).1
    exact ⟨t', ht', hb'.trans hb, hcreated⟩
  · refine Option.eq_none_iff_forall_ne_some.2 fun id hid => ?_
    obtain ⟨row', hrow', hb, -⟩ := (hholds t ht).created id hid
    cases hrow.symm.trans hrow'
    exact hother hb
  · refine Option.eq_none_iff_forall_ne_some.2 fun id hid => ?_
    obtain ⟨row', hrow', hb, -⟩ := (hholds t ht).returned id hid
    cases hrow.symm.trans hrow'
    exact hother hb
  · rw [Calls.next_advance ht, Option.map_eq_some_iff] at hnext
    obtain ⟨⟨db', t'⟩, hadvance, rfl⟩ := hnext
    obtain ⟨hlt, -⟩ := List.getElem?_eq_some_iff.1 ht
    have hstep := step_of_advance htracked (hholds t (List.mem_of_getElem? ht)).snapshot hadvance
    exact ⟨t', by simp [hlt], (created_of_step hstep).2⟩

/-- Twins that register the same account, and another that reuses the key for a different request. -/
def twin (userId outboxId : Uuid) (tokenHash requestHash : Bytes) (email : String) : RegisterPassword :=
  { signUp "register" email userId outboxId tokenHash with requestHash := requestHash }

/-- All three take their snapshots before any of them has written. -/
def sampleTwins : List (Calls.Action KeyedCall Bool UnkeyedCommand) :=
  [.call (.register (twin ⟨1⟩ ⟨101⟩ [1] [0] "a@example.com")),
    .call (.register (twin ⟨2⟩ ⟨102⟩ [2] [0] "a@example.com")),
    .call (.register (twin ⟨3⟩ ⟨103⟩ [3] [9] "b@example.com")),
    .advance 0 false, .advance 1 false, .advance 2 false, .advance 0 false, .advance 2 false, .advance 1 false,
    .advance 1 false]

/-- The first creates the account, the second returns it, and the third fails. -/
theorem twins_register_once : ∃ s : Calls.State Db KeyedThread, Reachable (keyedCalls.system Db.empty) s ∧
    s.calls.map KeyedThread.created = [some ⟨1⟩, none, none] ∧
      s.calls.map KeyedThread.returned = [some ⟨1⟩, some ⟨1⟩, none] ∧
        ∀ t ∈ s.calls, ∀ id, t.returned = some id →
          ∃ t' ∈ s.calls, t'.call.binding = t.call.binding ∧ t'.created = some id := by
  obtain ⟨s, hs, htest⟩ := exists_reachable_of_run (keyedCalls.system Db.empty) sampleTwins
    (fun s => decide (s.calls.map KeyedThread.created = [some ⟨1⟩, none, none] ∧
      s.calls.map KeyedThread.returned = [some ⟨1⟩, some ⟨1⟩, none])) (by decide +kernel)
  obtain ⟨hcreated, hreturned⟩ := of_decide_eq_true htest
  exact ⟨s, hs, hcreated, hreturned, (keyed_calls_create_once hs).2.1⟩

end WasiAuth
