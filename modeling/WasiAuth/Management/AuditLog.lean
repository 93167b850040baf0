import WasiAuth.Base.Feed
import WasiAuth.Identity.Session
import WasiAuth.Management.AccessModel
import WasiAuth.Postgres.Commands

/-! # Reading the audit log

A transaction takes the sequence numbers of its audit rows when it inserts them; the rows are visible once it has
committed. Transactions commit in any order, so a row may become visible below rows that are visible already. The
reader pages through the log with the cursor it is given (`Base/Feed.lean`).
-/

namespace WasiAuth

open Relational Transition

/-! ## The log -/

/-- `auth_audit_log`, the columns the query reads, and the transaction that inserted the row. The statements write a
sequence number and a time that are not negative. -/
structure AuditRow where
  sequence : Nat
  organizationId : Option Uuid
  actorUserId : Option Uuid
  action : String
  resourceType : String
  resourceId : String
  outcome : String
  occurredAtMs : Nat
  transaction : Nat
deriving DecidableEq

/-- management.rs:128 -/
structure AuditEventRecord where
  sequence : Nat
  organizationId : Option String
  actorUserId : String
  action : String
  resourceType : String
  resourceId : String
  outcome : String
  occurredAtMs : Nat
deriving DecidableEq

/-- The columns the query selects, as `decode_audit` reads them. -/
def AuditRow.record (row : AuditRow) : AuditEventRecord where
  sequence := row.sequence
  organizationId := row.organizationId.map Uuid.text
  actorUserId := row.actorUserId.elim "system" Uuid.text
  action := row.action
  resourceType := row.resourceType
  resourceId := row.resourceId
  outcome := row.outcome
  occurredAtMs := row.occurredAtMs

/-- `$2::text IS NULL OR audit.organization_id = $2::text::uuid`. -/
def AuditRow.inScope (organization : Option Uuid) (row : AuditRow) : Bool :=
  decide (organization = none ∨ row.organizationId = organization)

/-- The table with the state of its sequence, and the transactions that have ended. -/
structure AuditLog where
  rows : List AuditRow := []
  nextSequence : Nat := 1
  committed : List Nat := []
  rolledBack : List Nat := []

namespace AuditLog

def isOpen (transaction : Nat) (log : AuditLog) : Bool :=
  decide (transaction ∉ log.committed ∧ transaction ∉ log.rolledBack)

/-- A transaction inserts a row, which gets the next number; the numbers end with `bigint`. -/
def insert (transaction : Nat) (row : AuditRow) (log : AuditLog) : Option AuditLog :=
  if log.isOpen transaction ∧ log.nextSequence < 2 ^ 63 then
    some { log with rows := log.rows ++ [{ row with sequence := log.nextSequence, transaction := transaction }]
                    nextSequence := log.nextSequence + 1 }
  else none

def commit (transaction : Nat) (log : AuditLog) : Option AuditLog :=
  if log.isOpen transaction then some { log with committed := transaction :: log.committed } else none

def rollback (transaction : Nat) (log : AuditLog) : Option AuditLog :=
  if log.isOpen transaction then some { log with rolledBack := transaction :: log.rolledBack } else none

/-- The rows of committed transactions. -/
def visible (organization : Option Uuid) (log : AuditLog) : List AuditRow :=
  log.rows.filter fun row => decide (row.transaction ∈ log.committed) && row.inScope organization

/-- What `list_audit_events.sql` selects from. -/
def events (organization : Option Uuid) (log : AuditLog) : List AuditEventRecord :=
  (log.visible organization).map AuditRow.record

end AuditLog

/-! ## The query -/

/-- `authorized`: an administrator, or a member whose role may view the audit log of the organization. -/
def Db.mayViewAudit (sessionId : Uuid) (organization : Option Uuid) (nowMs : Int) (db : Db) : Bool :=
  (db.administratorActor sessionId nowMs).isSome ||
    organization.any fun organization =>
      (db.memberActor sessionId organization nowMs).any fun (_, _, membership) =>
        db.hasPermission organization membership.roleId "audit.view"

/-- management.rs:149 -/
structure AuditPage where
  events : List AuditEventRecord
  nextCursor : Nat
deriving DecidableEq

/-- A reader: the session and the organization of its calls. `parseUuid` is `Uuid::parse_str`. -/
structure AuditReader where
  parseUuid : String → Option Uuid
  sessionId : SessionId
  organizationId : Option String

namespace AuditReader

variable (reader : AuditReader)

def organization : Option Uuid := reader.organizationId.bind reader.parseUuid

/-- management.rs:711 -/
def listAuditEvents (afterCursor limit nowUnixSeconds : Nat) (db : Db) (log : AuditLog) :
    Except ManagementError AuditPage :=
  if limit = 0 ∨ 100 < limit then .error .invalidRequest
  else do
    let organization ← reader.organizationId.mapM fun text => okOr .invalidRequest (reader.parseUuid text)
    let sessionId ← okOr .transport (Uuid.ofText? reader.sessionId.value)
    if !db.mayViewAudit sessionId organization (unixMs nowUnixSeconds) then .error .notAuthorized
    else
      -- the cursor travels as `bigint`
      let events := Feed.page AuditEventRecord.sequence (u64ToI64 afterCursor).toNat limit (log.events organization)
      pure ⟨events, Feed.nextCursor AuditEventRecord.sequence afterCursor events⟩

end AuditReader

/-! ## A reader beside the transactions -/

/-- The log, and a reader with its cursor and what it was given. -/
structure AuditState where
  db : Db
  log : AuditLog
  cursor : Nat
  seen : List AuditEventRecord

inductive AuditAction
  | insert (transaction : Nat) (row : AuditRow)
  | commit (transaction : Nat)
  | rollback (transaction : Nat)
  | command (c : Command)
  | read (limit nowUnixSeconds : Nat)

def AuditState.list (reader : AuditReader) (limit nowUnixSeconds : Nat) (s : AuditState) :
    Except ManagementError AuditPage :=
  reader.listAuditEvents s.cursor limit nowUnixSeconds s.db s.log

def AuditState.read (reader : AuditReader) (limit nowUnixSeconds : Nat) (s : AuditState) : AuditState :=
  match s.list reader limit nowUnixSeconds with
  | .error _ => s
  | .ok page => { s with cursor := page.nextCursor, seen := s.seen ++ page.events }

def auditing (reader : AuditReader) (db : Db) : System AuditState AuditAction where
  init := ⟨db, {}, 0, []⟩
  next s
    | .insert transaction row => (s.log.insert transaction row).map fun log => { s with log := log }
    | .commit transaction => (s.log.commit transaction).map fun log => { s with log := log }
    | .rollback transaction => (s.log.rollback transaction).map fun log => { s with log := log }
    | .command c => some { s with db := s.db.step c }
    | .read limit nowUnixSeconds => some (s.read reader limit nowUnixSeconds)

/-! ## One step -/

/-- What an action does. -/
inductive AuditStep (reader : AuditReader) (s : AuditState) : AuditAction → AuditState → Prop
  | insert (transaction : Nat) (row : AuditRow) (hopen : s.log.isOpen transaction = true)
      (hnumber : s.log.nextSequence < 2 ^ 63) :
      AuditStep reader s (.insert transaction row) { s with log := { s.log with
        rows := s.log.rows ++ [{ row with sequence := s.log.nextSequence, transaction := transaction }]
        nextSequence := s.log.nextSequence + 1 } }
  | commit (transaction : Nat) (hopen : s.log.isOpen transaction = true) :
      AuditStep reader s (.commit transaction)
        { s with log := { s.log with committed := transaction :: s.log.committed } }
  | rollback (transaction : Nat) (hopen : s.log.isOpen transaction = true) :
      AuditStep reader s (.rollback transaction)
        { s with log := { s.log with rolledBack := transaction :: s.log.rolledBack } }
  | command (c : Command) : AuditStep reader s (.command c) { s with db := s.db.step c }
  | read (limit nowUnixSeconds : Nat) :
      AuditStep reader s (.read limit nowUnixSeconds) (s.read reader limit nowUnixSeconds)

section Steps
variable {reader : AuditReader} {db : Db} {s s' : AuditState} {a : AuditAction} {organization : Option Uuid}

theorem auditStep_of_next (h : (auditing reader db).next s a = some s') : AuditStep reader s a s' := by
  cases a with
  | insert transaction row =>
    obtain ⟨log, hlog, rfl⟩ := Option.map_eq_some_iff.1 h
    unfold AuditLog.insert at hlog
    split at hlog
    · rename_i hchecks
      cases hlog
      exact .insert transaction row hchecks.1 hchecks.2
    · cases hlog
  | commit transaction =>
    obtain ⟨log, hlog, rfl⟩ := Option.map_eq_some_iff.1 h
    unfold AuditLog.commit at hlog
    split at hlog
    · cases hlog
      exact .commit transaction ‹_›
    · cases hlog
  | rollback transaction =>
    obtain ⟨log, hlog, rfl⟩ := Option.map_eq_some_iff.1 h
    unfold AuditLog.rollback at hlog
    split at hlog
    · cases hlog
      exact .rollback transaction ‹_›
    · cases hlog
  | command c => cases h; exact .command c
  | read limit nowUnixSeconds => cases h; exact .read limit nowUnixSeconds

theorem AuditReader.listAuditEvents_eq_ok {afterCursor limit nowUnixSeconds : Nat} {log : AuditLog} {page : AuditPage}
    (h : reader.listAuditEvents afterCursor limit nowUnixSeconds db log = .ok page) (hcursor : afterCursor < 2 ^ 63) :
    0 < limit ∧ page.events = Feed.page AuditEventRecord.sequence afterCursor limit (log.events reader.organization) ∧
      page.nextCursor = Feed.nextCursor AuditEventRecord.sequence afterCursor page.events := by
  unfold AuditReader.listAuditEvents at h
  split at h
  · cases h
  · rename_i hlimit
    obtain ⟨organization, horganization, h⟩ := bind_eq_ok.1 h
    obtain ⟨_, -, h⟩ := bind_eq_ok.1 h
    have hscope : organization = reader.organization := by
      unfold AuditReader.organization
      cases htext : reader.organizationId with
      | none =>
        rw [htext] at horganization
        cases horganization
        rfl
      | some text =>
        rw [htext] at horganization
        obtain ⟨id, hid, h⟩ := bind_eq_ok.1 horganization
        cases h
        exact (okOr_eq_ok.1 hid).symm
    have hnumber : (u64ToI64 afterCursor).toNat = afterCursor := by
      unfold u64ToI64
      omega
    split at h
    · cases h
    · cases h
      rw [hnumber, hscope]
      exact ⟨by omega, rfl, rfl⟩

/-- The rows are in the order of their numbers, which are below the next one; the cursor is a `bigint`. -/
structure AuditState.Sound (s : AuditState) : Prop where
  ordered : (s.log.rows.map AuditRow.sequence).Pairwise (· < ·)
  below : ∀ row ∈ s.log.rows, row.sequence < s.log.nextSequence
  number : s.log.nextSequence ≤ 2 ^ 63
  cursor : s.cursor < 2 ^ 63

theorem AuditLog.mem_events {log : AuditLog} {e : AuditEventRecord} : e ∈ log.events organization ↔
    ∃ row ∈ log.rows, row.transaction ∈ log.committed ∧ row.inScope organization = true ∧ row.record = e := by
  simp only [AuditLog.events, AuditLog.visible, List.mem_map, List.mem_filter, Bool.and_eq_true, decide_eq_true_eq]
  constructor
  · rintro ⟨row, ⟨hrow, hcommitted, hscope⟩, rfl⟩
    exact ⟨row, hrow, hcommitted, hscope, rfl⟩
  · rintro ⟨row, hrow, hcommitted, hscope, rfl⟩
    exact ⟨row, ⟨hrow, hcommitted, hscope⟩, rfl⟩

theorem AuditState.Sound.distinct (h : s.Sound) :
    ((s.log.events organization).map AuditEventRecord.sequence).Nodup := by
  have hnodup : (s.log.rows.map AuditRow.sequence).Nodup := h.ordered.imp fun hlt => hlt.ne
  rw [AuditLog.events, List.map_map]
  exact hnodup.sublist (List.filter_sublist.map _)

theorem AuditState.Sound.eq_of_sequence (h : s.Sound) {row row' : AuditRow} (hrow : row ∈ s.log.rows)
    (hrow' : row' ∈ s.log.rows) (hsequence : row.sequence = row'.sequence) : row = row' :=
  List.inj_on_of_nodup_map (h.ordered.imp fun hlt => hlt.ne) hrow hrow' hsequence

theorem AuditState.Sound.read (h : s.Sound) {limit nowUnixSeconds : Nat} :
    (s.read reader limit nowUnixSeconds).Sound := by
  unfold AuditState.read
  split
  · exact h
  · rename_i page hpage
    obtain ⟨-, hevents, hnext⟩ := AuditReader.listAuditEvents_eq_ok hpage h.cursor
    refine ⟨h.ordered, h.below, h.number, ?_⟩
    simp only [hnext, hevents]
    rcases Feed.page_cases AuditEventRecord.sequence s.cursor limit (s.log.events reader.organization) with
      ⟨-, hcursor⟩ | ⟨last, hlast, hcursor, -⟩
    · rw [hcursor]
      exact h.cursor
    · obtain ⟨row, hrow, -, -, rfl⟩ := AuditLog.mem_events.1 (Feed.mem_of_mem_page hlast).1
      rw [hcursor]
      exact (h.below row hrow).trans_le h.number

theorem AuditStep.sound (hstep : AuditStep reader s a s') (h : s.Sound) : s'.Sound := by
  cases hstep with
  | insert transaction row hopen hnumber =>
    refine ⟨?_, fun r hr => ?_, hnumber, h.cursor⟩
    · rw [List.map_append, List.pairwise_append]
      refine ⟨h.ordered, List.pairwise_singleton _ _, fun a ha b hb => ?_⟩
      obtain ⟨r, hr, rfl⟩ := List.mem_map.1 ha
      rw [List.mem_singleton.1 hb]
      exact h.below r hr
    · rcases List.mem_append.1 hr with hr | hr
      · exact Nat.lt_succ_of_lt (h.below r hr)
      · rw [List.mem_singleton.1 hr]
        exact Nat.lt_succ_self _
  | commit => exact ⟨h.ordered, h.below, h.number, h.cursor⟩
  | rollback => exact ⟨h.ordered, h.below, h.number, h.cursor⟩
  | command => exact ⟨h.ordered, h.below, h.number, h.cursor⟩
  | read => exact h.read

theorem sound_of_reachable (h : Reachable (auditing reader db) s) : s.Sound := by
  have hinit : (auditing reader db).init.Sound :=
    ⟨List.Pairwise.nil, fun _ hr => (nomatch hr), (by decide : 1 ≤ 2 ^ 63), (by decide : 0 < 2 ^ 63)⟩
  exact ReachableBy.invariant hinit (fun hs _ hn => (auditStep_of_next hn).sound hs) h

theorem AuditState.read_log {limit nowUnixSeconds : Nat} : (s.read reader limit nowUnixSeconds).log = s.log := by
  unfold AuditState.read
  split <;> rfl

/-- What is visible after a step was visible before it, or is a row of the transaction that has committed. -/
theorem AuditStep.mem_events_iff (hstep : AuditStep reader s a s') {e : AuditEventRecord} :
    e ∈ s'.log.events organization ↔ e ∈ s.log.events organization ∨
      ∃ transaction, a = .commit transaction ∧ ∃ row ∈ s.log.rows, row.transaction = transaction ∧
        row.inScope organization = true ∧ row.record = e := by
  cases hstep with
  | insert transaction row hopen =>
    simp only [reduceCtorEq, false_and, exists_false, or_false, AuditLog.mem_events, List.mem_append,
      List.mem_singleton]
    constructor
    · rintro ⟨r, hr | rfl, hcommitted, hscope, rfl⟩
      · exact ⟨r, hr, hcommitted, hscope, rfl⟩
      · exact absurd hcommitted (of_decide_eq_true hopen).1
    · rintro ⟨r, hr, hcommitted, hscope, rfl⟩
      exact ⟨r, .inl hr, hcommitted, hscope, rfl⟩
  | commit transaction =>
    simp only [AuditLog.mem_events, List.mem_cons, AuditAction.commit.injEq, exists_eq_left']
    constructor
    · rintro ⟨r, hr, rfl | hcommitted, hscope, rfl⟩
      · exact .inr ⟨r, hr, rfl, hscope, rfl⟩
      · exact .inl ⟨r, hr, hcommitted, hscope, rfl⟩
    · rintro (⟨r, hr, hcommitted, hscope, rfl⟩ | ⟨r, hr, rfl, hscope, rfl⟩)
      · exact ⟨r, hr, .inr hcommitted, hscope, rfl⟩
      · exact ⟨r, hr, .inl rfl, hscope, rfl⟩
  | rollback => simp [AuditLog.mem_events]
  | command => simp
  | read => simp [AuditState.read_log]

theorem AuditStep.of_commit {transaction : Nat} (hstep : AuditStep reader s (.commit transaction) s') :
    transaction ∉ s.log.committed ∧ s'.cursor = s.cursor := by
  cases hstep with
  | commit _ hopen => exact ⟨(of_decide_eq_true hopen).1, rfl⟩

end Steps

/-! ## Runs -/

section Paths
variable {reader : AuditReader} {db : Db}

/-- The reader never stops reading. -/
def Reads (path : Path (auditing reader db)) : Prop :=
  ∀ n, ∃ m ≥ n, ∃ limit nowUnixSeconds page,
    path.action m = .read limit nowUnixSeconds ∧ (path.state m).list reader limit nowUnixSeconds = .ok page

def readLimit (path : Path (auditing reader db)) (n : Nat) : Option Nat :=
  match path.action n with
  | .read limit nowUnixSeconds => if ((path.state n).list reader limit nowUnixSeconds).isOk then some limit else none
  | _ => none

def AuditState.feed (s : AuditState) : Feed.Reader AuditEventRecord := ⟨s.cursor, s.seen⟩

theorem AuditState.Sound.feed_read {s : AuditState} (h : s.Sound) {limit nowUnixSeconds : Nat} {page : AuditPage}
    (hpage : s.list reader limit nowUnixSeconds = .ok page) :
    0 < limit ∧ (s.read reader limit nowUnixSeconds).feed =
      s.feed.read AuditEventRecord.sequence limit (s.log.events reader.organization) := by
  obtain ⟨hlimit, hevents, hnext⟩ := AuditReader.listAuditEvents_eq_ok hpage h.cursor
  refine ⟨hlimit, ?_⟩
  simp only [AuditState.read, hpage, AuditState.feed, Feed.Reader.read, hnext, hevents]

theorem feed_step (path : Path (auditing reader db)) (n : Nat) :
    (path.state (n + 1)).feed = (readLimit path n).elim (path.state n).feed fun limit =>
      (path.state n).feed.read AuditEventRecord.sequence limit ((path.state n).log.events reader.organization) := by
  have hsound := sound_of_reachable (path.reachable n)
  have hstep := auditStep_of_next (path.step n)
  unfold readLimit
  generalize path.state (n + 1) = s' at hstep
  generalize path.action n = a at hstep
  cases hstep with
  | insert | commit | rollback | command => rfl
  | read limit nowUnixSeconds =>
    cases hpage : (path.state n).list reader limit nowUnixSeconds with
    | error e =>
      simp only [AuditState.read, hpage, Except.isOk, Except.toBool, Bool.false_eq_true, if_false, Option.elim_none]
    | ok page =>
      simp only [hpage, Except.isOk, Except.toBool, if_true, Option.elim_some]
      exact (hsound.feed_read hpage).2

def feedRun (path : Path (auditing reader db)) (hreads : Reads path) : Feed.Run AuditEventRecord.sequence where
  rows n := (path.state n).log.events reader.organization
  limit := readLimit path
  reader n := (path.state n).feed
  rows_zero := by
    rw [path.init]
    rfl
  reader_zero := by
    rw [path.init]
    rfl
  step := feed_step path
  grows n _ he := (auditStep_of_next (path.step n)).mem_events_iff.2 (.inl he)
  distinct n := (sound_of_reachable (path.reachable n)).distinct
  fair n := by
    obtain ⟨m, hm, limit, nowUnixSeconds, page, haction, hpage⟩ := hreads n
    refine ⟨m, hm, limit, ((sound_of_reachable (path.reachable m)).feed_read hpage).1, ?_⟩
    simp only [readLimit, haction, hpage, Except.isOk, Except.toBool, if_true]

/-- **What a reader of the audit log misses.** A reader that calls again and again sees every committed event of its
scope exactly once, if and only if every event commits while the cursor is still below its number. -/
theorem reader_sees_every_event_iff (path : Path (auditing reader db)) (hreads : Reads path) :
    (∀ n, ∀ e ∈ (path.state n).log.events reader.organization,
        ∃ m, ∀ k ≥ m, (path.state k).seen.count e = 1) ↔
      ∀ n transaction, path.action n = .commit transaction → ∀ row ∈ (path.state n).log.rows,
        row.transaction = transaction → row.inScope reader.organization = true →
          (path.state n).cursor < row.sequence := by
  refine (feedRun path hreads).complete_iff.trans ⟨fun h n transaction haction row hrow htransaction hscope => ?_,
    fun h n e he hnew => ?_⟩
  · have hstep := auditStep_of_next (path.step n)
    rw [haction] at hstep
    obtain ⟨hopen, hcursor⟩ := hstep.of_commit
    have hvisible : row.record ∈ (path.state (n + 1)).log.events reader.organization :=
      hstep.mem_events_iff.2 (.inr ⟨transaction, rfl, row, hrow, htransaction, hscope, rfl⟩)
    have hnew : row.record ∉ (path.state n).log.events reader.organization := by
      intro hold
      obtain ⟨row', hrow', hcommitted, -, hrecord⟩ := AuditLog.mem_events.1 hold
      have hsame : row' = row := (sound_of_reachable (path.reachable n)).eq_of_sequence hrow' hrow
        (congrArg AuditEventRecord.sequence hrecord)
      rw [hsame, htransaction] at hcommitted
      exact hopen hcommitted
    have habove : (path.state (n + 1)).cursor < row.sequence := h n row.record hvisible hnew
    rwa [hcursor] at habove
  · have hstep := auditStep_of_next (path.step n)
    obtain ⟨transaction, haction, row, hrow, htransaction, hscope, rfl⟩ :=
      (hstep.mem_events_iff.1 he).resolve_left hnew
    rw [haction] at hstep
    have habove : (path.state n).cursor < row.sequence := h n transaction haction row hrow htransaction hscope
    rw [← hstep.of_commit.2] at habove
    exact habove

theorem exists_reading_path {actions : List AuditAction} {s : AuditState} {limit nowUnixSeconds : Nat}
    (hrun : (auditing reader db).run (auditing reader db).init actions = some s)
    (hdrained : s.list reader limit nowUnixSeconds = .ok ⟨[], s.cursor⟩) :
    ∃ path : Path (auditing reader db), Reads path ∧
      (∀ n, path.action n = actions.getD n (.read limit nowUnixSeconds)) ∧
        ∀ n, (auditing reader db).run (auditing reader db).init (actions.take n) = some (path.state n) := by
  have hloop : (auditing reader db).next s (.read limit nowUnixSeconds) = some s := by
    simp only [auditing, AuditState.read, hdrained, List.append_nil]
  obtain ⟨path, haction, hstate⟩ := exists_path_of_run hrun hloop
  have hend (n : Nat) (hn : actions.length ≤ n) : path.state n = s := by
    have h := hstate n
    rw [List.take_of_length_le hn, hrun] at h
    exact (Option.some.inj h).symm
  refine ⟨path, fun n => ⟨max n actions.length, le_max_left _ _, limit, nowUnixSeconds, ⟨[], s.cursor⟩, ?_, ?_⟩,
    haction, hstate⟩
  · rw [haction]
    simp [List.getD_eq_getElem?_getD]
  · rw [hend _ (le_max_right _ _)]
    exact hdrained

end Paths

section Samples

/-- The founder of Acme, an administrator, reads the whole log. -/
def founderReader : AuditReader := ⟨Uuid.ofText?, ⟨"00000000-0000-0000-0000-000000000002", by decide⟩, none⟩

def acme : Db := foundAcme.foldl Db.step Db.empty

def loginRow : AuditRow := ⟨0, none, some ⟨1⟩, "auth.password.login", "session", "2", "succeeded", 0, 0⟩

def readsLogin : List AuditAction := [.insert 1 loginRow, .commit 1, .read 10 1]

/-- Two transactions insert a row each; the second one commits first, and the reader calls before the other does. -/
def commitsOutOfOrder : List AuditAction :=
  [.insert 1 loginRow, .insert 2 loginRow, .commit 2, .read 10 1, .commit 1]

theorem exists_path_of_test (actions : List AuditAction) (test : AuditState → Bool)
    (h : ((auditing founderReader acme).run (auditing founderReader acme).init actions).any (fun s =>
      decide (s.list founderReader 10 1 = .ok ⟨[], s.cursor⟩) && test s) = true) :
    ∃ path : Path (auditing founderReader acme), Reads path ∧ (∀ n, path.action n = actions.getD n (.read 10 1)) ∧
      (∀ n, (auditing founderReader acme).run (auditing founderReader acme).init (actions.take n) =
        some (path.state n)) ∧ test (path.state actions.length) = true := by
  obtain ⟨s, hrun, hfacts⟩ := (Option.any_eq_true _ _).1 h
  obtain ⟨hdrained, htest⟩ := Bool.and_eq_true_iff.1 hfacts
  obtain ⟨path, hreads, haction, hstate⟩ := exists_reading_path hrun (of_decide_eq_true hdrained)
  have hend := hstate actions.length
  rw [List.take_length, hrun] at hend
  exact ⟨path, hreads, haction, hstate, Option.some.inj hend ▸ htest⟩

theorem login_seen_once : ∃ path : Path (auditing founderReader acme), Reads path ∧
    ∃ e ∈ (path.state 3).log.events none, ∃ m, ∀ k ≥ m, (path.state k).seen.count e = 1 := by
  obtain ⟨path, hreads, haction, hstate, htest⟩ := exists_path_of_test readsLogin
    (fun s => decide ({ loginRow with sequence := 1 }.record ∈ s.log.events none)) (by decide +kernel)
  refine ⟨path, hreads, _, of_decide_eq_true htest, (reader_sees_every_event_iff path hreads).2 ?_ 3 _
    (of_decide_eq_true htest)⟩
  intro n transaction hcommit row hrow htransaction hscope
  rw [haction] at hcommit
  match n with
  | 0 | 2 | _ + 3 => cases hcommit
  | 1 =>
    have hfirst := hstate 1
    have hstart : path.state 1 = ⟨acme, { rows := [{ loginRow with sequence := 1, transaction := 1 }]
                                          nextSequence := 2 }, 0, []⟩ := (Option.some.inj hfirst).symm
    rw [hstart] at hrow ⊢
    rw [List.mem_singleton.1 hrow]
    exact Nat.zero_lt_one

/-- An event that commits behind the cursor is never seen. -/
theorem exists_event_never_seen : ∃ path : Path (auditing founderReader acme), Reads path ∧
    ∃ n, ∃ e ∈ (path.state n).log.events none, ∀ m, e ∉ (path.state m).seen := by
  obtain ⟨path, hreads, -, -, htest⟩ := exists_path_of_test commitsOutOfOrder
    (fun s => decide ({ loginRow with sequence := 1 }.record ∈ s.log.events none) &&
      (decide ({ loginRow with sequence := 1 }.record ∉ s.seen) && decide (1 ≤ s.cursor))) (by decide +kernel)
  obtain ⟨hvisible, hfacts⟩ := Bool.and_eq_true_iff.1 htest
  obtain ⟨hunseen, hcursor⟩ := Bool.and_eq_true_iff.1 hfacts
  refine ⟨path, hreads, 5, _, of_decide_eq_true hvisible, fun m hseen => ?_⟩
  have hlater := (feedRun path hreads).not_seen (of_decide_eq_true hunseen) (of_decide_eq_true hcursor)
    (le_max_right m 5)
  exact hlater.1 ((feedRun path hreads).seen_mono (le_max_left m 5) hseen)

end Samples

end WasiAuth
