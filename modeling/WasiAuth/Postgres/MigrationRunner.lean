import WasiAuth.Base.Transition
import WasiAuth.Postgres.Migrations

/-! # The migration runner

`MigrationRunner::run` with `Apply` (`schema/native.rs` 95-117, 181-367), by any number of processes on one database. An
advisory lock keeps them apart; PostgreSQL gives it up when the session of a process ends, which may be at any point. A
transactional migration and its row are one transaction. The document of an autocommit migration runs before its row is
written, so a process that stops in between leaves it to be run again. The only one (`0012`) builds an index with
`CREATE UNIQUE INDEX CONCURRENTLY IF NOT EXISTS`: a build that fails leaves an index that is not valid, and a later run
of the document leaves that index as it is.

A move is one call of the database with what it answers; `fail` is one that is answered by an error and writes nothing.
The processes that wait for the lock have no part in it, and what `pg_advisory_unlock` answers changes nothing here.
-/

namespace WasiAuth

open Relational Transition

/-- schema/native.rs:372 -/
inductive MigrationRunnerError
  | postgres
  | plan (error : SchemaPlanError)
  | pendingMigrations
  | unsupportedAutocommitMigration (version : String)
  | invalidMigrationPostcondition (version : String)
  | missingTables (names : String)
deriving DecidableEq

/-- schema/native.rs:63 -/
structure MigrationReport where
  applied : List String
  pending : List String
  databaseVerified : Bool
deriving DecidableEq

def requiredRelationalTables : List String := [
  "auth_audit_log", "auth_application_redirects", "auth_external_identities", "auth_flows", "auth_idempotency",
  "auth_invitations", "auth_memberships", "auth_one_time_tokens", "auth_organizations", "auth_outbox", "auth_passkeys",
  "auth_passwords", "auth_policy_bundles", "auth_provider_configs", "auth_rate_limit_buckets", "auth_recovery_codes",
  "auth_redirect_uris", "auth_refresh_tokens", "auth_role_permissions", "auth_roles", "auth_schema_migrations",
  "auth_sessions", "auth_signing_keys", "auth_system_administrators", "auth_totp_factors", "auth_users"]

/-- The process that has the lock: before its first query, in its loop, between the document of an autocommit migration
and its row, and after `apply_locked`. -/
inductive Runner
  | loading
  | applying (pending : List SchemaMigration)
  | recording (migration : SchemaMigration) (pending : List SchemaMigration)
  | unlocking (result : Except MigrationRunnerError MigrationReport)

/-- The documents that have run on the database, the rows of `auth_schema_migrations`, and whether the index of the
autocommit migration is valid, if it is there. -/
structure Migrating where
  ran : List SchemaMigration
  history : List AppliedSchemaMigration
  slugIndex : Option Bool
  runner : Option Runner

inductive MigrationMove
  | lock
  | load
  | transact
  | execute (built : Bool)
  | record
  | report (tables : List String)
  | fail
  | unlock
  | crash

def Migrating.stop (s : Migrating) (error : MigrationRunnerError) : Migrating :=
  { s with runner := some (.unlocking (.error error)) }

/-- The rows in the order of their versions. -/
def loadApplied (history : List AppliedSchemaMigration) : List AppliedSchemaMigration :=
  history.mergeSort fun a b => decide (a.version ≤ b.version)

/-- schema/native.rs:346 -/
def verifyTables (actual : List String) : Except MigrationRunnerError Unit :=
  match requiredRelationalTables.filter (· ∉ actual) with
  | [] => .ok ()
  | missing => .error (.missingTables (",".intercalate missing))

section Runner
variable (sha256 : Bytes → Bytes) (documents : String → String)

/-- The version is the key of the table. -/
def recordMigration (history : List AppliedSchemaMigration) (migration : SchemaMigration) :
    Option (List AppliedSchemaMigration) :=
  if migration.version ∈ history.map AppliedSchemaMigration.version then none
  else some (history ++ [migration.applied sha256])

/-- `report` with the tables verified; `none` if the plan panics. -/
def migrationReport (history : List AppliedSchemaMigration) (tables : List String) :
    Option (Except MigrationRunnerError MigrationReport) :=
  (planSchema sha256 documents (loadApplied history)).map fun plan => do
    let pending ← plan.mapError .plan
    if pending ≠ [] then .error .pendingMigrations
    else
      verifyTables tables
      pure ⟨(loadApplied history).map AppliedSchemaMigration.version, pending.map SchemaMigration.version, true⟩

/-- `apply` and what it calls (schema/native.rs:181-345) -/
def Migrating.next (s : Migrating) : MigrationMove → Option Migrating
  | .lock =>
    match s.runner with
    | none => some { s with runner := some .loading }
    | some _ => none
  | .load =>
    match s.runner with
    | some .loading => (planSchema sha256 documents (loadApplied s.history)).map fun
      | .ok pending => { s with runner := some (.applying pending) }
      | .error e => s.stop (.plan e)
    | _ => none
  | .transact =>
    match s.runner with
    | some (.applying (migration :: pending)) =>
      if migration.mode = .transactional then
        match recordMigration sha256 s.history migration with
        | some history => some { s with
            ran := s.ran ++ [migration], history := history, runner := some (.applying pending) }
        | none => some (s.stop .postgres)
      else none
    | _ => none
  | .execute built =>
    match s.runner with
    | some (.applying (migration :: pending)) =>
      if migration.mode = .autocommit then
        some { s with
          ran := s.ran ++ [migration]
          slugIndex := some (s.slugIndex.getD built)
          runner := some (if s.slugIndex.isSome || built then .recording migration pending
            else .unlocking (.error .postgres)) }
      else none
    | _ => none
  | .record =>
    match s.runner with
    | some (.recording migration pending) =>
      if migration.version ≠ "0012_organization_slug_unique_index" then
        some (s.stop (.unsupportedAutocommitMigration migration.version))
      else if s.slugIndex ≠ some true then some (s.stop (.invalidMigrationPostcondition migration.version))
      else
        match recordMigration sha256 s.history migration with
        | some history => some { s with history := history, runner := some (.applying pending) }
        | none => some (s.stop .postgres)
    | _ => none
  | .report tables =>
    match s.runner with
    | some (.applying []) =>
      (migrationReport sha256 documents s.history tables).map fun result =>
        { s with runner := some (.unlocking result) }
    | _ => none
  | .fail =>
    match s.runner with
    | none | some (.unlocking _) => none
    | some _ => some (s.stop .postgres)
  | .unlock =>
    match s.runner with
    | some (.unlocking _) => some { s with runner := none }
    | _ => none
  | .crash => s.runner.map fun _ => { s with runner := none }

/-- `MigrationRunner::run` (schema/native.rs:95) -/
def migrating : System Migrating MigrationMove := ⟨⟨[], [], none, none⟩, Migrating.next sha256 documents⟩

/-! ## What has run -/

/-- A report of success when everything is recorded. -/
def Complete (pending : List SchemaMigration) (report : MigrationReport) : Prop :=
  pending = [] ∧ report.pending = [] ∧
    report.applied.Perm ((schemaMigrations documents).map SchemaMigration.version)

/-- What the process that has the lock goes by. -/
def Runner.Knows (ran pending : List SchemaMigration) : Runner → Prop
  | .loading => True
  | .applying rest => rest = pending
  | .recording m rest => m :: rest = pending ∧ m ∈ ran ∧ m.mode = .autocommit
  | .unlocking result => ∀ report, result = .ok report → Complete documents pending report

/-- The recorded migrations and the pending ones are the catalog. Of the recorded ones every document has run, a
transactional one once and in order; beside them only the next may have run, if it is an autocommit one. -/
structure Migrating.Consistent (s : Migrating) (done pending : List SchemaMigration) : Prop where
  catalog : done ++ pending = schemaMigrations documents
  history : s.history = done.map (SchemaMigration.applied sha256)
  once : s.ran.filter (·.mode = .transactional) = done.filter (·.mode = .transactional)
  recorded : ∀ m ∈ done, m ∈ s.ran
  next : ∀ m ∈ s.ran, m ∈ done ∨ m.mode = .autocommit ∧ pending.head? = some m
  index : ∀ m ∈ done, m.mode = .autocommit → s.slugIndex = some true
  runner : ∀ r, s.runner = some r → r.Knows documents s.ran pending

end Runner

section Moves
variable {sha256 : Bytes → Bytes} {documents : String → String} {s t : Migrating} {m : SchemaMigration}
  {done pending rest : List SchemaMigration}

section Pending
variable (h : s.Consistent sha256 documents done pending)
include h

/-- The runner's plan is what is pending. -/
theorem planSchema_of_consistent :
    planSchema sha256 documents (loadApplied s.history) = some (.ok pending) := by
  have hcatalog := distinctVersions_schemaMigrations documents
  have hperm : (loadApplied s.history).Perm (done.map (SchemaMigration.applied sha256)) := by
    rw [← h.history]
    exact List.mergeSort_perm _ _
  have hpasses := Passes.of_perm hcatalog ⟨pending, h.catalog⟩ hperm
  rw [planSchema, planAgainst_of_passes hcatalog hpasses, hperm.length_eq, List.length_map, ← h.catalog, List.drop_left]

/-- Nothing is written, and a process has the lock that knows what it must. -/
theorem Migrating.Consistent.hold {r : Runner} (hr : r.Knows documents s.ran pending) :
    ({ s with runner := some r } : Migrating).Consistent sha256 documents done pending :=
  ⟨h.catalog, h.history, h.once, h.recorded, h.next, h.index, fun _ hrunner => Option.some.inj hrunner ▸ hr⟩

theorem Migrating.Consistent.release :
    ({ s with runner := none } : Migrating).Consistent sha256 documents done pending :=
  ⟨h.catalog, h.history, h.once, h.recorded, h.next, h.index, nofun⟩

theorem Migrating.Consistent.stop (error : MigrationRunnerError) :
    (s.stop error).Consistent sha256 documents done pending :=
  h.hold fun _ hreport => nomatch hreport

end Pending

section Next
variable (h : s.Consistent sha256 documents done (m :: rest))
include h

/-- The row of the next migration is new. -/
theorem recordMigration_of_consistent :
    recordMigration sha256 s.history m = some ((done ++ [m]).map (SchemaMigration.applied sha256)) := by
  have hdistinct := distinctVersions_schemaMigrations documents
  rw [DistinctVersions, ← h.catalog, List.map_append, List.map_cons] at hdistinct
  have hnew : m.version ∉ s.history.map AppliedSchemaMigration.version := by
    rw [h.history, List.map_map]
    intro hmem
    exact (List.nodup_append.1 hdistinct).2.2 m.version hmem m.version List.mem_cons_self rfl
  rw [recordMigration, if_neg hnew, h.history, List.map_append]
  rfl

/-- A transactional migration runs and is recorded at once. -/
theorem consistent_transact (hmode : m.mode = .transactional) :
    ({ s with
      ran := s.ran ++ [m]
      history := (done ++ [m]).map (SchemaMigration.applied sha256)
      runner := some (.applying rest) } : Migrating).Consistent sha256 documents (done ++ [m]) rest := by
  refine ⟨(List.append_assoc _ _ _).trans h.catalog, rfl, ?_, fun m' hm' => ?_, fun m' hm' => ?_,
    fun m' hm' hauto => ?_, fun r hr => by cases hr; rfl⟩
  · rw [List.filter_append, List.filter_append, h.once]
  · rcases List.mem_append.1 hm' with hm' | hm'
    · exact List.mem_append_left _ (h.recorded m' hm')
    · exact List.mem_append_right _ hm'
  · rcases List.mem_append.1 hm' with hm' | hm'
    · rcases h.next m' hm' with hm' | ⟨hauto, hhead⟩
      · exact .inl (List.mem_append_left _ hm')
      · rw [← Option.some.inj hhead, hmode] at hauto
        cases hauto
    · exact .inl (List.mem_append_right _ hm')
  · rcases List.mem_append.1 hm' with hm' | hm'
    · exact h.index m' hm' hauto
    · rw [List.mem_singleton.1 hm', hmode] at hauto
      cases hauto

/-- An autocommit migration that has run is recorded. -/
theorem consistent_record (hran : m ∈ s.ran)
    (hmode : m.mode = .autocommit) (hindex : s.slugIndex = some true) :
    ({ s with
      history := (done ++ [m]).map (SchemaMigration.applied sha256)
      runner := some (.applying rest) } : Migrating).Consistent sha256 documents (done ++ [m]) rest := by
  refine ⟨(List.append_assoc _ _ _).trans h.catalog, rfl, ?_, fun m' hm' => ?_, fun m' hm' => .inl ?_,
    fun _ _ _ => hindex, fun r hr => by cases hr; rfl⟩
  · rw [List.filter_append, h.once, List.filter_singleton]
    simp [hmode]
  · rcases List.mem_append.1 hm' with hm' | hm'
    · exact h.recorded m' hm'
    · rwa [List.mem_singleton.1 hm']
  · rcases h.next m' hm' with hm' | ⟨-, hhead⟩
    · exact List.mem_append_left _ hm'
    · exact List.mem_append_right _ (List.mem_singleton.2 (Option.some.inj hhead).symm)

/-- The document of an autocommit migration runs, whatever it leaves of the index. -/
theorem consistent_execute (hmode : m.mode = .autocommit)
    (built : Bool) (runner : Runner) (hrunner : runner.Knows documents (s.ran ++ [m]) (m :: rest)) :
    ({ s with
      ran := s.ran ++ [m]
      slugIndex := some (s.slugIndex.getD built)
      runner := some runner } : Migrating).Consistent sha256 documents done (m :: rest) := by
  refine ⟨h.catalog, h.history, ?_, fun m' hm' => List.mem_append_left _ (h.recorded m' hm'), fun m' hm' => ?_,
    fun m' hm' hauto => ?_, fun r hr => Option.some.inj hr ▸ hrunner⟩
  · rw [List.filter_append, h.once, List.filter_singleton]
    simp [hmode]
  · rcases List.mem_append.1 hm' with hm' | hm'
    · exact h.next m' hm'
    · rw [List.mem_singleton.1 hm']
      exact .inr ⟨hmode, rfl⟩
  · simp [h.index m' hm' hauto]

end Next

theorem complete_of_report (h : s.Consistent sha256 documents done []) {tables : List String}
    {result : Except MigrationRunnerError MigrationReport} {report : MigrationReport}
    (hn : migrationReport sha256 documents s.history tables = some result) (hreport : result = .ok report) :
    Complete documents [] report := by
  rw [migrationReport, planSchema_of_consistent h] at hn
  cases hn
  obtain ⟨_, hplan, hreport⟩ := bind_eq_ok.1 hreport
  cases hplan
  rw [if_neg (by simp)] at hreport
  obtain ⟨_, -, hreport⟩ := bind_eq_ok.1 hreport
  cases hreport
  refine ⟨rfl, rfl, ((List.mergeSort_perm _ _).map _).trans (.of_eq ?_)⟩
  rw [h.history, ← h.catalog, List.append_nil, List.map_map]
  rfl

/-- Every move keeps the database consistent. -/
theorem consistent_next {move : MigrationMove} (h : s.Consistent sha256 documents done pending)
    (hn : (migrating sha256 documents).next s move = some t) :
    ∃ done pending, t.Consistent sha256 documents done pending := by
  cases move with
  | lock =>
    simp only [migrating, Migrating.next] at hn
    split at hn
    · cases hn
      exact ⟨done, pending, h.hold trivial⟩
    · cases hn
  | load =>
    simp only [migrating, Migrating.next] at hn
    split at hn
    · rw [planSchema_of_consistent h] at hn
      cases hn
      exact ⟨done, pending, h.hold rfl⟩
    · cases hn
  | transact =>
    simp only [migrating, Migrating.next] at hn
    split at hn
    next m rest hrunner =>
      obtain rfl : m :: rest = pending := h.runner _ hrunner
      rw [recordMigration_of_consistent h] at hn
      split at hn
      next hmode =>
        cases hn
        exact ⟨done ++ [m], rest, consistent_transact h hmode⟩
      · cases hn
    · cases hn
  | execute built =>
    simp only [migrating, Migrating.next] at hn
    split at hn
    next m rest hrunner =>
      obtain rfl : m :: rest = pending := h.runner _ hrunner
      split at hn
      next hmode =>
        cases hn
        refine ⟨done, m :: rest, consistent_execute h hmode built _ ?_⟩
        split
        · exact ⟨rfl, List.mem_append_right _ (List.mem_singleton_self m), hmode⟩
        · exact fun _ hreport => nomatch hreport
      · cases hn
    · cases hn
  | record =>
    simp only [migrating, Migrating.next] at hn
    split at hn
    next m rest hrunner =>
      obtain ⟨rfl, hran, hmode⟩ := h.runner _ hrunner
      rw [recordMigration_of_consistent h] at hn
      split at hn
      · cases hn
        exact ⟨done, m :: rest, h.stop _⟩
      split at hn
      · cases hn
        exact ⟨done, m :: rest, h.stop _⟩
      next hindex =>
        cases hn
        exact ⟨done ++ [m], rest, consistent_record h hran hmode (not_not.1 hindex)⟩
    · cases hn
  | report tables =>
    simp only [migrating, Migrating.next] at hn
    split at hn
    next hrunner =>
      obtain rfl : [] = pending := h.runner _ hrunner
      obtain ⟨result, hresult, rfl⟩ := Option.map_eq_some_iff.1 hn
      exact ⟨done, [], h.hold fun report hreport => complete_of_report h hresult hreport⟩
    · cases hn
  | fail =>
    simp only [migrating, Migrating.next] at hn
    split at hn
    · cases hn
    · cases hn
    · cases hn
      exact ⟨done, pending, h.stop _⟩
  | unlock =>
    simp only [migrating, Migrating.next] at hn
    split at hn
    · cases hn
      exact ⟨done, pending, h.release⟩
    · cases hn
  | crash =>
    obtain ⟨r, -, rfl⟩ := Option.map_eq_some_iff.1 hn
    exact ⟨done, pending, h.release⟩

/-- So does every run, whoever takes part in it. -/
theorem consistent_of_steps (hsteps : Steps (migrating sha256 documents) anyStep s t)
    (h : s.Consistent sha256 documents done pending) : ∃ done pending, t.Consistent sha256 documents done pending :=
  hsteps.invariant (I := fun u => ∃ done pending, u.Consistent sha256 documents done pending)
    (fun ⟨_, _, hu⟩ _ hn => consistent_next hu hn) ⟨done, pending, h⟩

/-- An index that is there stays as it is. -/
theorem slugIndex_next {move : MigrationMove} {valid : Bool} (hs : s.slugIndex = some valid)
    (hn : (migrating sha256 documents).next s move = some t) : t.slugIndex = some valid := by
  cases move <;> simp only [migrating, Migrating.next, Migrating.stop] at hn <;> grind [Option.map_eq_some_iff]

/-! ## Recovery -/

theorem steps_of_next (move : MigrationMove) (hn : (migrating sha256 documents).next s move = some t) :
    Steps (migrating sha256 documents) anyStep s t := (Steps.refl s).step trivial hn

theorem version_of_autocommit (hm : m ∈ schemaMigrations documents) (hmode : m.mode = .autocommit) :
    m.version = "0012_organization_slug_unique_index" := by
  simp only [schemaMigrations, embedded, List.mem_cons, List.not_mem_nil, or_false] at hm
  rcases hm with rfl | rfl | rfl | rfl | rfl | rfl | rfl | rfl | rfl | rfl | rfl | rfl | rfl | rfl <;>
    first | rfl | cases hmode

/-- Undisturbed, the loop comes to its end. -/
theorem exists_applied : ∀ {rest : List SchemaMigration} {s : Migrating} {done : List SchemaMigration},
    s.Consistent sha256 documents done rest → s.runner = some (.applying rest) → s.slugIndex ≠ some false →
    ∃ t done, Steps (migrating sha256 documents) anyStep s t ∧ t.Consistent sha256 documents done [] ∧
      t.runner = some (.applying [])
  | [], s, done, h, hrunner, _ => ⟨s, done, .refl s, h, hrunner⟩
  | m :: rest, s, done, h, hrunner, hindex => by
    cases hmode : m.mode with
    | transactional =>
      obtain ⟨t, done, hsteps, ht⟩ := exists_applied (consistent_transact h hmode) rfl hindex
      refine ⟨t, done, (steps_of_next .transact ?_).trans hsteps, ht⟩
      simp only [migrating, Migrating.next, hrunner, hmode, if_true, recordMigration_of_consistent h]
    | autocommit =>
      have hversion := version_of_autocommit (h.catalog ▸ List.mem_append_right _ List.mem_cons_self) hmode
      have hvalid : some (s.slugIndex.getD true) = some true := by
        cases hs : s.slugIndex with
        | none => rfl
        | some valid => cases valid <;> simp_all
      have hran : m ∈ s.ran ++ [m] := List.mem_append_right _ (List.mem_singleton_self m)
      have h₁ := consistent_execute h hmode true (.recording m rest) ⟨rfl, hran, hmode⟩
      obtain ⟨t, done, hsteps, ht⟩ := exists_applied (consistent_record h₁ hran hmode hvalid) rfl (hvalid ▸ nofun)
      refine ⟨t, done, ((steps_of_next (.execute true) ?_).trans (steps_of_next .record (s := { s with
        ran := s.ran ++ [m]
        slugIndex := some (s.slugIndex.getD true)
        runner := some (.recording m rest) }) ?_)).trans hsteps, ht⟩
      · simp only [migrating, Migrating.next, hrunner, hmode, if_true, Bool.or_true]
      · have hrecord := recordMigration_of_consistent h₁
        simp only [migrating, Migrating.next, hversion, hvalid, ne_eq, not_true_eq_false, if_false, hrecord]

/-- A process that gets the lock and is not disturbed reports success, if the index is not broken. -/
theorem exists_report (h : s.Consistent sha256 documents done pending) (hrunner : s.runner = none)
    (hindex : s.slugIndex ≠ some false) : ∃ t report, Steps (migrating sha256 documents) anyStep s t ∧
      t.runner = some (.unlocking (.ok report)) := by
  have hloading : ({ s with runner := some .loading } : Migrating).Consistent sha256 documents done pending :=
    h.hold trivial
  have happlying :
      ({ s with runner := some (.applying pending) } : Migrating).Consistent sha256 documents done pending :=
    h.hold rfl
  have hverify : verifyTables requiredRelationalTables = .ok () := by
    have hnone : requiredRelationalTables.filter (· ∉ requiredRelationalTables) = [] := by
      rw [List.filter_eq_nil_iff]
      simp
    rw [verifyTables, hnone]
  obtain ⟨t, done, hsteps, ht, htrunner⟩ := exists_applied happlying rfl hindex
  refine ⟨{ t with
      runner := some (.unlocking (.ok ⟨(loadApplied t.history).map AppliedSchemaMigration.version, [], true⟩)) }, _,
    (((steps_of_next .lock ?_).trans (steps_of_next .load (s := { s with runner := some .loading }) ?_)).trans
      hsteps).trans (steps_of_next (.report requiredRelationalTables) ?_), rfl⟩
  · simp only [migrating, Migrating.next, hrunner]
  · simp only [migrating, Migrating.next, planSchema_of_consistent hloading, Option.map_some]
  · simp only [migrating, Migrating.next, htrunner, migrationReport, planSchema_of_consistent ht, Option.map_some]
    simp [Except.mapError, hverify, Bind.bind, Except.bind, Pure.pure, Except.pure]

end Moves

/-- For any number of processes that stop at any point: the recorded migrations are the first of the catalog, with their
checksums; each of their documents has run, a transactional one exactly once and in order, and beside them only that of
an autocommit migration which is next; that migration is recorded only with a valid index; a report of success means
that everything is recorded. And from any state in which no process has the lock, one can still come to report success,
unless a failed build has left an index that is not valid: no process of the runner ever repairs it. -/
theorem migrations_of_processes {sha256 : Bytes → Bytes} {documents : String → String} {s : Migrating}
    (h : Reachable (migrating sha256 documents) s) :
    (∃ done pending, done ++ pending = schemaMigrations documents ∧
      s.history = done.map (SchemaMigration.applied sha256) ∧
      s.ran.filter (·.mode = .transactional) = done.filter (·.mode = .transactional) ∧ (∀ m ∈ done, m ∈ s.ran) ∧
      (∀ m ∈ s.ran, m ∈ done ∨ m.mode = .autocommit ∧ pending.head? = some m) ∧
      (∀ m ∈ done, m.mode = .autocommit → s.slugIndex = some true) ∧
      ∀ report, s.runner = some (.unlocking (.ok report)) → pending = [] ∧ report.pending = [] ∧
        report.applied.Perm ((schemaMigrations documents).map SchemaMigration.version)) ∧
    (s.runner = none → ((∃ t report, Steps (migrating sha256 documents) anyStep s t ∧
      t.runner = some (.unlocking (.ok report))) ↔ s.slugIndex ≠ some false)) := by
  obtain ⟨done, pending, hs⟩ := consistent_of_steps h ⟨rfl, rfl, rfl, nofun, nofun, nofun, nofun⟩
  refine ⟨⟨done, pending, hs.catalog, hs.history, hs.once, hs.recorded, hs.next, hs.index,
    fun report hreport => hs.runner _ hreport report rfl⟩, fun hrunner => ⟨?_, exists_report hs hrunner⟩⟩
  rintro ⟨t, report, hsteps, hreport⟩ hbroken
  obtain ⟨done, pending, ht⟩ := consistent_of_steps hsteps hs
  have hbroken := hsteps.invariant (I := fun u => u.slugIndex = some false)
    (fun hu _ hn => slugIndex_next hu hn) hbroken
  obtain ⟨rfl, -⟩ := ht.runner _ hreport report rfl
  have hmem : embedded documents "0012_organization_slug_unique_index" .autocommit ∈ done := by
    rw [← List.append_nil done, ht.catalog]
    simp [schemaMigrations]
  -- What is recorded has a valid index, and a broken one has stayed broken.
  cases hbroken.symm.trans (ht.index _ hmem rfl)

/-- A process stops between the document of `0012` and its row; another one can bring the database up to date. -/
theorem recovery_after_crash : ∃ s t report, Reachable (migrating id id) s ∧ s.ran.length = 12 ∧ s.history.length = 11 ∧
    Steps (migrating id id) anyStep s t ∧ t.runner = some (.unlocking (.ok report)) := by
  obtain ⟨s, hreach, htest⟩ := exists_reachable_of_run (migrating id id)
    ([.lock, .load] ++ List.replicate 11 .transact ++ [.execute true, .crash])
    (fun s => decide (s.ran.length = 12 ∧ s.history.length = 11 ∧ s.slugIndex = some true) && s.runner.isNone)
    (by decide +kernel)
  obtain ⟨hstate, hrunner⟩ := Bool.and_eq_true_iff.1 htest
  obtain ⟨hran, hhistory, hindex⟩ := of_decide_eq_true hstate
  have hvalid : s.slugIndex ≠ some false := by simp [hindex]
  obtain ⟨t, report, hsteps, hreport⟩ :=
    ((migrations_of_processes hreach).2 (Option.isNone_iff_eq_none.1 hrunner)).2 hvalid
  exact ⟨s, t, report, hreach, hran, hhistory, hsteps, hreport⟩

end WasiAuth
