import WasiAuth.Postgres.Footprints

/-! # Replayed creations

A creation stores its result under the caller's idempotency key, and a later call with the same key, actor and
request hash is answered from that row. `create_organization.sql` answers the two kinds of call by different joins:
`eligible` demands a live session, `replayed` only an active membership of the user the session belongs to, and it
reports the role `owner` whatever the membership says (`reports_current_access_iff`).
-/

namespace WasiAuth

open Relational Transition

section Replay
variable {db db' : Db} {p : CreateOrganization} {r : CreateOrganizationOutcome} {view : OrganizationView}

/-- The outcomes `create` returns a record for. -/
def CreateOrganizationOutcome.view? : CreateOrganizationOutcome → Option OrganizationView
  | .created view | .replayed view => some view
  | _ => none

/-- The caller has a live session, and the record reports its current role and that role's current permissions. -/
def CreateOrganization.ReportsCurrentAccess (p : CreateOrganization) (view : OrganizationView) (db db' : Db) : Prop :=
  ∃ session user membership, db.liveSession p.sessionId p.nowMs = some (session, user) ∧
    db'.activeMembership view.organizationId user.userId = some membership ∧ view.roleId = membership.roleId ∧
    view.permissions = db'.permissionsOf view.organizationId membership.roleId

/-- The call is the first with its key, or its session is live and its user still owns the stored organization. -/
def CreateOrganization.Current (p : CreateOrganization) (db : Db) : Prop :=
  db.idempotency.find? p.idempotencyKey = none ∨
    ∃ row session user membership, db.idempotency.find? p.idempotencyKey = some row ∧
      db.liveSession p.sessionId p.nowMs = some (session, user) ∧
      db.activeMembership row.response user.userId = some membership ∧ membership.roleId = "owner"

/-- A replay reports the organization as it is now. -/
theorem replayOrganization_view {row : Idempotency} (h : (replayOrganization p row db).view? = some view) :
    ∃ org session, db.organizations.find? row.response = some org ∧ db.sessions.find? p.sessionId = some session ∧
      view = .of org "owner" db := by
  unfold replayOrganization at h
  split at h
  · rename_i org session horg hsession
    split at h
    · exact ⟨org, session, horg, hsession, (Option.some.inj h).symm⟩
    · cases h
  · cases h

theorem Founded.activeMembership {session : Session} {user : User} (h : Founded p session user view db db') :
    db'.activeMembership p.organizationId user.userId = some (p.owner user.userId) := by
  have hkey : (p.organizationId, user.userId) = (p.owner user.userId).key := rfl
  rw [Db.activeMembership, Table.find?_of_insertOr h.memberships, if_pos hkey]
  rfl

/-- A creation reports the caller's access. A replay does only for a live session of a user that still has the role
`owner`. -/
theorem reports_current_access_iff (h : createOrganization p db = .ok (r, db')) (hview : r.view? = some view) :
    p.ReportsCurrentAccess view db db' ↔ p.Current db := by
  rcases createOrganization_cases h with ⟨row, hrow, rfl, rfl⟩ | ⟨-, -, rfl | rfl⟩ | ⟨session, user, v, rfl, hfounded⟩
  · split at hview
    · obtain ⟨org, session, horg, hsession, rfl⟩ := replayOrganization_view hview
      have hid : org.organizationId = row.response := (Table.find?_eq_some.1 horg).2
      constructor
      · rintro ⟨session, user, membership, hlive, hmember, hrole, -⟩
        exact .inr ⟨row, session, user, membership, hrow, hlive, hid ▸ hmember, hrole.symm⟩
      · rintro (hnone | ⟨row', session, user, membership, hrow', hlive, hmember, hrole⟩)
        · cases hrow.symm.trans hnone
        · cases hrow.symm.trans hrow'
          exact ⟨session, user, membership, hlive, by rw [← hmember, ← hid]; rfl, hrole.symm, by rw [hrole]; rfl⟩
    · cases hview
  · cases hview
  · cases hview
  · cases hview
    refine iff_of_true ⟨session, user, p.owner user.userId, hfounded.live, ?_, ?_, ?_⟩ (.inl hfounded.fresh)
    · rw [hfounded.view]
      exact hfounded.activeMembership
    · rw [hfounded.view]
      rfl
    · rw [hfounded.view]
      rfl

end Replay

/-! ## A replay after the session or the role was lost -/

def createAgain : CreateOrganization where
  idempotencyKey := "create"
  requestHash := []
  organizationId := ⟨13⟩
  name := "Acme"
  slug := "acme"
  sessionId := ⟨2⟩
  nowMs := 0
  uuids := uuidsFrom 600

/-- The founder hands the organization over and stays in it as an administrator. -/
def handOver : List Command :=
  [.transferOwnership
    { sessionId := ⟨2⟩, organizationId := ⟨3⟩, userId := ⟨11⟩, nowMs := 0
      uuids := uuidsFrom 550 }]

theorem founder_replay_reports_access : ∃ db r db' view, Reachable postgres db ∧
    createOrganization createAgain db = .ok (r, db') ∧ r.view? = some view ∧
    createAgain.ReportsCurrentAccess view db db' := by
  obtain ⟨db, hreach, htest⟩ := exists_reachable_of_run postgres foundAcme
    (fun db => ((createOrganization createAgain db).toOption.any fun r => r.1.view?.isSome) &&
      ((db.idempotency.find? createAgain.idempotencyKey).any fun row =>
        (db.liveSession createAgain.sessionId createAgain.nowMs).any fun s =>
          (db.activeMembership row.response s.2.userId).any fun m => decide (m.roleId = "owner")))
    (by decide +kernel)
  obtain ⟨hok, hcurrent⟩ := Bool.and_eq_true_iff.1 htest
  obtain ⟨⟨r, db'⟩, hok, hsome⟩ := exists_ok_of_any hok
  obtain ⟨view, hview⟩ := Option.isSome_iff_exists.1 hsome
  obtain ⟨row, hrow, hcurrent⟩ := (Option.any_eq_true _ _).1 hcurrent
  obtain ⟨⟨session, user⟩, hlive, hcurrent⟩ := (Option.any_eq_true _ _).1 hcurrent
  obtain ⟨membership, hmember, hrole⟩ := (Option.any_eq_true _ _).1 hcurrent
  refine ⟨db, r, db', view, hreach, hok, hview, (reports_current_access_iff hok hview).2 ?_⟩
  exact .inr ⟨row, session, user, membership, hrow, hlive, hmember, of_decide_eq_true hrole⟩

def CreateOrganizationOutcome.replays (test : OrganizationView → Bool) : CreateOrganizationOutcome → Bool
  | .replayed view => test view
  | _ => false

theorem exists_replay {db : Db} {p : CreateOrganization} {test : OrganizationView → Bool}
    (h : (createOrganization p db).toOption.any (fun r => r.1.replays test) = true) :
    ∃ view, createOrganization p db = .ok (.replayed view, db) ∧ test view = true := by
  obtain ⟨⟨r, db'⟩, hok, htest⟩ := exists_ok_of_any h
  cases r with
  | replayed view =>
    rcases createOrganization_cases hok with ⟨row, -, rfl, -⟩ | ⟨-, -, h | h⟩ | ⟨_, _, _, h, -⟩
    · exact ⟨view, hok, htest⟩
    all_goals cases h
  | _ => cases htest

/-- A replay with a revoked session, and one by a founder who is an administrator by then, both report the owner. -/
theorem owner_reported_without_access :
    (∃ db view, Reachable postgres db ∧ createOrganization createAgain db = .ok (.replayed view, db) ∧
      view.roleId = "owner" ∧ db.liveSession createAgain.sessionId createAgain.nowMs = none) ∧
    ∃ db view membership, Reachable postgres db ∧ createOrganization createAgain db = .ok (.replayed view, db) ∧
      view.roleId = "owner" ∧ db.activeMembership view.organizationId ⟨1⟩ = some membership ∧
      membership.roleId = "admin" := by
  constructor
  · obtain ⟨db, hreach, htest⟩ := exists_reachable_of_run postgres
      (foundAcme ++ [.revokeSession { sessionId := ⟨2⟩, actorSessionId := ⟨2⟩, nowMs := 0 }])
      (fun db => ((createOrganization createAgain db).toOption.any fun r =>
          r.1.replays fun view => decide (view.roleId = "owner")) &&
        (db.liveSession createAgain.sessionId createAgain.nowMs).isNone)
      (by decide +kernel)
    obtain ⟨hreplay, hdead⟩ := Bool.and_eq_true_iff.1 htest
    obtain ⟨view, hok, hrole⟩ := exists_replay hreplay
    exact ⟨db, view, hreach, hok, of_decide_eq_true hrole, Option.isNone_iff_eq_none.1 hdead⟩
  · obtain ⟨db, hreach, htest⟩ := exists_reachable_of_run postgres (foundAcme ++ joinAcme ++ handOver)
      (fun db => (createOrganization createAgain db).toOption.any fun r => r.1.replays fun view =>
        decide (view.roleId = "owner") &&
          (db.activeMembership view.organizationId ⟨1⟩).any fun m => decide (m.roleId = "admin"))
      (by decide +kernel)
    obtain ⟨view, hok, hview⟩ := exists_replay htest
    obtain ⟨hrole, hmember⟩ := Bool.and_eq_true_iff.1 hview
    obtain ⟨membership, hmember, hadmin⟩ := (Option.any_eq_true _ _).1 hmember
    exact ⟨db, view, membership, hreach, hok, of_decide_eq_true hrole, hmember, of_decide_eq_true hadmin⟩

end WasiAuth
