import WasiAuth.Identity.Tokens
import WasiAuth.Postgres.Tenant

/-! # Cached snapshots

A snapshot `verify` has returned is used again in two ways. `verify_cached` compares its fingerprint with
the current one. The fingerprint has neither the permissions nor the email nor the creation time of the
session, so it stands for the snapshot only because of what commands can do (`Versioned`): an organization's
permissions change only with its authorization revision, and the other two never change. Hence
`verifyCached_eq_verify`, for every run between the two calls.

`verify_invalidation_cached` asks the database nothing. While nothing has been committed the snapshot is
still right, except for the two conditions of the query that are not about the snapshot: the signing key of
the token at hand, and the end of the session (`invalidationCached_iff`).
-/

namespace WasiAuth

open Relational Relation Transition

variable {DecodingKey : Type} {db db' db₀ db₁ db₂ db₃ : Db} {st st' : Statement} {clean : Prop}

/-! ## What a run keeps -/

/-- Accounts are kept, an organization's revision does not go back, and while it stands still its roles
hold the permissions they held. -/
structure Versioned (db db' : Db) : Prop where
  accounts : KeepsAccounts db db'
  organizations : ∀ {id o}, db.organizations.find? id = some o → ∃ o', db'.organizations.find? id = some o' ∧
    o.authorizationRevision ≤ o'.authorizationRevision ∧
      (o'.authorizationRevision = o.authorizationRevision → SamePermissions db db' id)

namespace Versioned

theorem of_eq (hu : db'.users = db.users) (hs : db'.sessions = db.sessions) (ho : db'.organizations = db.organizations)
    (hp : db'.rolePermissions = db.rolePermissions) : Versioned db db' where
  accounts := .of_eq hu hs
  organizations h := ⟨_, by rw [ho]; exact h, le_rfl, fun _ r _ => by rw [hp]⟩

theorem trans (h : Versioned db₁ db₂) (h' : Versioned db₂ db₃) : Versioned db₁ db₃ where
  accounts := h.accounts.trans h'.accounts
  organizations ho := by
    obtain ⟨o₂, ho₂, hle, hsame⟩ := h.organizations ho
    obtain ⟨o₃, ho₃, hle', hsame'⟩ := h'.organizations ho₂
    refine ⟨o₃, ho₃, hle.trans hle', fun he r hr => ?_⟩
    exact (hsame' (by omega) r hr).trans (hsame (by omega) r hr)

theorem of_keepsMembers (h : KeepsMembers db db') (ha : KeepsAccounts db db') : Versioned db db' where
  accounts := ha
  organizations {id o} ho := by
    obtain ⟨o', ho', hadv⟩ := h.organization_of_before ho
    refine ⟨o', ho', hadv.revision, fun he => ?_⟩
    rcases h.permissions id with hsame | ⟨o₁, o₂, h₁, h₂, hlt⟩
    · exact hsame
    · rw [ho] at h₁
      rw [ho'] at h₂
      cases h₁
      cases h₂
      omega

theorem of_recounted (h : Recounted st st') : Versioned st.db st'.db where
  accounts := .of_eq (by rw [h.others]) (by rw [h.others])
  organizations {id o} ho := by
    obtain ⟨count, hcount⟩ := h.organizations
    exact ⟨{ o with ownerCount := count o }, by rw [hcount, ho]; rfl, le_rfl, fun _ r _ => by rw [h.others]⟩

theorem of_step (h : Statement.Step clean st st') : Versioned st.db st'.db := by
  cases h with
  | routine h => exact of_keepsMembers h.quiet.toKeepsMembers h.accounts
  | create _ h =>
    obtain ⟨organizations, roles, permissions, hins, hperm, rfl⟩ := insertOrganization_eq_ok h
    refine ⟨.of_eq rfl rfl, fun {id o} ho => ⟨o, Table.find?_insertOr_of_some hins ho, le_rfl, fun _ r hr => ?_⟩⟩
    refine hperm r fun hnew => ?_
    simp [← hr, hnew, (Table.insertOr_eq_ok hins).1] at ho
  | insert _ h =>
    obtain ⟨st₁, memberships, h₁, -, rfl⟩ := insertMembership_eq_ok h
    exact (of_recounted (recounted_of_adjustOwnerCount h₁)).trans (of_eq rfl rfl rfl rfl)
  | update h =>
    obtain ⟨st₁, h₁, rfl⟩ := updateMembership_eq_ok h
    exact (of_recounted (recounted_of_adjustOwnerCount h₁)).trans (of_eq rfl rfl rfl rfl)
  | propose _ h => exact of_recounted (recounted_of_adjustOwnerCount h)

theorem of_steps (h : ReflTransGen (Statement.Step clean) st st') : Versioned st.db st'.db := by
  induction h with
  | refl => exact of_eq rfl rfl rfl rfl
  | tail _ hstep ih => exact ih.trans (of_step hstep)

theorem of_next {c : Command} (h : postgres.next db c = some db') : Versioned db db' := by
  rcases step_changes h with (hr | ⟨hw, hc⟩) | ⟨-, hd⟩
  · exact of_keepsMembers hr.quiet.toKeepsMembers hr.accounts
  · obtain ⟨hkeeps, hu, hs⟩ := keepsMembers_of_fire (commit_eq_ok hc).1
    exact (of_steps hw).trans (of_keepsMembers hkeeps (.of_eq hu hs))
  · rw [hd.others]
    exact of_eq rfl rfl rfl rfl

theorem of_run (h : Steps postgres anyStep db db') : Versioned db db' :=
  h.relation (I := fun _ => True) (fun _ => of_eq rfl rfl rfl rfl) trans (fun _ _ _ => trivial)
    (fun _ _ hn => of_next hn) trivial

end Versioned

/-! ## The fingerprint stands for the row -/

theorem permissionsOf_congr {organization : Uuid} (h : SamePermissions db db' organization) (roleId : String) :
    (db'.permissionsOf organization roleId).insertionSort (· ≤ ·) =
      (db.permissionsOf organization roleId).insertionSort (· ≤ ·) := by
  have hnodup (d : Db) : d.rolePermissions.rows.Nodup := by simpa using d.rolePermissions.nodup
  have hrows : (db'.permissionsOf organization roleId).Perm (db.permissionsOf organization roleId) := by
    refine List.Perm.map _ ((List.perm_ext_iff_of_nodup ((hnodup db').filter _) ((hnodup db).filter _)).2 fun r => ?_)
    simp only [List.mem_filter, decide_eq_true_eq, ← Table.mem_def]
    exact and_congr_left fun hr => h r hr.1
  have hperm := (List.perm_insertionSort (· ≤ ·) _).trans (hrows.trans (List.perm_insertionSort (· ≤ ·) _).symm)
  exact hperm.eq_of_pairwise (fun _ _ _ _ => le_antisymm) (List.pairwise_insertionSort _ _)
    (List.pairwise_insertionSort _ _)

/-- A session that may act in an organization has the organization and a membership in it. -/
theorem selected_of_mayAct {s : Session} {organization : Uuid} (h : db.mayAct s = true)
    (hsel : s.selectedOrganizationId = some organization) : ∃ o m, db.organizations.find? organization = some o ∧
      db.selectedOrganization s = some o ∧ db.selectedMembership s = some m ∧ m.organizationId = organization := by
  simp only [Db.mayAct, hsel, Option.isNone_some, Bool.false_or, Bool.and_eq_true] at h
  obtain ⟨o, ho, -⟩ := (Option.any_eq_true _ _).1 h.1
  obtain ⟨m, hm⟩ := Option.isSome_iff_exists.1 h.2
  have hfind : db.organizations.find? organization = some o := by simpa [Db.selectedOrganization, hsel] using ho
  have hactive : db.activeMembership organization s.userId = some m := by
    simpa [Db.selectedMembership, hsel] using hm
  exact ⟨o, m, hfind, ho, hm, congrArg Prod.fst (activeMembership_eq_some hactive).2.1⟩

section Rows

variable {s₀ s : Session} {u₀ u : User}

/-- The permissions are those of then: organization, revision and role are columns of the fingerprint. -/
theorem permissions_of_versioned (h : Versioned db₀ db) (hact₀ : db₀.mayAct s₀ = true) (hact : db.mayAct s = true)
    (he : (db.contextRow s u).fingerprint = (db₀.contextRow s₀ u₀).fingerprint) :
    (db.contextRow s u).permissions = (db₀.contextRow s₀ u₀).permissions := by
  have hrow := eq_of_fingerprint he
  have horganization : s.selectedOrganizationId = s₀.selectedOrganizationId :=
    congrArg FingerprintRow.organizationId hrow
  have hrevision := congrArg FingerprintRow.organizationAuthorizationRevision hrow
  have hrole := congrArg FingerprintRow.roleId hrow
  simp only [Db.contextRow] at hrevision hrole ⊢
  cases hsel : s₀.selectedOrganizationId with
  | none => simp [Db.selectedMembership, horganization, hsel]
  | some organization =>
    obtain ⟨o₀, m₀, hfind₀, ho₀, hm₀, horg₀⟩ := selected_of_mayAct hact₀ hsel
    obtain ⟨o, m, hfind, ho, hm, horg⟩ := selected_of_mayAct hact (horganization.trans hsel)
    simp only [ho, ho₀, hm, hm₀, Option.map_some, Option.some.injEq, Option.elim_some, horg, horg₀]
      at hrevision hrole ⊢
    obtain ⟨o', ho', -, hsame⟩ := h.organizations hfind₀
    cases hfind.symm.trans ho'
    rw [hrole]
    exact permissionsOf_congr (hsame hrevision) m₀.roleId

/-- A row with the fingerprint of an earlier row is that row, up to the step between `aal2` and `aal3`. -/
theorem contextRow_of_versioned (h : Versioned db₀ db) {id₀ id : Uuid} {t₀ t : Int}
    (hlive₀ : db₀.liveSession id₀ t₀ = some (s₀, u₀)) (hlive : db.liveSession id t = some (s, u))
    (hact₀ : db₀.mayAct s₀ = true) (hact : db.mayAct s = true)
    (he : (db.contextRow s u).fingerprint = (db₀.contextRow s₀ u₀).fingerprint) :
    db.contextRow s u = { db₀.contextRow s₀ u₀ with assurance := s.assurance } := by
  have hrow := eq_of_fingerprint he
  have huser : s.userId = s₀.userId := congrArg FingerprintRow.userId hrow
  have hsession : s.sessionId = s₀.sessionId := congrArg FingerprintRow.sessionId hrow
  obtain ⟨hs₀, hu₀, -⟩ := Db.liveSession_eq_some.1 hlive₀
  obtain ⟨hs, hu, -⟩ := Db.liveSession_eq_some.1 hlive
  have hid : id = id₀ := by
    rw [← (Table.find?_eq_some.1 hs).2, ← (Table.find?_eq_some.1 hs₀).2, hsession]
  obtain ⟨u', hu', hemail⟩ := h.accounts.users hu₀
  obtain ⟨s', hs', -, hcreated⟩ := h.accounts.sessions hs₀
  rw [huser] at hu
  rw [hid] at hs
  cases hu.symm.trans hu'
  cases hs.symm.trans hs'
  show ContextRow.mk (db.contextRow s u).toFingerprintRow u.primaryEmail s.createdAtMs
    (db.contextRow s u).permissions = _
  rw [hrow, permissions_of_versioned h hact₀ hact he, hemail, hcreated]
  rfl

end Rows

/-! ## A snapshot to start from -/

/-- Two keys are configured, and the second takes over from the first. -/
def rotateToSecond : List Command :=
  [.syncSigningKeys
      { configured := [⟨"k1", .es256, .active, "", true⟩, ⟨"k2", .es256, .next, "", true⟩]
        keyVersion := "v1", nowMs := 0 },
    .rotateSigningKey { sessionId := ⟨2⟩, keyId := "k2", retirePrevious := false, nowMs := 0 }]

def founderClaims : AccessTokenClaims where
  sub := "00000000-0000-0000-0000-000000000001"
  tenantId := some "00000000-0000-0000-0000-000000000003"
  sessionId := some "00000000-0000-0000-0000-000000000002"
  iat := 0
  exp := 2000

/-- A verifier with both keys; a token is named by the key that signed it. -/
def founderVerifier : AccessTokenVerifier Unit where
  jwt :=
    { headerKid := some
      decode := fun _ _ _ _ _ now => if now ≤ 2060 then .ok founderClaims else .error .expiredSignature }
  keys :=
    { keys := [⟨"k1", .next, .es256, ()⟩, ⟨"k2", .active, .es256, ()⟩]
      validKids := by decide
      distinctKids := by decide }
  issuer := "wasi-auth"
  audience := "api"
  valid := by decide

def sampleRequest : RequestId := ⟨"request", by decide⟩

/-- The founder's snapshot under the second key, and what the two paths say to a token of the first key at
10 s, and to one of the second at 20 s and when the session has ended. -/
theorem founder_snapshot : ∃ db cached, Reachable postgres db ∧
    verify founderVerifier ⟨10, 10⟩ "k2" sampleRequest db = .ok cached ∧
    (verifyInvalidationCached founderVerifier ⟨10, 10⟩ "k1" cached ⟨1, 1⟩ ⟨1, 1⟩ = .ok (some cached) ∧
      verify founderVerifier ⟨10, 10⟩ "k1" sampleRequest db = .error .invalidToken) ∧
    (verifyInvalidationCached founderVerifier ⟨20, 20⟩ "k2" cached ⟨1, 1⟩ ⟨1, 1⟩ = .ok (some cached) ∧
      verify founderVerifier ⟨20, 20⟩ "k2" sampleRequest db = .ok cached) ∧
    verifyInvalidationCached founderVerifier ⟨1000, 1000⟩ "k2" cached ⟨1, 1⟩ ⟨1, 1⟩ = .ok (some cached) ∧
      verify founderVerifier ⟨1000, 1000⟩ "k2" sampleRequest db = .error .invalidToken := by
  obtain ⟨db, hreach, hp⟩ := exists_reachable_of_run postgres (foundAcme ++ rotateToSecond)
    (fun db => (verify founderVerifier ⟨10, 10⟩ "k2" sampleRequest db).toOption.any fun cached => decide
      ((verifyInvalidationCached founderVerifier ⟨10, 10⟩ "k1" cached ⟨1, 1⟩ ⟨1, 1⟩ = .ok (some cached) ∧
        verify founderVerifier ⟨10, 10⟩ "k1" sampleRequest db = .error .invalidToken) ∧
      (verifyInvalidationCached founderVerifier ⟨20, 20⟩ "k2" cached ⟨1, 1⟩ ⟨1, 1⟩ = .ok (some cached) ∧
        verify founderVerifier ⟨20, 20⟩ "k2" sampleRequest db = .ok cached) ∧
      verifyInvalidationCached founderVerifier ⟨1000, 1000⟩ "k2" cached ⟨1, 1⟩ ⟨1, 1⟩ = .ok (some cached) ∧
        verify founderVerifier ⟨1000, 1000⟩ "k2" sampleRequest db = .error .invalidToken)) (by decide +kernel)
  cases hcached : verify founderVerifier ⟨10, 10⟩ "k2" sampleRequest db with
  | error e => simp [hcached, Except.toOption] at hp
  | ok cached =>
    simp only [hcached, Except.toOption, Option.any_some, decide_eq_true_eq] at hp
    exact ⟨db, cached, hreach, hcached, hp⟩

/-! ## `verify_cached` -/

section VerifyCached

variable {time₀ time : CallTime} {token₀ token : String} {requestId₀ requestId : RequestId} {kid : String}
  {v₀ v : AccessTokenVerifier DecodingKey} {cached : VerifiedAccessToken}

theorem ne_empty_of_validKid (h : validKid kid = true) : kid ≠ "" := by
  rintro rfl
  cases h

/-- The fingerprint is refused as the session is, or it is that of the row the session is read from. -/
theorem fingerprint_cases (hkid : validKid kid = true) (sessionId : SessionId) (now : Nat) (requestId : RequestId)
    (db : Db) :
    (∃ e, loadAuthorizationFingerprintForToken sessionId now kid db = .error e ∧
      loadVerifiedSessionForToken sessionId requestId now kid db = .error e) ∨
    ∃ id row, Uuid.ofText? sessionId.value = some id ∧ db.loadRequestContext id (unixMs now) kid = some row ∧
      loadAuthorizationFingerprintForToken sessionId now kid db = .ok row.fingerprint := by
  simp only [loadAuthorizationFingerprintForToken, loadVerifiedSessionForToken, queryFirst,
    validSigningKeyId_of_validKid hkid, if_true, db.loadRequestFingerprint_eq (ne_empty_of_validKid hkid)]
  cases Uuid.ofText? sessionId.value with
  | none => exact .inl ⟨_, rfl, rfl⟩
  | some id =>
    cases hrow : db.loadRequestContext id (unixMs now) kid with
    | none => exact .inl ⟨.unauthenticated, by simp [hrow], by simp [hrow]⟩
    | some row =>
      cases hfingerprint : authorizationFingerprint row.toFingerprintRow with
      | error e =>
        -- the session's decoding starts with the fingerprint's
        have hsession : verifiedSession row requestId = .error e := by
          simp only [verifiedSession, hfingerprint]
          rfl
        exact .inl ⟨.context, by simp [hrow, hfingerprint, Except.mapError], by simp [hrow, hsession, Except.mapError]⟩
      | ok fingerprint =>
        refine .inr ⟨id, row, rfl, hrow, ?_⟩
        simp [hrow, hfingerprint, Except.mapError, authorizationFingerprint_eq_ok hfingerprint]

theorem verifyDecoded_of_fingerprint {id : Uuid} {row : ContextRow} {decoded : DecodedAccessToken}
    (hversioned : Versioned db₀ db) (hcached : verify v₀ time₀ token₀ requestId₀ db₀ = .ok cached)
    (hkid : validKid decoded.kid = true) (hmatches : cached.matchesClaims decoded = true)
    (hid : Uuid.ofText? decoded.sessionId.value = some id)
    (hrow : db.loadRequestContext id (unixMs time.nowUnixSeconds) decoded.kid = some row)
    (he : cached.authorizationFingerprint = row.fingerprint) :
    verifyDecoded time requestId decoded db = .ok (cached.reissued decoded.claims) := by
  obtain ⟨decoded₀, row₀, hdecoded₀, haccepts₀, rfl⟩ := verify_eq_ok.1 hcached
  obtain ⟨id₀, -, hrow₀⟩ := haccepts₀.selected
  have hkid₀ := ne_empty_of_validKid (validKid_of_decode hdecoded₀).2
  obtain ⟨s₀, u₀, hlive₀, -, hact₀, rfl⟩ := (Db.loadRequestContext_eq_some hkid₀).1 hrow₀
  obtain ⟨s, u, hlive, -, hact, rfl⟩ := (Db.loadRequestContext_eq_some (ne_empty_of_validKid hkid)).1 hrow
  have hsame := contextRow_of_versioned hversioned hlive₀ hlive hact₀ hact he.symm
  have hassurance : s.assurance.authentication = (db₀.contextRow s₀ u₀).assurance.authentication :=
    congrArg AuthorizationFingerprint.assurance he.symm
  obtain ⟨hsub, -, htenant⟩ := matchesClaims_eq_true.1 hmatches
  refine (verifyDecoded_eq_ok hkid).2 ⟨_, ⟨⟨id, hid, hrow⟩, ?_, ?_, ?_⟩, ?_⟩
  · intro requestId
    rw [hsame, verifiedSession_assurance hassurance]
    exact haccepts₀.decodes requestId
  · rw [hsame]
    exact hsub.symm.trans haccepts₀.sub
  · rw [hsame]
    exact htenant.symm
  · rw [hsame, reissued_accessToken hmatches]
    simp only [ContextRow.accessToken, FingerprintRow.fingerprint, hassurance]

/-- **A cached snapshot changes nothing.** Whatever ran since `verify` returned the snapshot, for whatever
token, `verify_cached` with it gives what `verify` gives. -/
theorem verifyCached_eq_verify (hrun : Steps postgres anyStep db₀ db)
    (hcached : verify v₀ time₀ token₀ requestId₀ db₀ = .ok cached) (v : AccessTokenVerifier DecodingKey)
    (time : CallTime) (token : String) (requestId : RequestId) :
    verifyCached v time token requestId (some cached) db = verify v time token requestId db := by
  unfold verifyCached verify
  cases hdecoded : decodeVerifiedAccessToken v time token with
  | error e => rfl
  | ok decoded =>
    have hkid := (validKid_of_decode hdecoded).2
    simp only [Except.mapError, ok_bind]
    cases hmatches : cached.matchesClaims decoded with
    | false => simp [Option.filter, hmatches]
    | true =>
      simp only [Option.filter, hmatches, if_true]
      rcases fingerprint_cases hkid decoded.sessionId time.nowUnixSeconds requestId db with
        ⟨e, hf, hs⟩ | ⟨id, row, hid, hrow, hf⟩
      · simp only [hf, hs, verifyDecoded, Except.mapError, error_bind]
      · simp only [hf, ok_bind]
        split
        · rename_i he
          exact (verifyDecoded_of_fingerprint (.of_run hrun) hcached hkid hmatches hid hrow he).symm
        · rfl

/-- The founder's snapshot, after the session has been revoked. -/
theorem cached_after_revocation : ∃ db₀ db cached, Reachable postgres db₀ ∧ Steps postgres anyStep db₀ db ∧
    verify founderVerifier ⟨10, 10⟩ "k2" sampleRequest db₀ = .ok cached ∧
      verifyCached founderVerifier ⟨20, 20⟩ "k2" sampleRequest (some cached) db =
        verify founderVerifier ⟨20, 20⟩ "k2" sampleRequest db := by
  obtain ⟨db₀, cached, hreach, hcached, -⟩ := founder_snapshot
  have hrun : Steps postgres anyStep db₀
      (db₀.step (.revokeSession { sessionId := ⟨2⟩, actorSessionId := ⟨2⟩, nowMs := 15000 })) :=
    (Steps.refl db₀).step trivial rfl
  exact ⟨db₀, _, cached, hreach, hrun, hcached, verifyCached_eq_verify hrun hcached _ _ _ _⟩

end VerifyCached

/-! ## `verify_invalidation_cached` -/

section InvalidationCached

variable {time₀ time : CallTime} {token₀ token : String} {requestId₀ : RequestId}
  {v₀ v : AccessTokenVerifier DecodingKey} {cached value : VerifiedAccessToken}

/-- The session that a session id in text form names. -/
def Db.namedSession (sessionId : String) (db : Db) : Option Session :=
  (Uuid.ofText? sessionId).bind db.sessions.find?

/-- The token's key is active or retired, and the session has not ended. -/
def Db.keyAndSessionLast (v : AccessTokenVerifier DecodingKey) (time : CallTime) (token : String)
    (sessionId : String) (db : Db) : Bool :=
  ((accessTokenKeyId v.jwt token).any db.verifiesKey) &&
    (db.namedSession sessionId).any fun session => decide (unixMs time.nowUnixSeconds < session.expiresAtMs)

/-- **A snapshot served without a query**, while the database is what it was: `verify` returns the same
exactly when the token's key is active or retired in the database and the session has not ended. -/
theorem invalidationCached_iff (hcached : verify v₀ time₀ token₀ requestId₀ db = .ok cached)
    {cachedEpoch currentEpoch : AuthorizationInvalidationEpoch}
    (hhit : verifyInvalidationCached v time token cached cachedEpoch currentEpoch = .ok (some value))
    (requestId : RequestId) : verify v time token requestId db = .ok value ↔
      db.keyAndSessionLast v time token cached.sessionId = true := by
  obtain ⟨-, decoded, hdecoded, hmatches, rfl⟩ := verifyInvalidationCached_eq_some hhit
  obtain ⟨decoded₀, row, hdecoded₀, haccepts, rfl⟩ := verify_eq_ok.1 hcached
  obtain ⟨hkeyId, hkid⟩ := validKid_of_decode hdecoded
  obtain ⟨hsub, hsession, htenant⟩ := matchesClaims_eq_true.1 hmatches
  have hne := ne_empty_of_validKid hkid
  constructor
  · intro h
    obtain ⟨decoded', row', hdecoded', haccepts', -⟩ := verify_eq_ok.1 h
    cases hdecoded.symm.trans hdecoded'
    obtain ⟨id, hid, hrow'⟩ := haccepts'.selected
    obtain ⟨s, u, hlive, hkey, -, -⟩ := (Db.loadRequestContext_eq_some hne).1 hrow'
    obtain ⟨hs, -, -, hexpires, -⟩ := Db.liveSession_eq_some.1 hlive
    simp [Db.keyAndSessionLast, Db.namedSession, hkeyId, hkey, hsession, hid, hs, hexpires]
  · intro h
    simp only [Db.keyAndSessionLast, hkeyId, Option.any_some, Bool.and_eq_true] at h
    obtain ⟨hkey, hlasts⟩ := h
    obtain ⟨id, hid, hrow⟩ := haccepts.selected
    have hne₀ := ne_empty_of_validKid (validKid_of_decode hdecoded₀).2
    obtain ⟨s, u, hlive, -, hact, rfl⟩ := (Db.loadRequestContext_eq_some hne₀).1 hrow
    obtain ⟨hs, hu, hrevoked, -, hsecurity, hactive⟩ := Db.liveSession_eq_some.1 hlive
    have hexpires : unixMs time.nowUnixSeconds < s.expiresAtMs := by
      simpa [Db.namedSession, ContextRow.accessToken, hid, hs] using hlasts
    -- the same row: time enters the query only through the session's end
    have hlive' := Db.liveSession_eq_some.2 ⟨hs, hu, hrevoked, hexpires, hsecurity, hactive⟩
    have hrow' := (Db.loadRequestContext_eq_some hne).2 ⟨s, u, hlive', hkey, hact, rfl⟩
    refine verify_eq_ok.2 ⟨decoded, _, hdecoded, ⟨⟨id, ?_, hrow'⟩, haccepts.decodes, ?_, htenant.symm⟩,
      reissued_accessToken hmatches⟩
    · rw [← hsession]
      exact hid
    · exact hsub.symm.trans haccepts.sub

/-- The founder's snapshot, taken under the second key. It answers for a token of the first key, which is
no longer active, and for the same token after the session has ended; `verify` refuses both. -/
theorem cached_accepts_what_verify_refuses : ∃ db cached, Reachable postgres db ∧
    verify founderVerifier ⟨10, 10⟩ "k2" sampleRequest db = .ok cached ∧
    (verifyInvalidationCached founderVerifier ⟨10, 10⟩ "k1" cached ⟨1, 1⟩ ⟨1, 1⟩ = .ok (some cached) ∧
      verify founderVerifier ⟨10, 10⟩ "k1" sampleRequest db = .error .invalidToken) ∧
    verifyInvalidationCached founderVerifier ⟨1000, 1000⟩ "k2" cached ⟨1, 1⟩ ⟨1, 1⟩ = .ok (some cached) ∧
      verify founderVerifier ⟨1000, 1000⟩ "k2" sampleRequest db = .error .invalidToken := by
  obtain ⟨db, cached, hreach, hcached, hkey, -, hended⟩ := founder_snapshot
  exact ⟨db, cached, hreach, hcached, hkey, hended⟩

/-- A token of the active key while the session lasts. -/
theorem cached_answers_for_second_key : ∃ db cached, Reachable postgres db ∧
    verify founderVerifier ⟨10, 10⟩ "k2" sampleRequest db = .ok cached ∧
      verify founderVerifier ⟨20, 20⟩ "k2" sampleRequest db = .ok cached ∧
        db.keyAndSessionLast founderVerifier ⟨20, 20⟩ "k2" cached.sessionId = true := by
  obtain ⟨db, cached, hreach, hcached, -, ⟨hhit, hverify⟩, -⟩ := founder_snapshot
  exact ⟨db, cached, hreach, hcached, hverify, (invalidationCached_iff hcached hhit sampleRequest).1 hverify⟩

end InvalidationCached

end WasiAuth
