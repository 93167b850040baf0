import WasiAuth.Postgres.Logins

/-! # The outcomes of the statements that leave memberships alone

For every statement of registration, of invitations, organizations and roles that writes no membership, a lemma
`<command>_cases` says all it can do: nothing, or the writes it makes for a caller that passed its checks. Of the
statements about keys and bundles it says which table they write.
-/

namespace WasiAuth

open Relational

/-! ## Mail and tokens -/

section Mail
variable {db db' : Db}

theorem insertMail_eq_ok {outboxId : Uuid} {key keyVersion : String} {ciphertext : Bytes} {nowMs : Int}
    (h : db.insertMail outboxId key keyVersion ciphertext nowMs = .ok db') : ∃ outbox,
      db.outbox.insertOr SqlError.uniqueViolation (mailRow outboxId key keyVersion ciphertext nowMs) = .ok outbox ∧
        db' = { db with outbox := outbox } := by
  unfold Db.insertMail at h
  split at h
  · cases h
  · obtain ⟨outbox, hins, h⟩ := bind_eq_ok.1 h
    cases h
    exact ⟨outbox, hins, rfl⟩

theorem insertOneTimeToken_eq_ok {t : OneTimeToken} (h : db.insertOneTimeToken t = .ok db') :
    ∃ tokens, db.oneTimeTokens.insertOr SqlError.uniqueViolation t = .ok tokens ∧
      db' = { db with oneTimeTokens := tokens } := by
  obtain ⟨tokens, hins, h⟩ := bind_eq_ok.1 h
  cases h
  exact ⟨tokens, hins, rfl⟩

/-- A mail row as it was inserted. No mail key starts like a relationship key. -/
def OutboxRow.IsNewMail (row : OutboxRow) : Prop :=
  ∃ outboxId key keyVersion ciphertext nowMs, row = mailRow outboxId key keyVersion ciphertext nowMs ∧
    key.toList.head? ≠ some 'r'

/-- The outbox with one more mail row. -/
def Db.Mailed (db : Db) (outbox : Table OutboxRow.outboxId) : Prop :=
  ∃ row, row.IsNewMail ∧ db.outbox.insertOr SqlError.uniqueViolation row = .ok outbox

theorem mailed_of_insertMail {outboxId : Uuid} {key keyVersion : String} {ciphertext : Bytes} {nowMs : Int}
    (h : db.insertMail outboxId key keyVersion ciphertext nowMs = .ok db') (hkey : key.toList.head? ≠ some 'r') :
    ∃ outbox, db.Mailed outbox ∧ db' = { db with outbox := outbox } := by
  obtain ⟨outbox, hins, hdb⟩ := insertMail_eq_ok h
  exact ⟨outbox, ⟨_, ⟨_, _, _, _, _, rfl, hkey⟩, hins⟩, hdb⟩

theorem putBucket_eq_ok {bucket : RateLimitBucket} (h : db.putBucket bucket = .ok db') :
    ∃ buckets, db' = { db with rateLimitBuckets := buckets } := by
  unfold Db.putBucket at h
  split at h
  · cases h; exact ⟨_, rfl⟩
  · obtain ⟨buckets, -, h⟩ := bind_eq_ok.1 h
    cases h
    exact ⟨buckets, rfl⟩

/-- All the rows of a registration are inserted, and nothing else is written. -/
structure Registered (p : RegisterPassword) (db db' : Db) : Prop where
  users : db.users.insertOr SqlError.uniqueViolation p.user = .ok db'.users
  passwords : db.passwords.insertOr SqlError.uniqueViolation p.password = .ok db'.passwords
  oneTimeTokens : db.oneTimeTokens.insertOr SqlError.uniqueViolation p.token = .ok db'.oneTimeTokens
  outbox : db.outbox.insertOr SqlError.uniqueViolation (mailRow p.outboxId p.mailKey
    p.keyVersion p.payloadCiphertext p.nowMs) = .ok db'.outbox
  idempotency : db.idempotency.insertOr SqlError.uniqueViolation p.idempotencyRow = .ok db'.idempotency
  others : db' = { db with
    users := db'.users
    passwords := db'.passwords
    oneTimeTokens := db'.oneTimeTokens
    outbox := db'.outbox
    idempotency := db'.idempotency }

theorem insertRegistration_eq_ok {p r}
    (h : insertRegistration p db = .ok (r, db')) : r = .created p.userId ∧ Registered p db db' := by
  obtain ⟨users, husers, h⟩ := bind_eq_ok.1 h
  obtain ⟨passwords, hpasswords, h⟩ := bind_eq_ok.1 h
  obtain ⟨db₁, h₁, h⟩ := bind_eq_ok.1 h
  obtain ⟨db₂, h₂, h⟩ := bind_eq_ok.1 h
  obtain ⟨idempotency, hidem, h⟩ := bind_eq_ok.1 h
  cases h
  obtain ⟨tokens, htokens, rfl⟩ := insertOneTimeToken_eq_ok h₁
  obtain ⟨outbox, houtbox, rfl⟩ := insertMail_eq_ok h₂
  exact ⟨rfl, husers, hpasswords, htokens, houtbox, hidem, rfl⟩

/-- The outcomes of `register_password.sql`. -/
theorem registerPassword_cases {p r} (h : registerPassword p db = .ok (r, db')) : db' = db ∨ Registered p db db' := by
  unfold registerPassword at h
  split at h
  · split at h <;> cases h <;> exact .inl rfl
  · split at h
    · cases h; exact .inl rfl
    · exact .inr (insertRegistration_eq_ok h).2

theorem Registered.mailed {p : RegisterPassword} (h : Registered p db db') : db.Mailed db'.outbox := by
  have hkey : p.mailKey.toList.head? ≠ some 'r' := by
    unfold RegisterPassword.mailKey
    simp
  exact ⟨_, ⟨_, _, _, _, _, rfl, hkey⟩, h.outbox⟩

/-- The outcomes of `resend_email_verification.sql`. -/
theorem resendEmailVerification_cases {p r} (h : resendEmailVerification p db = .ok (r, db')) :
    ∃ buckets, db' = { db with rateLimitBuckets := buckets } ∨
      ∃ user token tokens outbox, (db.consumeTokens
          (fun t => decide (t.userId = some user ∧ t.purpose = .emailVerification)) p.nowMs).oneTimeTokens.insertOr
            SqlError.uniqueViolation token = .ok tokens ∧ db.Mailed outbox ∧
        db' = { db with rateLimitBuckets := buckets, oneTimeTokens := tokens, outbox := outbox } := by
  unfold resendEmailVerification at h
  obtain ⟨db₁, h₁, h⟩ := bind_eq_ok.1 h
  obtain ⟨buckets, rfl⟩ := putBucket_eq_ok h₁
  refine ⟨buckets, ?_⟩
  split at h
  · cases h; exact .inl rfl
  · rename_i user _
    obtain ⟨db₂, h₂, h⟩ := bind_eq_ok.1 h
    obtain ⟨db₃, h₃, h⟩ := bind_eq_ok.1 h
    cases h
    obtain ⟨tokens, hins, rfl⟩ := insertOneTimeToken_eq_ok h₂
    obtain ⟨outbox, hmail, rfl⟩ := mailed_of_insertMail h₃ (by simp)
    exact .inr ⟨user.userId, _, tokens, outbox, hins, hmail, rfl⟩

/-- The outcomes of `start_password_reset.sql`. -/
theorem startPasswordReset_cases {p r} (h : startPasswordReset p db = .ok (r, db')) :
    db' = db ∨ ∃ token tokens outbox, db.oneTimeTokens.insertOr SqlError.uniqueViolation token = .ok tokens ∧
      db.Mailed outbox ∧ db' = { db with oneTimeTokens := tokens, outbox := outbox } := by
  unfold startPasswordReset at h
  split at h
  · cases h; exact .inl rfl
  · obtain ⟨db₁, h₁, h⟩ := bind_eq_ok.1 h
    obtain ⟨db₂, h₂, h⟩ := bind_eq_ok.1 h
    cases h
    obtain ⟨tokens, hins, rfl⟩ := insertOneTimeToken_eq_ok h₁
    obtain ⟨outbox, hmail, rfl⟩ := mailed_of_insertMail h₂ (by simp)
    exact .inr ⟨_, tokens, outbox, hins, hmail, rfl⟩

theorem createAuthFlow_eq_ok {flow : Flow} {r : Unit} (h : createAuthFlow flow db = .ok (r, db')) :
    ∃ flows, db.flows.insertOr SqlError.uniqueViolation { flow with consumedAtMs := none } = .ok flows ∧
      db' = { db with flows := flows } := by
  unfold createAuthFlow at h
  split at h
  · cases h
  · obtain ⟨flows, hins, h⟩ := bind_eq_ok.1 h
    cases h
    exact ⟨flows, hins, rfl⟩

end Mail

/-! ## Invitations, organizations and roles -/

section Tenants
variable {db db' : Db}

/-- The row `create_invitation.sql` inserts. -/
def CreateInvitation.invitation (p : CreateInvitation) (createdBy : Uuid) : Invitation where
  invitationId := p.invitationId
  organizationId := p.organizationId
  normalizedEmail := p.normalizedEmail
  roleId := p.roleId
  tokenHash := p.tokenHash
  status := .pending
  expiresAtMs := p.expiresAtMs
  acceptedAtMs := none
  acceptedBy := none
  createdBy := createdBy

def CreateInvitation.replaces (p : CreateInvitation) (i : Invitation) : Bool :=
  decide (i.organizationId = p.organizationId ∧ i.normalizedEmail = p.normalizedEmail ∧ i.status = .pending)

/-- The outcomes of `create_invitation.sql`. -/
theorem createInvitation_cases {p r} (h : createInvitation p db = .ok (r, db')) : r = none ∧ db' = db ∨
      ∃ session user actor invitations tokens outbox,
        db.permittedActor p.sessionId p.organizationId "member.invite" p.nowMs = some (session, user, actor) ∧
          db.mayInvite p.organizationId p.roleId actor.roleId = true ∧
            db.invitationHashTaken p.tokenHash none = false ∧
              (db.revokeInvitations p.replaces).invitations.insertOr SqlError.uniqueViolation
                (p.invitation user.userId) = .ok invitations ∧
                db.oneTimeTokens.insertOr SqlError.uniqueViolation (invitationToken p.tokenHash p.expiresAtMs) =
                  .ok tokens ∧ db.Mailed outbox ∧
                  r = some (p.invitation user.userId) ∧
                    db' = { db with invitations := invitations, oneTimeTokens := tokens, outbox := outbox } := by
  unfold createInvitation at h
  split at h
  · cases h; exact .inl ⟨rfl, rfl⟩
  · rename_i session user actor hactor
    split at h
    · rename_i hmay
      dsimp only at h
      split at h
      · cases h
      · rename_i hfree
        obtain ⟨invitations, hins, h⟩ := bind_eq_ok.1 h
        obtain ⟨db₁, h₁, h⟩ := bind_eq_ok.1 h
        obtain ⟨db₂, h₂, h⟩ := bind_eq_ok.1 h
        cases h
        obtain ⟨tokens, htokens, rfl⟩ := insertOneTimeToken_eq_ok h₁
        obtain ⟨outbox, hmail, rfl⟩ := mailed_of_insertMail h₂ (by simp)
        exact .inr ⟨session, user, actor, invitations, tokens, outbox, hactor, hmay, by simpa using hfree, hins,
          htokens, hmail, rfl, rfl⟩
    · cases h; exact .inl ⟨rfl, rfl⟩

theorem pendingInvitation_eq_some {invitationId organization : Uuid} {i : Invitation}
    (h : db.pendingInvitation invitationId organization = some i) :
    db.invitations.find? i.invitationId = some i ∧ i.invitationId = invitationId ∧
      i.organizationId = organization ∧ i.status = .pending := by
  obtain ⟨hfind, hi⟩ := Option.filter_eq_some_iff.1 h
  have hid := (Table.find?_eq_some.1 hfind).2
  exact ⟨hid ▸ hfind, hid, of_decide_eq_true hi⟩

def Invitation.holds (i : Invitation) (t : OneTimeToken) : Bool :=
  decide (t.tokenHash = i.tokenHash ∧ t.purpose = .invitation)

/-- The outcomes of `resend_invitation.sql`. -/
theorem resendInvitation_cases {p r} (h : resendInvitation p db = .ok (r, db')) : r = none ∧ db' = db ∨
      ∃ session user actor invitation tokens outbox,
        db.permittedActor p.sessionId p.organizationId "member.invite" p.nowMs = some (session, user, actor) ∧
          db.pendingInvitation p.invitationId p.organizationId = some invitation ∧
            db.invitationHashTaken p.tokenHash (some p.invitationId) = false ∧
              (db.consumeTokens invitation.holds p.nowMs).oneTimeTokens.insertOr SqlError.uniqueViolation
                (invitationToken p.tokenHash p.expiresAtMs) = .ok tokens ∧ db.Mailed outbox ∧
                r = some { invitation with tokenHash := p.tokenHash, expiresAtMs := p.expiresAtMs } ∧
                  db' = { db with
                    invitations := db.invitations.set
                      { invitation with tokenHash := p.tokenHash, expiresAtMs := p.expiresAtMs }
                    oneTimeTokens := tokens
                    outbox := outbox } := by
  unfold resendInvitation at h
  split at h
  · rename_i actor invitation hactor hpending
    dsimp only at h
    split at h
    · cases h
    · rename_i hfree
      obtain ⟨db₁, h₁, h⟩ := bind_eq_ok.1 h
      obtain ⟨db₂, h₂, h⟩ := bind_eq_ok.1 h
      cases h
      obtain ⟨tokens, htokens, rfl⟩ := insertOneTimeToken_eq_ok h₁
      obtain ⟨outbox, hmail, rfl⟩ := mailed_of_insertMail h₂ (by simp)
      exact .inr ⟨_, _, _, invitation, tokens, outbox, hactor, hpending, Bool.not_eq_true _ ▸ hfree, htokens,
        hmail, rfl, rfl⟩
  · cases h; exact .inl ⟨rfl, rfl⟩

/-- The outcomes of `revoke_invitation.sql`. -/
theorem revokeInvitation_cases {p r} (h : revokeInvitation p db = .ok (r, db')) : r = none ∧ db' = db ∨
      ∃ session user actor invitation,
        db.permittedActor p.sessionId p.organizationId "member.invite" p.nowMs = some (session, user, actor) ∧
          db.pendingInvitation p.invitationId p.organizationId = some invitation ∧
            r = some { invitation with status := .revoked } ∧
              db' = (db.consumeTokens invitation.holds p.nowMs).setInvitation
                { invitation with status := .revoked } := by
  unfold revokeInvitation at h
  split at h
  · rename_i hactor hpending
    cases h
    exact .inr ⟨_, _, _, _, hactor, hpending, rfl, rfl⟩
  · cases h; exact .inl ⟨rfl, rfl⟩

theorem activeOrganization_eq_some {id : Uuid} {org : Organization} (h : db.activeOrganization id = some org) :
    db.organizations.find? org.organizationId = some org ∧ org.organizationId = id ∧ org.status = .active := by
  obtain ⟨hfind, hact⟩ := Option.filter_eq_some_iff.1 h
  have hid := (Table.find?_eq_some.1 hfind).2
  exact ⟨hid ▸ hfind, hid, by simpa using hact⟩

theorem commit_of_no_events {st : Statement} {uuids : Nat → Uuid} (hrows : st.afterRows = [])
    (h : st.commit uuids = .ok db') : db' = st.db := by
  obtain ⟨db₁, h₁, h⟩ := bind_eq_ok.1 h
  rw [hrows] at h₁
  cases h₁
  split at h
  · cases h; rfl
  · cases h

/-- The outcomes of `select_organization.sql`. -/
theorem selectOrganization_cases {p r} (h : selectOrganization p db = .ok (r, db')) : r = none ∧ db' = db ∨
      ∃ session user actor org, db.memberActor p.sessionId p.organizationId p.nowMs = some (session, user, actor) ∧
        db.activeOrganization p.organizationId = some org ∧
          db' = db.selectOrganizationIn session.sessionId session.userId p.organizationId := by
  unfold selectOrganization at h
  split at h
  · rename_i hactor horg
    cases h
    exact .inr ⟨_, _, _, _, hactor, horg, rfl⟩
  · cases h; exact .inl ⟨rfl, rfl⟩

/-- The outcomes of `update_organization.sql`. -/
theorem updateOrganization_cases {p r} (h : updateOrganization p db = .ok (r, db')) : r = none ∧ db' = db ∨
      ∃ session user actor org,
        db.permittedActor p.sessionId p.organizationId "organization.update" p.nowMs = some (session, user, actor) ∧
          db.activeOrganization p.organizationId = some org ∧ db' = db.setOrganization { org with name := p.name } := by
  unfold updateOrganization at h
  split at h
  · rename_i hactor horg
    cases h
    exact .inr ⟨_, _, _, _, hactor, horg, rfl⟩
  · cases h; exact .inl ⟨rfl, rfl⟩

def Organization.archivedRow (org : Organization) : Organization :=
  { org with status := .archived, authorizationRevision := org.authorizationRevision + 1 }

theorem mem_revokeInvitations {q : Invitation → Bool} {i' : Invitation}
    (h : i' ∈ (db.revokeInvitations q).invitations) : ∃ i ∈ db.invitations,
      q i = true ∧ i' = { i with status := .revoked } ∨ q i = false ∧ i' = i := by
  have h : i' ∈ db.invitations.update q (fun i => { i with status := .revoked }) fun _ => rfl := h
  obtain ⟨i, hi, rfl⟩ := Table.mem_update.1 h
  refine ⟨i, hi, ?_⟩
  cases hq : q i with
  | true => exact .inl ⟨rfl, if_pos rfl⟩
  | false => exact .inr ⟨rfl, if_neg Bool.false_ne_true⟩

/-- The outcomes of `archive_organization.sql`. -/
theorem archiveOrganization_cases {p r} (h : archiveOrganization p db = .ok (r, db')) : r = none ∧ db' = db ∨
      ∃ session user actor org,
        db.permittedActor p.sessionId p.organizationId "ownership.transfer" p.nowMs = some (session, user, actor) ∧
          db.activeOrganization p.organizationId = some org ∧
            db' = (((db.setOrganization org.archivedRow).consumeInvitationTokens p.organizationId
              p.nowMs).revokePendingInvitations p.organizationId).clearSessions
                fun s => decide (s.selectedOrganizationId = some p.organizationId) := by
  unfold archiveOrganization at h
  split at h
  · rename_i hactor horg
    obtain ⟨db₁, hc, h⟩ := bind_eq_ok.1 h
    cases h
    exact .inr ⟨_, _, _, _, hactor, horg, commit_of_no_events rfl hc⟩
  · cases h; exact .inl ⟨rfl, rfl⟩

def SavedRole (organization : Uuid) (roleId name : String) (t t' : Table Role.key) : Prop :=
  (∃ role, t.find? (organization, roleId) = some role ∧ role.builtIn = false ∧ t' = t.set { role with name := name }) ∨
    t.insertOr SqlError.uniqueViolation
      { organizationId := organization, roleId := roleId, name := name, builtIn := false } = .ok t'

theorem saveRole_cases {organization : Uuid} {roleId name : String}
    (h : db.saveRole organization roleId name = .ok (some db')) :
    ∃ roles, SavedRole organization roleId name db.roles roles ∧ db' = { db with roles := roles } := by
  unfold Db.saveRole at h
  dsimp only at h
  split at h
  · rename_i role hrole
    split at h
    · cases h
    · rename_i hcustom
      split at h
      · cases h
      · cases h
        exact ⟨_, .inl ⟨role, hrole, by simpa using hcustom, rfl⟩, rfl⟩
  · split at h
    · cases h
    · obtain ⟨roles, hins, h⟩ := bind_eq_ok.1 h
      cases h
      exact ⟨roles, .inr hins, rfl⟩

def UpsertRole.permissionRows (p : UpsertRole) : List RolePermission :=
  p.permissions.map fun permission => ⟨p.organizationId, p.roleId, permission⟩

/-- The outcomes of `upsert_role.sql`. -/
theorem upsertRole_cases {p r} (h : upsertRole p db = .ok (r, db')) : r = none ∧ db' = db ∨
      ∃ session user actor org roles permissions,
        db.permittedActor p.sessionId p.organizationId "role.manage" p.nowMs = some (session, user, actor) ∧
          db.activeOrganization p.organizationId = some org ∧
            SavedRole p.organizationId p.roleId p.name db.roles roles ∧
              (db.deleteRolePermissions p.organizationId p.roleId).rolePermissions.insertAllOr
                SqlError.uniqueViolation p.permissionRows = .ok permissions ∧
                db' = Db.bumpAuthorizationRevision p.organizationId
                  { db with roles := roles, rolePermissions := permissions } := by
  unfold upsertRole at h
  split at h
  · rename_i hactor horg
    obtain ⟨saved?, hsave, h⟩ := bind_eq_ok.1 h
    split at h
    · cases h; exact .inl ⟨rfl, rfl⟩
    · obtain ⟨permissions, hins, h⟩ := bind_eq_ok.1 h
      cases h
      obtain ⟨roles, hsaved, rfl⟩ := saveRole_cases hsave
      exact .inr ⟨_, _, _, _, roles, permissions, hactor, horg, hsaved, hins, rfl⟩
  · cases h; exact .inl ⟨rfl, rfl⟩

end Tenants

/-! ## Keys and policy bundles -/

section Keys
variable {db db' : Db}

/-- A rotation writes `auth_signing_keys` only. -/
theorem rotateSigningKey_others {p r} (h : rotateSigningKey p db = .ok (r, db')) :
    ∃ keys, db' = { db with signingKeys := keys } := by
  unfold rotateSigningKey at h
  split at h
  · dsimp only at h
    split at h
    · cases h
    · cases h; exact ⟨_, rfl⟩
  · cases h; exact ⟨_, rfl⟩

/-- A configured key is restated or inserted. -/
theorem syncKey_cases {p : SyncSigningKeys} {d : KeyDescriptor} (h : db.syncKey p d = .ok db') :
    (∃ key, db.signingKeys.find? d.kid = some key ∧
      db' = { db with signingKeys := db.signingKeys.set (p.refreshed d key) }) ∨
    db.signingKeys.find? d.kid = none ∧ (d.status = .active → ¬ db.otherActiveKey d.kid = true) ∧
      ∃ keys, db.signingKeys.insertOr SqlError.uniqueViolation (p.fresh d) = .ok keys ∧
        db' = { db with signingKeys := keys } := by
  unfold Db.syncKey at h
  split at h
  · rename_i key hfind
    cases h
    exact .inl ⟨key, hfind, rfl⟩
  · rename_i hfind
    split at h
    · cases h
    · rename_i hfree
      obtain ⟨keys, hins, h⟩ := bind_eq_ok.1 h
      cases h
      exact .inr ⟨hfind, fun hact hother => hfree (by simp [hact, hother]), keys, hins, rfl⟩

theorem syncKeys_others {p : SyncSigningKeys} : ∀ {ds : List KeyDescriptor} {db db' : Db},
    db.syncKeys p ds = .ok db' → ∃ keys, db' = { db with signingKeys := keys }
  | [], _, _, h => by cases h; exact ⟨_, rfl⟩
  | _ :: _, _, _, h => by
    obtain ⟨db₁, h₁, h⟩ := bind_eq_ok.1 h
    obtain ⟨keys, rfl⟩ := syncKeys_others h
    obtain ⟨_, -, rfl⟩ | ⟨-, -, _, -, rfl⟩ := syncKey_cases h₁ <;> exact ⟨keys, rfl⟩

theorem syncSigningKeys_eq_ok {p : SyncSigningKeys} {n : Nat} (h : syncSigningKeys p db = .ok (n, db')) :
    n = (p.configured.filter (·.hasPrivateMaterial)).length ∧
      (db.retireMissing p).syncKeys p (p.configured.filter (·.hasPrivateMaterial)) = .ok db' := by
  unfold syncSigningKeys at h
  dsimp only at h
  split at h
  · obtain ⟨db₁, h₁, h⟩ := bind_eq_ok.1 h
    cases h
    exact ⟨rfl, h₁⟩
  · cases h

theorem syncSigningKeys_others {p r} (h : syncSigningKeys p db = .ok (r, db')) :
    ∃ keys, db' = { db with signingKeys := keys } := by
  obtain ⟨keys, rfl⟩ := syncKeys_others (syncSigningKeys_eq_ok h).2
  exact ⟨keys, rfl⟩

theorem putBundle_others {p : PublishPolicyBundle} {user : Uuid} {bundle : PolicyBundle}
    (h : db.putBundle p user = .ok (bundle, db')) : ∃ bundles, db' = { db with policyBundles := bundles } := by
  unfold Db.putBundle at h
  split at h
  · split at h
    · cases h
    · cases h; exact ⟨_, rfl⟩
  · split at h
    · cases h
    · obtain ⟨bundles, -, h⟩ := bind_eq_ok.1 h
      cases h
      exact ⟨bundles, rfl⟩

/-- A publication writes `auth_policy_bundles` only. -/
theorem publishPolicyBundle_others {p r} (h : publishPolicyBundle p db = .ok (r, db')) :
    ∃ bundles, db' = { db with policyBundles := bundles } := by
  unfold publishPolicyBundle at h
  split at h
  · cases h; exact ⟨_, rfl⟩
  · obtain ⟨⟨bundle, published⟩, h₁, h⟩ := bind_eq_ok.1 h
    obtain ⟨_, rfl⟩ := putBundle_others h₁
    cases h
    cases p.retireFirst <;> exact ⟨_, rfl⟩

end Keys

end WasiAuth
