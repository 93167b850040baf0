import WasiAuth.Base.Table
import WasiAuth.Base.Text

/-! # The relational schema (`migrations/postgres/0001` – `0014`)

One structure per table the modelled statements read or write, one inductive type per `CHECK (… IN …)`
column. Primary keys are the `Table` keys of `Db`; the other unique indexes are checked where rows are
inserted. A nullable column is an `Option`, a `BIGINT` time an `Int` in milliseconds, a revision or a
count a `Nat`. Columns that no modelled statement reads (`updated_at_ms` other than the membership's,
profile and payload JSON, the audit log) are left out.
-/

namespace WasiAuth

open Relational

/-! ## Column types -/

/-- `UUID`: 128 bits, ordered as PostgreSQL orders them (most significant byte first). -/
structure Uuid where
  bits : BitVec 128
deriving DecidableEq

namespace Uuid

instance : LT Uuid := ⟨fun a b => a.bits < b.bits⟩
instance (a b : Uuid) : Decidable (a < b) := inferInstanceAs (Decidable (a.bits < b.bits))

theorem lt_or_lt_of_ne {u v : Uuid} (h : u ≠ v) : u < v ∨ v < u := by
  have hbits : u.bits.toNat ≠ v.bits.toNat := by
    intro he
    cases u
    cases v
    exact h (congrArg Uuid.mk (BitVec.eq_of_toNat_eq he))
  rcases Nat.lt_or_gt_of_ne hbits with hlt | hgt
  · exact .inl (BitVec.lt_def.2 hlt)
  · exact .inr (BitVec.lt_def.2 hgt)

/-- The characters of `uuid::text`: lower-case hexadecimal in groups of 8-4-4-4-12. -/
def chars (u : Uuid) : List Char :=
  let n := u.bits.toNat
  Text.hexDigits 8 (n / 2 ^ 96) ++ '-' :: (Text.hexDigits 4 (n / 2 ^ 80) ++ '-' ::
    (Text.hexDigits 4 (n / 2 ^ 64) ++ '-' :: (Text.hexDigits 4 (n / 2 ^ 48) ++ '-' :: Text.hexDigits 12 n)))

theorem mem_chars {c : Char} {u : Uuid} (h : c ∈ u.chars) : c = '-' ∨ ∃ d < 16, c = Text.hexDigit d := by
  simp only [chars, List.mem_append, List.mem_cons] at h
  rcases h with h | rfl | h | rfl | h | rfl | h | rfl | h
  all_goals first
    | exact .inl rfl
    | exact .inr (Text.exists_of_mem_hexDigits h)

/-- `uuid::text`. -/
def text (u : Uuid) : String := String.ofList u.chars

@[simp] theorem length_chars (u : Uuid) : u.chars.length = 36 := by
  simp [chars]

@[simp] theorem toList_text (u : Uuid) : u.text.toList = u.chars := String.toList_ofList

theorem chars_inj {u v : Uuid} (h : u.chars = v.chars) : u = v := by
  obtain ⟨h₁, h⟩ := List.append_inj h (by simp)
  obtain ⟨h₂, h⟩ := List.append_inj (List.cons.inj h).2 (by simp)
  obtain ⟨h₃, h⟩ := List.append_inj (List.cons.inj h).2 (by simp)
  obtain ⟨h₄, h⟩ := List.append_inj (List.cons.inj h).2 (by simp)
  have h₅ := Text.hexDigits_inj (List.cons.inj h).2
  replace h₁ := Text.hexDigits_inj h₁
  replace h₂ := Text.hexDigits_inj h₂
  replace h₃ := Text.hexDigits_inj h₃
  replace h₄ := Text.hexDigits_inj h₄
  have hu := u.bits.isLt
  have hv := v.bits.isLt
  have hn : u.bits.toNat = v.bits.toNat := by
    norm_num at h₁ h₂ h₃ h₄ h₅ hu hv
    omega
  cases u
  cases v
  exact congrArg Uuid.mk (BitVec.eq_of_toNat_eq hn)

theorem text_inj {u v : Uuid} (h : u.text = v.text) : u = v :=
  chars_inj (by rw [← toList_text, ← toList_text, h])

end Uuid

/-- `BYTEA`: hashes, ciphertexts and keys. -/
abbrev Bytes := List UInt8

inductive UserStatus
  | pendingVerification | active | disabled | anonymized
deriving DecidableEq

/-- `aal1 < aal2 < aal3`. -/
inductive Assurance
  | aal1 | aal2 | aal3
deriving DecidableEq

/-- `assurance IN ('aal2', 'aal3')`. -/
def Assurance.stepped : Assurance → Bool
  | .aal1 => false
  | .aal2 | .aal3 => true

inductive OrganizationStatus
  | active | archived
deriving DecidableEq

inductive MembershipStatus
  | active | suspended | blocked | removed
deriving DecidableEq

inductive InvitationStatus
  | pending | accepted | revoked | expired
deriving DecidableEq

inductive TokenPurpose
  | emailVerification | passwordReset | invitation
deriving DecidableEq

inductive FlowKind
  | oauth | webauthnRegistration | webauthnAuthentication
deriving DecidableEq

inductive SigningAlgorithm
  | es256 | hs256
deriving DecidableEq

inductive SigningKeyStatus
  | next | active | retired | revoked
deriving DecidableEq

inductive BundleStatus
  | staged | active | retired
deriving DecidableEq

inductive OutboxStatus
  | pending | leased | delivered | deadLetter
deriving DecidableEq

inductive RelationshipOperation
  | grant | revoke
deriving DecidableEq

/-- The `operation` column of `auth_idempotency`. -/
inductive IdempotentOperation
  | registerPassword | createOrganization
deriving DecidableEq
/-! ## Rows -/

/-- `auth_users`. -/
structure User where
  userId : Uuid
  normalizedEmail : String
  primaryEmail : String
  status : UserStatus
  securityRevision : Nat
  createdAtMs : Int
deriving DecidableEq

/-- `auth_external_identities`; `profile` is the text of the JSON value. -/
structure ExternalIdentity where
  providerId : String
  providerSubject : String
  userId : Uuid
  email : Option String
  profile : String
  updatedAtMs : Int
deriving DecidableEq

/-- `auth_passwords`. -/
structure Password where
  userId : Uuid
  passwordHash : String
  lastAuthenticatedAtMs : Option Int
  revokedAtMs : Option Int
deriving DecidableEq

/-- `auth_passkeys`. -/
structure Passkey where
  credentialId : Bytes
  userId : Uuid
  publicKeyCose : Bytes
  signCount : Nat
  transports : String
  displayName : String
  lastUsedAtMs : Option Int
deriving DecidableEq

/-- `auth_totp_factors`; `last_consumed_step` is migration 0014's. -/
structure TotpFactor where
  userId : Uuid
  keyVersion : String
  secretCiphertext : Bytes
  enabledAtMs : Option Int
  lastConsumedStep : Option Int
deriving DecidableEq

/-- `auth_recovery_codes`. -/
structure RecoveryCode where
  userId : Uuid
  codeHash : Bytes
  usedAtMs : Option Int
deriving DecidableEq

/-- `auth_flows`. -/
structure Flow where
  flowId : Uuid
  kind : FlowKind
  userId : Option Uuid
  verifierHash : Bytes
  keyVersion : String
  payloadCiphertext : Bytes
  expiresAtMs : Int
  consumedAtMs : Option Int
deriving DecidableEq

/-- `auth_sessions`. -/
structure Session where
  sessionId : Uuid
  userId : Uuid
  selectedOrganizationId : Option Uuid
  assurance : Assurance
  sessionRevision : Nat
  userSecurityRevision : Nat
  expiresAtMs : Int
  revokedAtMs : Option Int
  createdAtMs : Int
deriving DecidableEq

/-- `auth_refresh_tokens`. -/
structure RefreshToken where
  tokenHash : Bytes
  sessionId : Uuid
  familyId : Uuid
  successorHash : Option Bytes
  successorKeyVersion : Option String
  successorCiphertext : Option Bytes
  replayUntilMs : Option Int
  expiresAtMs : Int
  rotatedAtMs : Option Int
  revokedAtMs : Option Int
deriving DecidableEq

/-- `auth_one_time_tokens`. -/
structure OneTimeToken where
  tokenHash : Bytes
  purpose : TokenPurpose
  userId : Option Uuid
  expiresAtMs : Int
  consumedAtMs : Option Int
deriving DecidableEq

/-- `auth_organizations`, with `owner_count` (0004) and `slug` (0011). -/
structure Organization where
  organizationId : Uuid
  name : String
  slug : String
  status : OrganizationStatus
  authorizationRevision : Nat
  ownerCount : Nat
  createdBy : Uuid
  createdAtMs : Int
deriving DecidableEq

/-- `auth_roles`. -/
structure Role where
  organizationId : Uuid
  roleId : String
  name : String
  builtIn : Bool
deriving DecidableEq

/-- `auth_role_permissions`; the whole row is the key. -/
structure RolePermission where
  organizationId : Uuid
  roleId : String
  permission : String
deriving DecidableEq

/-- `auth_memberships`. -/
structure Membership where
  organizationId : Uuid
  userId : Uuid
  roleId : String
  status : MembershipStatus
  joinedAtMs : Int
  updatedAtMs : Int
deriving DecidableEq

/-- `auth_invitations`, with `accepted_by` (0003). -/
structure Invitation where
  invitationId : Uuid
  organizationId : Uuid
  normalizedEmail : String
  roleId : String
  tokenHash : Bytes
  status : InvitationStatus
  expiresAtMs : Int
  acceptedAtMs : Option Int
  acceptedBy : Option Uuid
  createdBy : Uuid
deriving DecidableEq

/-- `auth_system_administrators`. -/
structure SystemAdministrator where
  userId : Uuid
  grantedBy : Option Uuid
  grantedAtMs : Int
  revokedAtMs : Option Int
deriving DecidableEq

/-- `auth_signing_keys`, with `secret_reference` (0007). -/
structure SigningKey where
  keyId : String
  algorithm : SigningAlgorithm
  status : SigningKeyStatus
  publicJwk : String
  keyVersion : String
  secretReference : Option String
  createdAtMs : Int
  activatedAtMs : Option Int
  retiredAtMs : Option Int
  revokedAtMs : Option Int
deriving DecidableEq

/-- `auth_policy_bundles`. -/
structure PolicyBundle where
  policyRevision : String
  cedarSchema : String
  cedarPolicy : String
  entities : String
  checksum : Bytes
  status : BundleStatus
  createdBy : Uuid
  createdAtMs : Int
  activatedAtMs : Option Int
deriving DecidableEq

/-- `auth_idempotency`; `response_public` holds the id of the entity the call created. -/
structure Idempotency where
  idempotencyKey : String
  actorKey : String
  operation : IdempotentOperation
  requestHash : Bytes
  response : Uuid
deriving DecidableEq

/-- `auth_rate_limit_buckets`. -/
structure RateLimitBucket where
  bucketKey : String
  attemptCount : Nat
  windowExpiresAtMs : Int
deriving DecidableEq

structure RelationshipTuple where
  resourceType : String
  resourceId : String
  relation : String
  subjectType : String
  subjectId : String
deriving DecidableEq

/-- The two payload shapes the constraint `auth_outbox_payload_shape` (0010) allows for rows written
after that migration. -/
inductive OutboxPayload
  | mail (keyVersion : String) (payloadCiphertext : Bytes)
  | relationship (operation : RelationshipOperation) (tuple : RelationshipTuple) (resourceRevision : Nat)
deriving DecidableEq

inductive OutboxKind
  | mail | relationship
deriving DecidableEq

def OutboxPayload.kind : OutboxPayload → OutboxKind
  | .mail .. => .mail
  | .relationship .. => .relationship

/-- `auth_outbox`, with `delivery_id` (0002) and the typed relationship columns (0010). -/
structure OutboxRow where
  outboxId : Uuid
  deduplicationKey : String
  payload : OutboxPayload
  status : OutboxStatus
  attemptCount : Nat
  availableAtMs : Int
  leaseId : Option Uuid
  leasedUntilMs : Option Int
  deliveredAtMs : Option Int
  deliveryId : Option String
  lastErrorCode : Option String
  createdAtMs : Int
deriving DecidableEq

/-! ## The database -/

def ExternalIdentity.key (i : ExternalIdentity) : String × String := (i.providerId, i.providerSubject)
def RecoveryCode.key (c : RecoveryCode) : Uuid × Bytes := (c.userId, c.codeHash)
def Role.key (r : Role) : Uuid × String := (r.organizationId, r.roleId)
def Membership.key (m : Membership) : Uuid × Uuid := (m.organizationId, m.userId)

structure Db where
  users : Table User.userId := .empty
  externalIdentities : Table ExternalIdentity.key := .empty
  passwords : Table Password.userId := .empty
  passkeys : Table Passkey.credentialId := .empty
  totpFactors : Table TotpFactor.userId := .empty
  recoveryCodes : Table RecoveryCode.key := .empty
  flows : Table Flow.flowId := .empty
  sessions : Table Session.sessionId := .empty
  refreshTokens : Table RefreshToken.tokenHash := .empty
  oneTimeTokens : Table OneTimeToken.tokenHash := .empty
  organizations : Table Organization.organizationId := .empty
  roles : Table Role.key := .empty
  rolePermissions : Table (id : RolePermission → RolePermission) := .empty
  memberships : Table Membership.key := .empty
  invitations : Table Invitation.invitationId := .empty
  systemAdministrators : Table SystemAdministrator.userId := .empty
  signingKeys : Table SigningKey.keyId := .empty
  policyBundles : Table PolicyBundle.policyRevision := .empty
  idempotency : Table Idempotency.idempotencyKey := .empty
  rateLimitBuckets : Table RateLimitBucket.bucketKey := .empty
  outbox : Table OutboxRow.outboxId := .empty

/-- A database on which the migrations have run and nothing else. -/
def Db.empty : Db := {}

/-- The constraint violations a statement can raise; each aborts the whole statement. -/
inductive SqlError
  /-- 23505, on a primary key or a unique index. -/
  | uniqueViolation
  /-- 23503, `membership references a missing organization`. -/
  | foreignKeyViolation
  /-- 23514, `auth_organization_requires_owner`. -/
  | organizationRequiresOwner
deriving DecidableEq

end WasiAuth
