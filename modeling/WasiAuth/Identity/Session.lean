import WasiAuth.Identity.Context
import WasiAuth.Postgres.Keys

/-! # The authoritative session

`load_request_context.sql` and `load_request_fingerprint.sql` join and filter alike and differ in what they return: the
fingerprint leaves out the email, the creation time and the permissions. A row has the columns' types, so the decoding
errors for a missing column or a wrong type are not modelled.
-/

namespace WasiAuth

open Relational

/-! ## `text::uuid` -/

def hexValue (c : Char) : Option Nat :=
  if '0' ≤ c ∧ c ≤ '9' then some (c.toNat - '0'.toNat)
  else if 'a' ≤ c ∧ c ≤ 'f' then some (c.toNat - 'a'.toNat + 10)
  else if 'A' ≤ c ∧ c ≤ 'F' then some (c.toNat - 'A'.toNat + 10)
  else none

/-- `n` more bytes of a UUID, two digits each, with an optional hyphen after every second byte. -/
def uuidBytes : (n : Nat) → List Char → (value : Nat) → Option (Nat × List Char)
  | 0, text, value => some (value, text)
  | n + 1, high :: low :: text, value =>
    (hexValue high).bind fun high => (hexValue low).bind fun low =>
      let text := if n ≠ 0 ∧ n % 2 = 0 ∧ text.head? = some '-' then text.tail else text
      uuidBytes n text (value * 256 + high * 16 + low)
  | _ + 1, _, _ => none

/-- The input function of the type `uuid`, which also takes upper case, braces and other hyphens. -/
def Uuid.ofText? (text : String) : Option Uuid :=
  let braces := text.toList.head? = some '\x7b'
  (uuidBytes 16 (if braces then text.toList.tail else text.toList) 0).bind fun (value, rest) =>
    if rest = (if braces then ['\x7d'] else []) then some ⟨BitVec.ofNat 128 value⟩ else none

theorem hexValue_hexDigit {d : Nat} (h : d < 16) : hexValue (Text.hexDigit d) = some d := by
  have hall : ∀ d < 16, hexValue (Text.hexDigit d) = some d := by decide
  exact hall d h

theorem uuidBytes_hexDigits (m n : Nat) (rest : List Char) : ∀ (k value : Nat),
    uuidBytes (k + 1 + m) (Text.hexDigits (2 * (k + 1)) n ++ rest) value =
      uuidBytes m (if m ≠ 0 ∧ m % 2 = 0 ∧ rest.head? = some '-' then rest.tail else rest)
        (value * 256 ^ (k + 1) + n % 256 ^ (k + 1))
  | 0, value => by
    have hbyte : value * 256 + n / 16 % 16 * 16 + n % 16 = value * 256 + n % 256 := by omega
    simp only [Text.hexDigits, List.cons_append, List.nil_append, uuidBytes,
      hexValue_hexDigit (Nat.mod_lt _ (by decide : 0 < 16)), Option.bind_some, Nat.zero_add, Nat.add_comm 1 m]
    simpa using congrArg _ hbyte
  | k + 1, value => by
    have hsplit : Text.hexDigits (2 * (k + 1 + 1)) n =
        Text.hexDigit (n / 16 ^ (2 * (k + 1) + 1) % 16) :: Text.hexDigit (n / 16 ^ (2 * (k + 1)) % 16) ::
          Text.hexDigits (2 * (k + 1)) n := by
      rw [← Text.hexDigits_cons, ← Text.hexDigits_cons]
      rfl
    have hhead : (Text.hexDigits (2 * (k + 1)) n ++ rest).head? ≠ some '-' := by
      have hdigits : ∀ d < 16, Text.hexDigit d ≠ '-' := by decide
      rw [show 2 * (k + 1) = 2 * k + 1 + 1 from rfl, Text.hexDigits_cons]
      simpa using hdigits _ (Nat.mod_lt _ (by decide))
    have hpow : 16 ^ (2 * (k + 1)) = 256 ^ (k + 1) := by rw [Nat.pow_mul]
    have hbyte : n / 16 ^ (2 * (k + 1) + 1) % 16 * 16 + n / 16 ^ (2 * (k + 1)) % 16 = n / 256 ^ (k + 1) % 256 := by
      rw [Nat.pow_succ, ← Nat.div_div_eq_div_mul, hpow]
      omega
    rw [hsplit, show k + 1 + 1 + m = (k + 1 + m) + 1 by omega]
    simp only [List.cons_append, uuidBytes, hexValue_hexDigit (Nat.mod_lt _ (by decide : 0 < 16)), Option.bind_some,
      hhead, and_false, if_false]
    rw [uuidBytes_hexDigits m n rest k, Nat.add_assoc (value * 256), hbyte]
    congr 1
    rw [Nat.pow_succ 256 (k + 1), Nat.mod_mul]
    ring

theorem Uuid.ofText?_text (u : Uuid) : Uuid.ofText? u.text = some u := by
  have hhead : u.chars.head? ≠ some '\x7b' := by
    intro h
    rcases Uuid.mem_chars (List.mem_of_head? h) with h | ⟨d, hd, h⟩
    · revert h
      decide
    · have hdigits : ∀ d < 16, '\x7b' ≠ Text.hexDigit d := by decide
      exact hdigits d hd h
  have hlt := u.bits.isLt
  have hread : uuidBytes 16 u.chars 0 = some (u.bits.toNat, []) := by
    unfold Uuid.chars
    rw [uuidBytes_hexDigits 12 _ _ 3]
    simp only [List.head?_cons, List.tail_cons]
    rw [if_pos (by decide), uuidBytes_hexDigits 10 _ _ 1]
    simp only [List.head?_cons, List.tail_cons]
    rw [if_pos (by decide), uuidBytes_hexDigits 8 _ _ 1]
    simp only [List.head?_cons, List.tail_cons]
    rw [if_pos (by decide), uuidBytes_hexDigits 6 _ _ 1]
    simp only [List.head?_cons, List.tail_cons]
    rw [if_pos (by decide), ← List.append_nil (Text.hexDigits 12 _), uuidBytes_hexDigits 0 _ _ 5]
    simp only [uuidBytes, List.head?_nil, ne_eq, not_true_eq_false, false_and, if_false]
    norm_num at hlt ⊢
    omega
  simp only [Uuid.ofText?, Uuid.toList_text, hhead, if_false, hread, Option.bind_some]
  simp

theorem new_text (u : Uuid) : ∃ id, Identifier.new u.text = .ok id := by
  have hne : u.text ≠ "" := by
    intro h
    have hlength := u.length_chars
    rw [← Uuid.toList_text, h] at hlength
    cases hlength
  have hsize : ¬ 256 < u.text.utf8ByteSize := by
    have hle := Text.utf8ByteSize_ofList_le u.chars
    rw [u.length_chars] at hle
    exact not_lt.2 (hle.trans (by decide))
  have hchars : ¬ u.text.toList.any (fun c => isControl c || isWhitespace c) = true := by
    have hdigits : ∀ d < 16, (isControl (Text.hexDigit d) || isWhitespace (Text.hexDigit d)) = false := by decide
    rw [List.any_eq_true]
    rintro ⟨c, hc, hbad⟩
    rw [Uuid.toList_text] at hc
    rcases Uuid.mem_chars hc with rfl | ⟨d, hd, rfl⟩
    · revert hbad
      decide
    · rw [hdigits d hd] at hbad
      cases hbad
  have hvalid : validateIdentifier u.text = .ok () := by
    rw [validateIdentifier, if_neg hne, if_neg hsize, if_neg hchars]
  unfold Identifier.new
  split
  · exact ⟨_, rfl⟩
  · rename_i e he
    rw [hvalid] at he
    cases he

/-! ## The queries -/

/-- The columns of `load_request_fingerprint.sql`. -/
structure FingerprintRow where
  userId : Uuid
  sessionId : Uuid
  organizationId : Option Uuid
  assurance : Assurance
  expiresAtMs : Int
  sessionRevision : Nat
  userSecurityRevision : Nat
  organizationAuthorizationRevision : Option Nat
  roleId : Option String
  policyRevision : Option String
  systemAdministrator : Bool
deriving DecidableEq

/-- The columns of `load_request_context.sql`. -/
structure ContextRow extends FingerprintRow where
  primaryEmail : String
  createdAtMs : Int
  permissions : List String
deriving DecidableEq

namespace Db

/-- `SELECT 1 FROM auth_signing_keys WHERE key_id = $3 AND status IN ('active', 'retired')`. -/
def verifiesKey (keyId : String) (db : Db) : Bool :=
  (db.signingKeys.find? keyId).any fun key => decide (key.status = .active ∨ key.status = .retired)

/-- `SELECT policy_revision FROM auth_policy_bundles WHERE status = 'active' LIMIT 1`; the partial unique
index allows one. -/
def activePolicyRevision (db : Db) : Option String :=
  (db.policyBundles.rows.find? fun bundle => decide (bundle.status = .active)).map (·.policyRevision)

def isSystemAdministrator (user : Uuid) (db : Db) : Bool :=
  (db.systemAdministrators.find? user).any fun admin => admin.revokedAtMs.isNone

def selectedOrganization (session : Session) (db : Db) : Option Organization :=
  session.selectedOrganizationId.bind db.organizations.find?

def selectedMembership (session : Session) (db : Db) : Option Membership :=
  session.selectedOrganizationId.bind fun organization => db.activeMembership organization session.userId

/-- `s.selected_organization_id IS NULL OR (organization.status = 'active' AND m.user_id IS NOT NULL)`. -/
def mayAct (session : Session) (db : Db) : Bool :=
  session.selectedOrganizationId.isNone ||
    ((db.selectedOrganization session).any fun org => decide (org.status = .active)) &&
      (db.selectedMembership session).isSome

def contextRow (session : Session) (user : User) (db : Db) : ContextRow where
  userId := session.userId
  sessionId := session.sessionId
  organizationId := session.selectedOrganizationId
  assurance := session.assurance
  expiresAtMs := session.expiresAtMs
  sessionRevision := session.sessionRevision
  userSecurityRevision := session.userSecurityRevision
  organizationAuthorizationRevision := (db.selectedOrganization session).map (·.authorizationRevision)
  roleId := (db.selectedMembership session).map (·.roleId)
  policyRevision := db.activePolicyRevision
  systemAdministrator := db.isSystemAdministrator session.userId
  primaryEmail := user.primaryEmail
  createdAtMs := session.createdAtMs
  permissions := (db.selectedMembership session).elim [] fun m =>
    (db.permissionsOf m.organizationId m.roleId).insertionSort (· ≤ ·)

/-- `load_request_context.sql`; an empty `$3` skips the key. -/
def loadRequestContext (sessionId : Uuid) (nowMs : Int) (keyId : String) (db : Db) : Option ContextRow :=
  (db.liveSession sessionId nowMs).bind fun (session, user) =>
    if (keyId = "" || db.verifiesKey keyId) && db.mayAct session then some (db.contextRow session user) else none

/-- `load_request_fingerprint.sql`. -/
def loadRequestFingerprint (sessionId : Uuid) (nowMs : Int) (keyId : String) (db : Db) : Option FingerprintRow :=
  (db.liveSession sessionId nowMs).bind fun (session, user) =>
    if db.verifiesKey keyId && db.mayAct session then some (db.contextRow session user).toFingerprintRow else none

theorem loadRequestFingerprint_eq {sessionId : Uuid} {nowMs : Int} {keyId : String} (db : Db) (h : keyId ≠ "") :
    db.loadRequestFingerprint sessionId nowMs keyId =
      (db.loadRequestContext sessionId nowMs keyId).map ContextRow.toFingerprintRow := by
  unfold loadRequestFingerprint loadRequestContext
  cases db.liveSession sessionId nowMs with
  | none => rfl
  | some live =>
    simp only [Option.bind_some, h, decide_false, Bool.false_or]
    split <;> rfl

theorem loadRequestContext_eq_some {sessionId : Uuid} {nowMs : Int} {keyId : String} {db : Db} {row : ContextRow}
    (hkey : keyId ≠ "") : db.loadRequestContext sessionId nowMs keyId = some row ↔
      ∃ session user, db.liveSession sessionId nowMs = some (session, user) ∧ db.verifiesKey keyId = true ∧
        db.mayAct session = true ∧ row = db.contextRow session user := by
  unfold loadRequestContext
  cases db.liveSession sessionId nowMs with
  | none => simp
  | some live =>
    simp only [Option.bind_some, hkey, decide_false, Bool.false_or, Option.some.injEq]
    constructor
    · intro h
      split at h
      · rename_i hc
        cases h
        exact ⟨live.1, live.2, rfl, (Bool.and_eq_true_iff.1 hc).1, (Bool.and_eq_true_iff.1 hc).2, rfl⟩
      · cases h
    · rintro ⟨session, user, rfl, hv, hm, rfl⟩
      simp [hv, hm]

end Db

/-! ## Decoding a row -/

/-- postgres.rs:805 -/
inductive ContextLoadError
  | context (error : ContextError) | invalidTimestamp | invalidEmail | invalidRevision
deriving DecidableEq

/-- `?` on a `ContextError`. -/
def orContextError {α : Type} (result : Except ContextError α) : Except ContextLoadError α :=
  result.mapError .context

/-- `if !condition { return Err(error) }`. -/
def require (condition : Prop) [Decidable condition] (error : ContextLoadError) : Except ContextLoadError Unit :=
  if condition then .ok () else .error error

theorem require_eq_ok {condition : Prop} [Decidable condition] {error : ContextLoadError} {u : Unit} :
    require condition error = .ok u ↔ condition := by
  unfold require
  split <;> simp [*]

theorem orContextError_eq_ok {α : Type} {result : Except ContextError α} {a : α} :
    orContextError result = .ok a ↔ result = .ok a :=
  mapError_eq_ok

/-- postgres.rs:413 -/
structure AuthorizationFingerprint where
  userId : String
  sessionId : String
  organizationId : Option String
  assurance : AuthenticationAssurance
  expiresAtMs : Int
  sessionRevision : Nat
  userSecurityRevision : Nat
  organizationAuthorizationRevision : Option Nat
  roleId : Option String
  policyRevision : Option String
  systemAdministrator : Bool
deriving DecidableEq

/-- `"aal2" | "aal3" => Aal2`. -/
def Assurance.authentication : Assurance → AuthenticationAssurance
  | .aal1 => .aal1
  | .aal2 | .aal3 => .aal2

/-- postgres.rs:732 -/
def authorizationFingerprint (row : FingerprintRow) : Except ContextLoadError AuthorizationFingerprint := do
  let userId ← orContextError (Identifier.new row.userId.text)
  let sessionId ← orContextError (Identifier.new row.sessionId.text)
  let organizationId ← orContextError (Identifier.newOption (row.organizationId.map Uuid.text))
  let roleId ← orContextError (Identifier.newOption row.roleId)
  let policyRevision ← orContextError (Identifier.newOption row.policyRevision)
  require (0 < row.expiresAtMs ∧ row.sessionRevision ≠ 0 ∧ row.userSecurityRevision ≠ 0 ∧
    row.organizationAuthorizationRevision ≠ some 0 ∧
    organizationId.isSome = (row.organizationAuthorizationRevision.isSome && roleId.isSome)) .invalidRevision
  pure {
    userId := userId.value
    sessionId := sessionId.value
    organizationId := organizationId.map Identifier.value
    assurance := row.assurance.authentication
    expiresAtMs := row.expiresAtMs
    sessionRevision := row.sessionRevision
    userSecurityRevision := row.userSecurityRevision
    organizationAuthorizationRevision := row.organizationAuthorizationRevision
    roleId := roleId.map Identifier.value
    policyRevision := policyRevision.map Identifier.value
    systemAdministrator := row.systemAdministrator }

def FingerprintRow.fingerprint (row : FingerprintRow) : AuthorizationFingerprint where
  userId := row.userId.text
  sessionId := row.sessionId.text
  organizationId := row.organizationId.map Uuid.text
  assurance := row.assurance.authentication
  expiresAtMs := row.expiresAtMs
  sessionRevision := row.sessionRevision
  userSecurityRevision := row.userSecurityRevision
  organizationAuthorizationRevision := row.organizationAuthorizationRevision
  roleId := row.roleId
  policyRevision := row.policyRevision
  systemAdministrator := row.systemAdministrator

theorem authorizationFingerprint_eq_ok {row : FingerprintRow} {fingerprint : AuthorizationFingerprint}
    (h : authorizationFingerprint row = .ok fingerprint) : fingerprint = row.fingerprint := by
  simp only [authorizationFingerprint, bind_eq_ok, orContextError_eq_ok] at h
  obtain ⟨user, huser, session, hsession, organization, horganization, role, hrole, policy, hpolicy, -, -, h⟩ := h
  cases h
  simp only [FingerprintRow.fingerprint, Identifier.value_of_new huser, Identifier.value_of_new hsession,
    Identifier.value_of_newOption horganization, Identifier.value_of_newOption hrole,
    Identifier.value_of_newOption hpolicy]

/-- A fingerprint keeps every column of its row apart from the step between `aal2` and `aal3`. -/
theorem eq_of_fingerprint {row row' : FingerprintRow} (h : row'.fingerprint = row.fingerprint) :
    row' = { row with assurance := row'.assurance } := by
  simp only [FingerprintRow.fingerprint, AuthorizationFingerprint.mk.injEq] at h
  obtain ⟨huser, hsession, horganization, -, hexpires, hrevision, hsecurity, hauthorization, hrole, hpolicy,
    hadmin⟩ := h
  rw [← Uuid.text_inj huser, ← Uuid.text_inj hsession, ← hexpires, ← hrevision, ← hsecurity, ← hauthorization,
    ← hrole, ← hpolicy, ← hadmin, ← Option.map_injective (fun _ _ => Uuid.text_inj) horganization]

/-- postgres.rs:376 -/
structure VerifiedSession where
  context : VerifiedRequestContext
  primaryEmail : String
  authorizationFingerprint : AuthorizationFingerprint
deriving DecidableEq

def validPrimaryEmail (email : String) : Bool := decide (email.utf8ByteSize ≤ 320) && !email.toList.any isControl

/-- postgres.rs:659 -/
def verifiedSession (row : ContextRow) (requestId : RequestId) : Except ContextLoadError VerifiedSession := do
  let fingerprint ← authorizationFingerprint row.toFingerprintRow
  let userId ← orContextError (Identifier.new row.userId.text)
  require (validPrimaryEmail row.primaryEmail = true) .invalidEmail
  let organizationId ← orContextError (Identifier.newOption (row.organizationId.map Uuid.text))
  let sessionId ← orContextError (Identifier.new row.sessionId.text)
  require (0 < row.expiresAtMs ∧ 0 ≤ row.createdAtMs ∧ row.createdAtMs < row.expiresAtMs) .invalidTimestamp
  let policyRevision ← orContextError (Identifier.newOption row.policyRevision)
  let roleId ← orContextError (Identifier.newOption row.roleId)
  let principal ← orContextError (Principal.new userId "wasi-auth" row.systemAdministrator)
  let auth ← orContextError (VerifiedAuthContext.fromValidated {
    principal := principal
    organizationId := organizationId
    sessionId := sessionId
    requestId := requestId
    assurance := row.assurance.authentication
    issuedAtUnixSeconds := row.createdAtMs.toNat / 1000
    expiresAtUnixSeconds := row.expiresAtMs.toNat / 1000
    decisionId := none
    policyRevision := policyRevision })
  let authorization ← orContextError (AuthorizationSnapshot.new row.permissions roleId.toList policyRevision none)
  pure ⟨⟨auth, authorization⟩, row.primaryEmail, fingerprint⟩

/-- The session says what the row says. -/
structure VerifiedSession.Reads (session : VerifiedSession) (row : ContextRow) : Prop where
  fingerprint : session.authorizationFingerprint = row.fingerprint
  userId : session.context.auth.principal.userId.value = row.userId.text
  systemAdministrator : session.context.auth.principal.systemAdministrator = row.systemAdministrator
  organizationId : session.context.auth.organizationId.map Identifier.value = row.organizationId.map Uuid.text
  assurance : session.context.auth.assurance = row.assurance.authentication
  permissions : session.context.authorization.permissions = btreeSet row.permissions
  roleIds : session.context.authorization.roleIds.map Identifier.value = row.roleId.toList
  policyRevision : session.context.authorization.policyRevision.map Identifier.value = row.policyRevision

theorem reads_of_verifiedSession {row : ContextRow} {requestId : RequestId} {session : VerifiedSession}
    (h : verifiedSession row requestId = .ok session) : session.Reads row := by
  simp only [verifiedSession, bind_eq_ok, orContextError_eq_ok, VerifiedAuthContext.fromValidated_eq_ok] at h
  obtain ⟨_, hfingerprint, user, huser, -, -, organization, horganization, _, -, -, -, policy, hpolicy, role, hrole,
    principal, hprincipal, _, ⟨_, rfl⟩, authorization, hauthorization, h⟩ := h
  cases h
  obtain ⟨huserId, hadmin⟩ := Principal.new_eq_ok hprincipal
  obtain ⟨hpermissions, hroles, hrevision, -⟩ := AuthorizationSnapshot.new_eq_ok hauthorization
  refine ⟨authorizationFingerprint_eq_ok hfingerprint, ?_, hadmin, Identifier.value_of_newOption horganization,
    rfl, hpermissions, ?_, ?_⟩
  · rw [huserId, Identifier.value_of_new huser]
  · rw [hroles, btreeSet_toList, ← Identifier.value_of_newOption hrole, Option.toList_map]
  · rw [hrevision, Identifier.value_of_newOption hpolicy]

/-- The row decodes, whatever the request. -/
def ContextRow.Decodes (row : ContextRow) : Prop := ∀ requestId, ∃ session, verifiedSession row requestId = .ok session

theorem decodes_of_verifiedSession {row : ContextRow} {requestId : RequestId} {session : VerifiedSession}
    (h : verifiedSession row requestId = .ok session) : row.Decodes := by
  intro requestId'
  simp only [verifiedSession, bind_eq_ok, orContextError_eq_ok, VerifiedAuthContext.fromValidated_eq_ok] at h ⊢
  obtain ⟨fingerprint, hfingerprint, user, huser, u, hemail, organization, horganization, id, hid, v, htime,
    policy, hpolicy, role, hrole, principal, hprincipal, _, ⟨hlifetime, -⟩, authorization, hauthorization, -⟩ := h
  -- the request id is copied into the context and checked nowhere
  exact ⟨_, fingerprint, hfingerprint, user, huser, u, hemail, organization, horganization, id, hid, v, htime,
    policy, hpolicy, role, hrole, principal, hprincipal, _, ⟨hlifetime, rfl⟩, authorization, hauthorization, rfl⟩

/-- Decoding reads the assurance only through `authentication`. -/
theorem verifiedSession_assurance {row : ContextRow} {requestId : RequestId} {assurance : Assurance}
    (h : assurance.authentication = row.assurance.authentication) :
    verifiedSession { row with assurance := assurance } requestId = verifiedSession row requestId := by
  simp only [verifiedSession, authorizationFingerprint, h]

/-! ## The store -/

/-- `PostgresStoreError` (postgres.rs:826) -/
inductive StoreError
  | transport | context | unauthenticated
deriving DecidableEq

/-- postgres.rs:881 -/
def validSigningKeyId (value : String) : Bool :=
  decide (value ≠ "") && decide (value.utf8ByteSize ≤ 128) && !value.toList.any isControl

/-- `u64_to_i64(now.saturating_mul(1_000))`. -/
def unixMs (nowUnixSeconds : Nat) : Int := min (nowUnixSeconds * 1000) (2 ^ 63 - 1)

/-- One query of the store: the session id is cast to `uuid`, which can fail, and the first row is decoded. -/
def queryFirst {α β : Type} (sessionId : SessionId) (query : Uuid → Option α)
    (decode : α → Except ContextLoadError β) : Except StoreError β :=
  match Uuid.ofText? sessionId.value with
  | none => .error .transport
  | some id =>
    match query id with
    | none => .error .unauthenticated
    | some row => (decode row).mapError fun _ => .context

/-- `load_verified_session`, for a session cookie: no key is asked for. -/
def loadVerifiedSession (sessionId : SessionId) (requestId : RequestId) (nowUnixSeconds : Nat) (db : Db) :
    Except StoreError VerifiedSession :=
  queryFirst sessionId (fun id => db.loadRequestContext id (unixMs nowUnixSeconds) "") fun row =>
    verifiedSession row requestId

/-- postgres.rs:552 -/
def loadVerifiedSessionForToken (sessionId : SessionId) (requestId : RequestId) (nowUnixSeconds : Nat)
    (signingKeyId : String) (db : Db) : Except StoreError VerifiedSession :=
  if validSigningKeyId signingKeyId then
    queryFirst sessionId (fun id => db.loadRequestContext id (unixMs nowUnixSeconds) signingKeyId)
      fun row => verifiedSession row requestId
  else .error .unauthenticated

/-- postgres.rs:576 -/
def loadAuthorizationFingerprintForToken (sessionId : SessionId) (nowUnixSeconds : Nat) (signingKeyId : String)
    (db : Db) : Except StoreError AuthorizationFingerprint :=
  if validSigningKeyId signingKeyId then
    queryFirst sessionId (fun id => db.loadRequestFingerprint id (unixMs nowUnixSeconds) signingKeyId)
      authorizationFingerprint
  else .error .unauthenticated

end WasiAuth
