import WasiAuth.Identity.Ceremonies
import WasiAuth.Ingress.Redirects

/-! # Starting a passkey login

The caller has only an email. The function is to start a ceremony "without revealing account existence", and its answer
is of one kind for an email without passkeys and of another for an email with some: see `same_outcome_iff`.
-/

namespace WasiAuth

open Relational

/-! ## The service -/

/-- What `create` can fail with. -/
inductive FlowCreationError
  | invalidInput | randomnessUnavailable | crypto | transport
deriving DecidableEq

/-- What `start_authentication` can fail with. -/
inductive PasskeyStartError
  | invalidInput | invalidCredentials | serialization | flow (e : FlowCreationError) | invalidRow
deriving DecidableEq

/-- passkeys.rs:85 -/
structure PasskeyStart where
  challengeId : String
  publicKeyOptionsJson : String
  redirectPath : String
deriving DecidableEq

structure StartLibrary (webauthn : WebauthnLibrary) where
  Options : Type
  /-- `start_authentication_with_creds_for_user`; it draws the challenge itself. -/
  startAuthentication : (challenge userId : Bytes) → List webauthn.PasskeyCredential →
    Options × webauthn.AuthenticationState
  writeOptions : Options → Option String
  writeFlow : StoredPasskeyFlow webauthn.RegistrationState webauthn.AuthenticationState → Option Bytes
  encrypt : (key associatedData nonce plaintext : Bytes) → Option Bytes
  /-- Base64, for the verifier. -/
  encode : Bytes → String

structure PasskeyLoginService extends PasskeyService where
  start : StartLibrary webauthn
  flowTtlSeconds : Nat
  flowTtl : 60 ≤ flowTtlSeconds ∧ flowTtlSeconds ≤ 15 * 60

structure StartDraws where
  challenge : Bytes
  flowId : Option (BitVec 80)
  verifier : Option Bytes
  nonce : Option Nonce

structure StartInput where
  nowUnixSeconds : Nat
  draws : StartDraws

/-- `ORDER BY passkeys.created_at_ms, passkeys.credential_id`. The first column is not one of the model's. -/
def Passkey.listOrder (createdAtMs : Bytes → Int) (a b : User × Passkey) : Prop :=
  createdAtMs a.2.credentialId < createdAtMs b.2.credentialId ∨
    createdAtMs a.2.credentialId = createdAtMs b.2.credentialId ∧ a.2.credentialId ≤ b.2.credentialId

instance (createdAtMs : Bytes → Int) : DecidableRel (Passkey.listOrder createdAtMs) :=
  fun _ _ => inferInstanceAs (Decidable (_ ∨ _))

/-- `load_passkeys_for_email.sql` -/
def Db.loadPasskeysForEmail (createdAtMs : Bytes → Int) (normalizedEmail : String) (db : Db) : List (User × Passkey) :=
  let users := db.users.rows.filter fun u => decide (u.normalizedEmail = normalizedEmail ∧ u.status = .active)
  let rows := users.flatMap fun u => (db.passkeys.rows.filter fun k => decide (k.userId = u.userId)).map fun k => (u, k)
  rows.insertionSort (Passkey.listOrder createdAtMs)

namespace PasskeyLoginService

variable (service : PasskeyLoginService)

/-- passkeys.rs:563 -/
def decodeCredential (passkey : Passkey) : Except PasskeyStartError service.webauthn.PasskeyCredential := do
  let credential ← okOr .invalidRow (service.webauthn.readCredential passkey.publicKeyCose)
  if passkey.credentialId ≠ service.webauthn.id credential then .error .invalidRow else pure credential

/-- The column `public_key_cose` is not nullable, so that the filter of the source keeps every row. -/
def credentialsFromRows (rows : List (User × Passkey)) :
    Except PasskeyStartError (User × List service.webauthn.PasskeyCredential) := do
  let first ← okOr .invalidCredentials rows.head?
  let credentials ← rows.mapM fun row => service.decodeCredential row.2
  pure (first.1, credentials)

/-- `EncryptedFlowStore::create` (flows.rs:218) -/
def prepareFlow (kind : FlowKind) (userId : Option Uuid) (payload : Bytes) (input : StartInput) :
    Except FlowCreationError (String × Flow) :=
  if payload = [] ∨ 64 * 1024 < payload.length ∨ ¬(60 ≤ service.flowTtlSeconds ∧ service.flowTtlSeconds ≤ 15 * 60) then
    .error .invalidInput
  else do
    let random ← okOr .randomnessUnavailable input.draws.flowId
    let verifier ← okOr .randomnessUnavailable input.draws.verifier
    let nonce ← okOr .randomnessUnavailable input.draws.nonce
    let flowId := uuidV7 (saturatingMs input.nowUnixSeconds) random
    let sealed ← okOr .crypto (sealWith (service.start.encrypt service.key.key (flowAad kind flowId)) nonce payload)
    let verifier := service.start.encode verifier
    pure (verifier,
      { flowId := flowId
        kind := kind
        userId := userId
        verifierHash := service.flows.sha256 verifier
        keyVersion := service.key.version
        payloadCiphertext := sealed
        expiresAtMs := expiryMs input.nowUnixSeconds (saturatingMs service.flowTtlSeconds)
        consumedAtMs := none })

/-- The answer and the row of its flow, from the rows of the query. -/
def prepareStart (redirectPath : String) (input : StartInput) (rows : List (User × Passkey)) :
    Except PasskeyStartError (PasskeyStart × Flow) := do
  let (user, credentials) ← service.credentialsFromRows rows
  if credentials.isEmpty then .error .invalidCredentials
  else
    let started := service.start.startAuthentication input.draws.challenge (utf8Bytes user.userId.text) credentials
    let options ← okOr .serialization (service.start.writeOptions started.1)
    let payload ← okOr .serialization
      (service.start.writeFlow (.authentication started.2 user.userId.text user.primaryEmail redirectPath))
    let (verifier, flow) ← (service.prepareFlow .webauthnAuthentication (some user.userId) payload input).mapError .flow
    pure (⟨verifier, options, redirectPath⟩, flow)

def startFrom (redirectPath : String) (input : StartInput) (rows : List (User × Passkey)) (db : Db) :
    Except PasskeyStartError PasskeyStart × Db :=
  perform (service.prepareStart redirectPath input rows) (fun prepared => createAuthFlow prepared.2) (.flow .transport)
    (fun prepared _ _ => .ok prepared.1) db

/-- passkeys.rs:253 -/
def startAuthentication (createdAtMs : Bytes → Int) (email redirectPath : String) (input : StartInput) (db : Db) :
    Except PasskeyStartError PasskeyStart × Db :=
  if Passkeys.safeRedirectPath redirectPath = false then (.error .invalidInput, db)
  else
    match normalizeEmail email with
    | none => (.error .invalidInput, db)
    | some normalized =>
      service.startFrom redirectPath input (db.loadPasskeysForEmail createdAtMs normalized) db

end PasskeyLoginService

/-! ## What the lookup finds -/

/-- An active account of the email has a passkey. -/
def Db.HasPasskeys (normalizedEmail : String) (db : Db) : Prop :=
  ∃ u ∈ db.users, u.normalizedEmail = normalizedEmail ∧ u.status = .active ∧ ∃ k ∈ db.passkeys, k.userId = u.userId

theorem loadPasskeysForEmail_eq_nil {createdAtMs : Bytes → Int} {normalizedEmail : String} {db : Db} :
    db.loadPasskeysForEmail createdAtMs normalizedEmail = [] ↔ ¬db.HasPasskeys normalizedEmail := by
  simp only [List.eq_nil_iff_forall_not_mem, Db.loadPasskeysForEmail, List.mem_insertionSort, List.mem_flatMap,
    List.mem_filter, List.mem_map, decide_eq_true_eq, Db.HasPasskeys]
  constructor
  · rintro h ⟨u, hu, hemail, hactive, k, hk, huser⟩
    exact h (u, k) ⟨u, ⟨hu, hemail, hactive⟩, k, ⟨hk, huser⟩, rfl⟩
  · rintro h row ⟨u, ⟨hu, hemail, hactive⟩, k, ⟨hk, huser⟩, -⟩
    exact h ⟨u, hu, hemail, hactive, k, hk, huser⟩

namespace PasskeyLoginService

variable (service : PasskeyLoginService)

/-- Success, or which error: what a caller can tell apart without reading the options. -/
def outcome (answer : Except PasskeyStartError PasskeyStart × Db) : Except PasskeyStartError Unit :=
  answer.1.map fun _ => ()

theorem decodeCredential_eq_error {passkey : Passkey} {e : PasskeyStartError}
    (h : service.decodeCredential passkey = .error e) : e = .invalidRow := by
  rcases bind_eq_error.1 h with h | ⟨credential, -, h⟩
  · exact (okOr_eq_error.1 h).2
  · split at h <;> cases h
    rfl

theorem credentialsFromRows_eq_error {rows : List (User × Passkey)} (hrows : rows ≠ []) {e : PasskeyStartError}
    (h : service.credentialsFromRows rows = .error e) : e = .invalidRow := by
  rcases bind_eq_error.1 h with h | ⟨first, -, h⟩
  · exact absurd (List.head?_eq_none_iff.1 (okOr_eq_error.1 h).1) hrows
  · rcases bind_eq_error.1 h with h | ⟨credentials, -, h⟩
    · obtain ⟨row, -, h⟩ := exists_error_of_mapM h
      exact service.decodeCredential_eq_error h
    · cases h

theorem length_credentialsFromRows {rows : List (User × Passkey)} {user : User}
    {credentials : List service.webauthn.PasskeyCredential}
    (h : service.credentialsFromRows rows = .ok (user, credentials)) : credentials.length = rows.length := by
  obtain ⟨first, -, h⟩ := bind_eq_ok.1 h
  obtain ⟨credentials, hdecoded, h⟩ := bind_eq_ok.1 h
  cases h
  exact (forall₂_of_mapM hdecoded).length_eq.symm

theorem prepareStart_ne {rows : List (User × Passkey)} (hrows : rows ≠ []) (redirectPath : String)
    (input : StartInput) : service.prepareStart redirectPath input rows ≠ .error .invalidCredentials := by
  intro h
  rcases bind_eq_error.1 h with h | ⟨⟨user, credentials⟩, hfound, h⟩
  · cases service.credentialsFromRows_eq_error hrows h
  · have hsome : credentials ≠ [] := fun hnil => hrows (List.length_eq_zero_iff.1
      ((service.length_credentialsFromRows hfound).symm.trans (congrArg List.length hnil)))
    simp only [List.isEmpty_iff, hsome, if_false] at h
    rcases bind_eq_error.1 h with h | ⟨options, -, h⟩
    · cases (okOr_eq_error.1 h).2
    rcases bind_eq_error.1 h with h | ⟨payload, -, h⟩
    · cases (okOr_eq_error.1 h).2
    rcases bind_eq_error.1 h with h | ⟨prepared, -, h⟩
    · obtain ⟨e, -, he⟩ := mapError_eq_error.1 h
      cases he
    · cases h

theorem outcome_of_hasPasskeys (createdAtMs : Bytes → Int) (redirectPath : String) (input : StartInput) (db : Db)
    {normalized : String} {seen : Db} (h : seen.HasPasskeys normalized) :
    outcome (service.startFrom redirectPath input (seen.loadPasskeysForEmail createdAtMs normalized) db) ≠
      .error .invalidCredentials := by
  have hrows : seen.loadPasskeysForEmail createdAtMs normalized ≠ [] := fun hnil => loadPasskeysForEmail_eq_nil.1 hnil h
  unfold startFrom perform
  cases hprepared : service.prepareStart redirectPath input (seen.loadPasskeysForEmail createdAtMs normalized) with
  | error e =>
    intro herror
    cases herror
    exact service.prepareStart_ne hrows redirectPath input hprepared
  | ok prepared =>
    dsimp only
    cases createAuthFlow prepared.2 db with
    | error e => exact nofun
    | ok written => exact nofun

theorem outcome_of_not_hasPasskeys (createdAtMs : Bytes → Int) (redirectPath : String) (input : StartInput) (db : Db)
    {normalized : String} {seen : Db} (h : ¬seen.HasPasskeys normalized) :
    outcome (service.startFrom redirectPath input (seen.loadPasskeysForEmail createdAtMs normalized) db) =
      .error .invalidCredentials := by
  rw [loadPasskeysForEmail_eq_nil.2 h]
  rfl

end PasskeyLoginService

/-! ## Two states -/

/-- The states differ only in whether the email has an account or passkeys: in nothing but its accounts and their
passkeys, and not at all where it has passkeys in both. -/
structure DiffersInAccount (email : String) (db₁ db₂ : Db) : Prop where
  others : db₂ = { db₁ with users := db₂.users, passkeys := db₂.passkeys }
  users : ∀ u : User, normalizeEmail email ≠ some u.normalizedEmail → (u ∈ db₁.users ↔ u ∈ db₂.users)
  passkeys : ∀ k : Passkey,
    (∀ u : User, u ∈ db₁.users ∨ u ∈ db₂.users → u.userId = k.userId → normalizeEmail email ≠ some u.normalizedEmail) →
      (k ∈ db₁.passkeys ↔ k ∈ db₂.passkeys)
  both : ∀ normalized, normalizeEmail email = some normalized → db₁.HasPasskeys normalized →
    db₂.HasPasskeys normalized → db₁ = db₂

/-- The answer is of the same kind in two such states exactly when the request is refused before the lookup, or an
active account with the email has passkeys in both states or in neither. -/
theorem PasskeyLoginService.same_outcome_iff (service : PasskeyLoginService) (createdAtMs : Bytes → Int)
    (email redirectPath : String) (input : StartInput) {db₁ db₂ : Db} (h : DiffersInAccount email db₁ db₂) :
    outcome (service.startAuthentication createdAtMs email redirectPath input db₁) =
        outcome (service.startAuthentication createdAtMs email redirectPath input db₂) ↔
      Passkeys.safeRedirectPath redirectPath = false ∨ ∀ normalized, normalizeEmail email = some normalized →
        (db₁.HasPasskeys normalized ↔ db₂.HasPasskeys normalized) := by
  unfold startAuthentication
  cases hredirect : Passkeys.safeRedirectPath redirectPath with
  | false => exact ⟨fun _ => .inl rfl, fun _ => rfl⟩
  | true =>
    cases hemail : normalizeEmail email with
    | none => exact ⟨fun _ => .inr nofun, fun _ => rfl⟩
    | some normalized =>
      simp only [Bool.true_eq_false, if_false, false_or, Option.some.injEq, forall_eq']
      by_cases h₁ : db₁.HasPasskeys normalized <;> by_cases h₂ : db₂.HasPasskeys normalized
      · cases h.both normalized hemail h₁ h₂
        exact iff_of_true rfl Iff.rfl
      -- found in one state only: the other one answers with the error for no rows
      · have hfound := service.outcome_of_hasPasskeys createdAtMs redirectPath input db₁ h₁
        simp [h₁, h₂, hfound, service.outcome_of_not_hasPasskeys createdAtMs redirectPath input db₂ h₂]
      · have hfound := service.outcome_of_hasPasskeys createdAtMs redirectPath input db₂ h₂
        simp [h₁, h₂, hfound.symm, service.outcome_of_not_hasPasskeys createdAtMs redirectPath input db₁ h₁]
      · simp [h₁, h₂, service.outcome_of_not_hasPasskeys createdAtMs redirectPath input db₁ h₁,
          service.outcome_of_not_hasPasskeys createdAtMs redirectPath input db₂ h₂]

/-! ## An account with a passkey, one without, and none -/

def sampleWebauthn : WebauthnLibrary where
  RegistrationState := Unit
  AuthenticationState := Unit
  RegistrationResponse := Unit
  AuthenticationResponse := Unit
  PasskeyCredential := Bytes
  id := fun credential => credential
  counter := fun _ => 0
  setCounter := fun _ credential => credential
  transports := fun _ => []
  readFlow := fun _ => none
  readRegistrationResponse := fun _ => none
  readAuthenticationResponse := fun _ => none
  credentialId := fun _ => none
  finishRegistration := fun _ _ => none
  finishAuthentication := fun _ _ _ => none
  writeCredential := some
  readCredential := some
  writeTransports := fun _ => "[]"

theorem sampleKey_valid :
    (decide ("v1" ≠ "") && decide ("v1".utf8ByteSize ≤ 128) && !"v1".toList.any isControl) = true := by decide +kernel

def sampleLogin : PasskeyLoginService where
  flows := ⟨fun _ => [7], fun _ _ _ _ => none⟩
  webauthn := sampleWebauthn
  key := ⟨"v1", List.replicate 32 0, sampleKey_valid, List.length_replicate⟩
  sessionTtlSeconds := 300
  sessionTtl := ⟨Nat.le_refl 300, by simp⟩
  start := ⟨Unit, fun _ _ _ => ((), ()), fun _ => some "", fun _ => some [1], fun _ _ _ _ => some [2], fun _ => ""⟩
  flowTtlSeconds := 60
  flowTtl := ⟨Nat.le_refl 60, by simp⟩

def sampleInput : StartInput where
  nowUnixSeconds := 0
  draws := ⟨[], some 1, some [], some ⟨List.replicate 12 0, List.length_replicate⟩⟩

def sampleUser : User where
  userId := ⟨1⟩
  normalizedEmail := "a@example.com"
  primaryEmail := "a@example.com"
  status := .active
  securityRevision := 1
  createdAtMs := 0

def samplePasskey : Passkey where
  credentialId := [1]
  userId := ⟨1⟩
  publicKeyCose := [1]
  signCount := 0
  transports := "[]"
  displayName := "key"
  lastUsedAtMs := none

def accountWith (passkeys : Table Passkey.credentialId) : Db :=
  { Db.empty with users := ⟨[sampleUser], List.nodup_singleton _⟩, passkeys := passkeys }

theorem normalizeEmail_sample : normalizeEmail "A@example.com" = some sampleUser.normalizedEmail := by decide +kernel

theorem not_hasPasskeys_empty (normalized : String) : ¬Db.empty.HasPasskeys normalized := by
  rintro ⟨u, hu, -⟩
  exact Table.not_mem_empty u hu

theorem differsInAccount_sample (passkeys : Table Passkey.credentialId) (h : ∀ k ∈ passkeys, k.userId = ⟨1⟩) :
    DiffersInAccount "A@example.com" Db.empty (accountWith passkeys) where
  others := rfl
  users u hu := by
    refine ⟨fun hmem => absurd hmem (Table.not_mem_empty u), fun hmem => ?_⟩
    cases List.mem_singleton.1 hmem
    exact absurd normalizeEmail_sample hu
  passkeys k hk := by
    refine ⟨fun hmem => absurd hmem (Table.not_mem_empty k), fun hmem => ?_⟩
    exact absurd normalizeEmail_sample (hk sampleUser (.inr (List.mem_singleton_self _)) (h k hmem).symm)
  both normalized _ h₁ _ := absurd h₁ (not_hasPasskeys_empty normalized)

/-- No account and an account without passkeys are not told apart. -/
theorem no_passkeys_same_outcome :
    PasskeyLoginService.outcome
        (sampleLogin.startAuthentication (fun _ => 0) "A@example.com" "/" sampleInput Db.empty) =
      PasskeyLoginService.outcome
        (sampleLogin.startAuthentication (fun _ => 0) "A@example.com" "/" sampleInput (accountWith .empty)) := by
  have hdiffers := differsInAccount_sample .empty fun k hk => absurd hk (Table.not_mem_empty k)
  refine (sampleLogin.same_outcome_iff (fun _ => 0) "A@example.com" "/" sampleInput hdiffers).2
    (.inr fun normalized _ => iff_of_false (not_hasPasskeys_empty normalized) ?_)
  rintro ⟨-, -, -, -, k, hk, -⟩
  exact Table.not_mem_empty k hk

/-- An account with a passkey is told from no account. -/
theorem exists_account_revealed : ∃ (service : PasskeyLoginService) (createdAtMs : Bytes → Int)
    (email redirectPath : String) (input : StartInput) (db₁ db₂ : Db), DiffersInAccount email db₁ db₂ ∧
      PasskeyLoginService.outcome (service.startAuthentication createdAtMs email redirectPath input db₁) =
        .error .invalidCredentials ∧
      PasskeyLoginService.outcome (service.startAuthentication createdAtMs email redirectPath input db₂) = .ok () := by
  refine ⟨sampleLogin, fun _ => 0, "A@example.com", "/", sampleInput, Db.empty,
    accountWith ⟨[samplePasskey], List.nodup_singleton _⟩, differsInAccount_sample _ ?_,
    by decide +kernel, by decide +kernel⟩
  intro k hk
  cases List.mem_singleton.1 hk
  rfl

end WasiAuth
