import WasiAuth.Base.Calls
import WasiAuth.Identity.Tokens
import WasiAuth.Identity.Values
import WasiAuth.Postgres.Families

/-! # Refreshing a token pair

A refresh is two queries and one statement, and each call prepares a token pair of its own before the
statement decides whose pair counts: the pair of the call that rotates is sealed into the token's row, and
every other call within the replay window opens the row and returns that pair. Calls run concurrently
(`Base/Calls.lean`), between any other commands; no other command rotates. The answer to an operation may get
lost, after it has been carried out.

SHA-256, AES-GCM, the JSON of a response, base64 and the JWT encoder are parameters (`RefreshLibrary`), and
`RoundTrips` is what is asked of them.
-/

namespace WasiAuth

open Relational Transition

/-! ## The service -/

/-- `TokenPair`; `RefreshResponse` has the same fields. -/
structure TokenPair where
  accessToken : String
  refreshToken : String
  expiresInSeconds : Nat
deriving DecidableEq

/-- The errors of `refresh`. -/
inductive RefreshError
  | invalidSession | invalidToken | reuseDetected | randomnessUnavailable | crypto | transport
deriving DecidableEq

/-- What `token_pair` puts into an access token. -/
structure IssuedClaims where
  iss : String
  sub : String
  aud : List String
  exp : Nat
  iat : Nat
  jti : String
  tenantId : Option String
  sessionId : Option String
  roles : List String
  scope : List String
  authTime : Option Nat

/-- tokens.rs:46 -/
structure TokenServiceConfig where
  issuer : String
  audience : String
  accessTtlSeconds : Nat
  refreshTtlSeconds : Nat
  sessionTtlSeconds : Nat
  valid : validIssuerAndAudience issuer audience = true
  accessTtl : 60 ≤ accessTtlSeconds ∧ accessTtlSeconds ≤ 3600
  refreshTtl : 300 ≤ refreshTtlSeconds ∧ refreshTtlSeconds ≤ 90 * 24 * 60 * 60
  sessionTtl : 300 ≤ sessionTtlSeconds ∧ sessionTtlSeconds ≤ 24 * 60 * 60

/-- An instance of the service, without the sealing key. `encodeAccessToken` signs with the active key of its
ring; it fails when that key has no private part. -/
structure TokenService where
  config : TokenServiceConfig
  encodeAccessToken : IssuedClaims → Option String

/-- The functions of other libraries. `encrypt` and `decrypt` are AES-256-GCM under the fixed associated
data of refresh responses. -/
structure RefreshLibrary where
  sha256 : String → Bytes
  encrypt : (key nonce plaintext : Bytes) → Option Bytes
  decrypt : (key nonce ciphertext : Bytes) → Option Bytes
  toVec : TokenPair → Option Bytes
  fromSlice : Bytes → Option TokenPair
  urlSafeNoPad : Bytes → String

/-- What was encrypted decrypts, and a ciphertext has a tag; what was serialized is read back. -/
structure RefreshLibrary.RoundTrips (lib : RefreshLibrary) : Prop where
  decrypt_encrypt : ∀ {key nonce plaintext ciphertext}, lib.encrypt key nonce plaintext = some ciphertext →
    lib.decrypt key nonce ciphertext = some plaintext
  encrypt_ne_nil : ∀ {key nonce plaintext ciphertext}, lib.encrypt key nonce plaintext = some ciphertext →
    ciphertext ≠ []
  fromSlice_toVec : ∀ {pair bytes}, lib.toVec pair = some bytes → lib.fromSlice bytes = some pair

/-- tokens.rs:87 -/
structure RefreshSealingKey where
  version : String
  key : Bytes
  validVersion : (decide (version ≠ "") && decide (version.utf8ByteSize ≤ 128) && !version.toList.any isControl) = true
  keyLength : key.length = 32

namespace RefreshSealingKey

variable (lib : RefreshLibrary) (key : RefreshSealingKey)

/-- `seal`. -/
def sealResponse (nonce : Nonce) (plaintext : Bytes) : Option Bytes := sealWith (lib.encrypt key.key) nonce plaintext

/-- `open`. -/
def openResponse (version : String) (sealed : Bytes) : Option Bytes :=
  if version ≠ key.version then none else openWith (lib.decrypt key.key) sealed

variable {lib key}

theorem openResponse_sealResponse (hlib : lib.RoundTrips) {nonce : Nonce} {plaintext sealed : Bytes}
    (h : key.sealResponse lib nonce plaintext = some sealed) :
    key.openResponse lib key.version sealed = some plaintext := by
  rw [openResponse, if_neg (by simp)]
  exact openWith_of_sealWith (fun _ hc => ⟨hlib.encrypt_ne_nil hc, hlib.decrypt_encrypt hc⟩) h

end RefreshSealingKey

/-- tokens.rs:906 -/
def decodeReplay (lib : RefreshLibrary) (key : RefreshSealingKey) (keyVersion : String) (ciphertext : Bytes) :
    Except RefreshError TokenPair := do
  let plaintext ← okOr .crypto (key.openResponse lib keyVersion ciphertext)
  okOr .crypto (lib.fromSlice plaintext)

/-- tokens.rs:857; `tokenId` is what `uuid_v7` draws. -/
def TokenService.tokenPair (service : TokenService) (session : VerifiedSession) (refreshToken : String)
    (nowUnixSeconds : Nat) (tokenId : Option (BitVec 80)) : Except RefreshError TokenPair :=
  let auth := session.context.auth
  let expiresAt := min (min (nowUnixSeconds + service.config.accessTtlSeconds) (2 ^ 64 - 1)) auth.expiresAtUnixSeconds
  if expiresAt ≤ nowUnixSeconds then .error .invalidSession
  else do
    let tokenId ← okOr .randomnessUnavailable tokenId
    let accessToken ← okOr .crypto (service.encodeAccessToken
      { iss := service.config.issuer
        sub := auth.principal.userId.value
        aud := [service.config.audience]
        exp := expiresAt
        iat := nowUnixSeconds
        jti := (uuidV7 (saturatingMs nowUnixSeconds) tokenId).text
        tenantId := auth.organizationId.map Identifier.value
        sessionId := some auth.sessionId.value
        roles := session.context.authorization.roleIds.map Identifier.value
        scope := session.context.authorization.permissions
        authTime := some auth.issuedAtUnixSeconds })
    pure ⟨accessToken, refreshToken, expiresAt - nowUnixSeconds⟩

/-! ## A call -/

structure RefreshDraws where
  refreshToken : Option Bytes
  tokenId : Option (BitVec 80)
  nonce : Option Nonce
  rotationAudit : Option (BitVec 80)
  reuseAudit : Option (BitVec 80)

structure RefreshCall where
  service : TokenService
  boundSessionId : Option SessionId
  refreshToken : String
  requestId : RequestId
  nowUnixSeconds : Nat
  draws : RefreshDraws

/-- tokens.rs:748-751 -/
def validRefreshToken (token : String) : Bool :=
  decide (32 ≤ token.utf8ByteSize) && decide (token.utf8ByteSize ≤ 512) && !token.toList.any isControl

/-- `load_refresh_session.sql`. -/
def Db.loadRefreshSession (tokenHash : Bytes) (db : Db) : Option Uuid :=
  (db.refreshTokens.find? tokenHash).map RefreshToken.sessionId

namespace RefreshCall

variable (lib : RefreshLibrary) (key : RefreshSealingKey) (call : RefreshCall)

def tokenHash : Bytes := lib.sha256 call.refreshToken

def load (db : Db) : Except RefreshError SessionId := do
  let id ← okOr .invalidToken (db.loadRefreshSession (call.tokenHash lib))
  let sessionId ← (Identifier.new id.text).mapError fun _ => RefreshError.invalidToken
  if call.boundSessionId.any fun bound => decide (bound ≠ sessionId) then .error .invalidToken
  else pure sessionId

/-- The cast `$2::text::uuid` of the bound session. -/
def boundUuid : Except RefreshError (Option Uuid) :=
  match call.boundSessionId with
  | none => pure none
  | some bound => okOr .transport ((Uuid.ofText? bound.value).map some)

/-- The second query, the pair of this call and the parameters of its statement. -/
def prepare (sessionId : SessionId) (db : Db) : Except RefreshError (TokenPair × RotateRefreshToken) := do
  let session ← (loadVerifiedSession sessionId call.requestId call.nowUnixSeconds db).mapError
    fun _ => RefreshError.invalidToken
  let bytes ← okOr .randomnessUnavailable call.draws.refreshToken
  let pair ← call.service.tokenPair session (lib.urlSafeNoPad bytes) call.nowUnixSeconds call.draws.tokenId
  let serialized ← okOr .crypto (lib.toVec pair)
  let nonce ← okOr .randomnessUnavailable call.draws.nonce
  let sealed ← okOr .crypto (key.sealResponse lib nonce serialized)
  let _ ← okOr .randomnessUnavailable call.draws.rotationAudit
  let _ ← okOr .randomnessUnavailable call.draws.reuseAudit
  let bound ← call.boundUuid
  let now := call.nowUnixSeconds
  pure (pair,
    { tokenHash := call.tokenHash lib
      sessionId := bound
      successorHash := lib.sha256 pair.refreshToken
      successorKeyVersion := key.version
      successorCiphertext := sealed
      replayUntilMs := expiryMs now 30000
      nowMs := unixMs now
      expiresAtMs := unixMs (min (now + call.service.config.refreshTtlSeconds) (2 ^ 64 - 1))
      sessionExpiresAtMs := unixMs (min (now + call.service.config.sessionTtlSeconds) (2 ^ 64 - 1)) })

end RefreshCall

/-- What `refresh` answers to the row of `rotate_refresh_token.sql`. -/
def RotationOutcome.response (lib : RefreshLibrary) (key : RefreshSealingKey) (pair : TokenPair) :
    RotationOutcome → Except RefreshError TokenPair
  | .rotated .. => .ok pair
  | .replayed keyVersion ciphertext => decodeReplay lib key keyVersion ciphertext
  | .reuseDetected => .error .reuseDetected
  | .invalid => .error .invalidToken

inductive RefreshPhase
  | started
  | loaded (sessionId : SessionId)
  | prepared (pair : TokenPair) (p : RotateRefreshToken)
  /-- With the number of rows the call has inserted. -/
  | ended (result : Except RefreshError TokenPair) (inserted : Nat)

structure RefreshThread where
  call : RefreshCall
  phase : RefreshPhase

namespace RefreshThread

variable (lib : RefreshLibrary) (key : RefreshSealingKey)

def start (call : RefreshCall) : RefreshThread :=
  ⟨call, if validRefreshToken call.refreshToken then .started else .ended (.error .invalidToken) 0⟩

/-- `refresh` (tokens.rs:742), one query or statement at a time. -/
def advance (lost : Bool) (db : Db) (t : RefreshThread) : Option (Db × RefreshThread) :=
  match t.phase with
  | .started =>
    match if lost then .error .transport else t.call.load lib db with
    | .error e => some (db, { t with phase := .ended (.error e) 0 })
    | .ok sessionId => some (db, { t with phase := .loaded sessionId })
  | .loaded sessionId =>
    -- whatever keeps the session from being loaded is an invalid token
    match if lost then .error .invalidToken else t.call.prepare lib key sessionId db with
    | .error e => some (db, { t with phase := .ended (.error e) 0 })
    | .ok (pair, p) => some (db, { t with phase := .prepared pair p })
  | .prepared pair p =>
    match rotateRefreshToken p db with
    | .error _ => some (db, { t with phase := .ended (.error .transport) 0 })
    | .ok (outcome, db') =>
      let result := if lost then .error .transport else outcome.response lib key pair
      let inserted := db'.refreshTokens.rows.length - db.refreshTokens.rows.length
      some (db', { t with phase := .ended result inserted })
  | .ended .. => none

end RefreshThread

def Command.isRotation : Command → Bool
  | .rotateRefreshToken _ => true
  | _ => false

/-- The commands other than a rotation: every rotation is the statement of a call. -/
structure OtherCommand where
  command : Command
  other : command.isRotation = false

def refreshing (lib : RefreshLibrary) (key : RefreshSealingKey) :
    Calls.Service Db RefreshThread RefreshCall Bool OtherCommand where
  start := RefreshThread.start
  advance := RefreshThread.advance lib key
  command c db := db.step c.command

/-! ## What a rotated row returns -/

section Replay

variable {lib : RefreshLibrary} {key : RefreshSealingKey} {db db' : Db} {pair : TokenPair} {tokenHash : Bytes}

theorem decodeReplay_eq_ok {keyVersion : String} {ciphertext plaintext : Bytes}
    (hopen : key.openResponse lib keyVersion ciphertext = some plaintext)
    (hread : lib.fromSlice plaintext = some pair) :
    decodeReplay lib key keyVersion ciphertext = .ok pair := by
  simp [decodeReplay, hopen, hread, okOr, ok_bind]

theorem RefreshCall.prepare_eq_ok {call : RefreshCall} {sessionId : SessionId} {p : RotateRefreshToken}
    (hlib : lib.RoundTrips) (h : call.prepare lib key sessionId db = .ok (pair, p)) :
    p.tokenHash = call.tokenHash lib ∧
      decodeReplay lib key p.successorKeyVersion p.successorCiphertext = .ok pair := by
  simp only [RefreshCall.prepare, bind_eq_ok, okOr_eq_ok] at h
  obtain ⟨session, -, bytes, -, pair', -, serialized, hserialized, nonce, -, sealed, hsealed, _, -, _, -, bound, -, h⟩ :=
    h
  cases h
  exact ⟨rfl, decodeReplay_eq_ok (RefreshSealingKey.openResponse_sealResponse hlib hsealed)
    (hlib.fromSlice_toVec hserialized)⟩

/-- The pair sealed into a row. -/
def RefreshToken.replay (lib : RefreshLibrary) (key : RefreshSealingKey) (row : RefreshToken) : Option TokenPair := do
  let keyVersion ← row.successorKeyVersion
  let ciphertext ← row.successorCiphertext
  (decodeReplay lib key keyVersion ciphertext).toOption

/-- The token has been rotated, and its replays return `pair`. -/
def Db.Replays (lib : RefreshLibrary) (key : RefreshSealingKey) (db : Db) (tokenHash : Bytes) (pair : TokenPair) :
    Prop :=
  ∃ row, db.refreshTokens.find? tokenHash = some row ∧ row.rotatedAtMs.isSome ∧ row.replay lib key = some pair

theorem RefreshToken.replay_eq_some {row : RefreshToken} {keyVersion : String} {ciphertext : Bytes}
    (hkey : row.successorKeyVersion = some keyVersion) (hcipher : row.successorCiphertext = some ciphertext)
    (h : decodeReplay lib key keyVersion ciphertext = .ok pair) : row.replay lib key = some pair := by
  simp [RefreshToken.replay, hkey, hcipher, h, Except.toOption]

theorem Db.Replays.eq {pair' : TokenPair} (h : db.Replays lib key tokenHash pair)
    (h' : db.Replays lib key tokenHash pair') : pair = pair' := by
  obtain ⟨row, hfind, -, hpair⟩ := h
  obtain ⟨row', hfind', -, hpair'⟩ := h'
  rw [hfind] at hfind'
  cases hfind'
  exact Option.some.inj (hpair.symm.trans hpair')

theorem Db.Replays.lasting (hl : Lasting db db') (h : db.Replays lib key tokenHash pair) :
    db'.Replays lib key tokenHash pair := by
  obtain ⟨row, hfind, hrotated, hpair⟩ := h
  obtain ⟨row', hfind', hlasts⟩ := hl.refreshTokens hfind
  have hrow := hlasts.rotated hrotated
  exact ⟨row', hfind', by rw [hrow]; exact hrotated, by rw [hrow]; exact hpair⟩

theorem find?_of_rotated {p : RotateRefreshToken} {token : RefreshToken} {tokens : Table RefreshToken.tokenHash}
    (hfind : db.refreshTokens.find? p.tokenHash = some token)
    (hins : (db.refreshTokens.set (p.rotatedRow token)).insertOr SqlError.uniqueViolation
      (freshRefreshToken p.successorHash token.sessionId token.familyId p.expiresAtMs) = .ok tokens) :
    tokens.find? p.tokenHash = some (p.rotatedRow token) := by
  have hkey : token.tokenHash = p.tokenHash := (Table.find?_eq_some.1 hfind).2
  have hrow : db.refreshTokens.find? (p.rotatedRow token).tokenHash = some token :=
    (congrArg db.refreshTokens.find? hkey).trans hfind
  have hset := Table.find?_set_self hrow
  exact hkey ▸ Table.find?_insertOr_of_some hins hset

/-- A statement whose row makes the call succeed leaves a row that replays what the call returns. -/
theorem replays_of_rotate {p : RotateRefreshToken} {outcome : RotationOutcome} {pair' : TokenPair}
    (hsealed : decodeReplay lib key p.successorKeyVersion p.successorCiphertext = .ok pair)
    (h : rotateRefreshToken p db = .ok (outcome, db')) (hresponse : outcome.response lib key pair = .ok pair') :
    db'.Replays lib key p.tokenHash pair' := by
  cases rotateRefreshToken_cases h with
  | invalid => cases hresponse
  | rotated hc _ _ hins =>
    cases hresponse
    exact ⟨_, find?_of_rotated hc.findToken hins, rfl, RefreshToken.replay_eq_some rfl rfl hsealed⟩
  | replayed hc _ hrotated hkey hcipher =>
    exact ⟨_, hc.findToken, hrotated, RefreshToken.replay_eq_some hkey hcipher hresponse⟩
  | reuse => split at hresponse <;> cases hresponse

end Replay

/-! ## Rotations and successors -/

section Rotations

variable {db db' : Db} {tokenHash : Bytes}

/-- One once the token has been rotated. -/
def rotations (tokens : Table RefreshToken.tokenHash) (tokenHash : Bytes) : Nat :=
  if (tokens.find? tokenHash).any fun row => row.rotatedAtMs.isSome then 1 else 0

theorem rotations_of_onlyRevokes (h : OnlyRevokes db db') :
    rotations db'.refreshTokens tokenHash = rotations db.refreshTokens tokenHash := by
  obtain ⟨g, hg, -, hrows⟩ := h
  have hkey : ((fun t => decide (t.tokenHash = tokenHash)) ∘ g) = fun t => decide (t.tokenHash = tokenHash) := by
    funext t
    rw [Function.comp_apply, hg t]
  have hfind : db'.refreshTokens.find? tokenHash = (db.refreshTokens.find? tokenHash).map g := by
    rw [Table.find?, hrows, List.find?_map, hkey, Table.find?]
  unfold rotations
  rw [hfind]
  cases db.refreshTokens.find? tokenHash with
  | none => rfl
  | some row => simp [congrArg RefreshToken.rotatedAtMs (hg row)]

theorem length_of_onlyRevokes (h : OnlyRevokes db db') :
    db'.refreshTokens.rows.length = db.refreshTokens.rows.length := by
  obtain ⟨g, -, -, hrows⟩ := h
  rw [hrows, List.length_map]

theorem rotations_of_insertOr {tokens tokens' : Table RefreshToken.tokenHash} {new : RefreshToken}
    (hins : tokens.insertOr SqlError.uniqueViolation new = .ok tokens') (hnew : new.rotatedAtMs = none) :
    rotations tokens' tokenHash = rotations tokens tokenHash := by
  unfold rotations
  rw [Table.find?_of_insertOr hins]
  split
  · rename_i hk
    rw [hk, (Table.insertOr_eq_ok hins).1]
    simp [hnew]
  · rfl

/-- A rotation of a token that has not been rotated inserts one row; nothing else rotates it. -/
theorem rotations_of_rotateRefreshToken {p : RotateRefreshToken} {outcome : RotationOutcome}
    (h : rotateRefreshToken p db = .ok (outcome, db')) (tokenHash : Bytes) :
    rotations db'.refreshTokens tokenHash = rotations db.refreshTokens tokenHash +
      if p.tokenHash = tokenHash then db'.refreshTokens.rows.length - db.refreshTokens.rows.length else 0 := by
  cases rotateRefreshToken_cases h with
  | invalid => simp
  | replayed => simp
  | @reuse token session _ _ _ =>
    have hrevokes : OnlyRevokes db _ := .revokeFamily p token session
    rw [rotations_of_onlyRevokes hrevokes, length_of_onlyRevokes hrevokes]
    simp
  | @rotated token _ _ tokens _ hc _ hunrotated hins =>
    simp only [Db.updateSessions]
    by_cases hh : p.tokenHash = tokenHash
    · subst hh
      have hafter : rotations tokens p.tokenHash = 1 := by
        simp [rotations, find?_of_rotated hc.findToken hins, RotateRefreshToken.rotatedRow]
      have hbefore : rotations db.refreshTokens p.tokenHash = 0 := by
        simp [rotations, hc.findToken, hunrotated]
      have hlength : tokens.rows.length = db.refreshTokens.rows.length + 1 := by
        simp [(Table.insertOr_eq_ok hins).2, Table.set]
      rw [hafter, hbefore, hlength, if_pos rfl]
      omega
    · have hkey : (p.rotatedRow token).tokenHash = p.tokenHash := (Table.find?_eq_some.1 hc.findToken).2
      have hset : rotations (db.refreshTokens.set (p.rotatedRow token)) tokenHash =
          rotations db.refreshTokens tokenHash := by
        rw [rotations, Table.find?_set_ne (by rw [hkey]; exact Ne.symm hh), rotations]
      rw [rotations_of_insertOr hins rfl, hset, if_neg hh, Nat.add_zero]

theorem rotations_of_step {c : OtherCommand} :
    rotations (db.step c.command).refreshTokens tokenHash = rotations db.refreshTokens tokenHash := by
  obtain ⟨c, hother⟩ := c
  have hstep : TokenStep db (db.step c) c := tokenStep_of_next rfl
  generalize db.step c = db' at hstep ⊢
  cases hstep with
  | revokes h => exact rotations_of_onlyRevokes h
  | issue h =>
    rcases issueTokenPair_cases h with ⟨-, rfl⟩ | ⟨_, _, _, -, -, hins, rfl⟩
    · rfl
    · exact rotations_of_insertOr hins rfl
  | rotate => cases hother

end Rotations

/-! ## Concurrent refreshes -/

section Concurrent

variable {lib : RefreshLibrary} {key : RefreshSealingKey}

/-- What holds of a call: the pair it has prepared is the one its statement will seal, and the pair it has
returned is the one its token replays. -/
def RefreshThread.Sound (lib : RefreshLibrary) (key : RefreshSealingKey) (db : Db) (t : RefreshThread) : Prop :=
  match t.phase with
  | .prepared pair p => p.tokenHash = t.call.tokenHash lib ∧
      decodeReplay lib key p.successorKeyVersion p.successorCiphertext = .ok pair
  | .ended (.ok pair) _ => db.Replays lib key (t.call.tokenHash lib) pair
  | _ => True

/-- The rows the call has inserted as a successor of the token. -/
def RefreshThread.insertedFor (lib : RefreshLibrary) (tokenHash : Bytes) (t : RefreshThread) : Nat :=
  match t.phase with
  | .ended _ inserted => if t.call.tokenHash lib = tokenHash then inserted else 0
  | _ => 0

theorem RefreshThread.Sound.lasting {db db' : Db} {t : RefreshThread} (hl : Lasting db db') (h : t.Sound lib key db) :
    t.Sound lib key db' := by
  unfold RefreshThread.Sound at h ⊢
  split at h
  · exact h
  · exact h.lasting hl
  · trivial

theorem RefreshThread.sound_ended {db : Db} {call : RefreshCall} {result : Except RefreshError TokenPair} {n : Nat}
    (h : ∀ pair, result = .ok pair → db.Replays lib key (call.tokenHash lib) pair) :
    RefreshThread.Sound lib key db ⟨call, .ended result n⟩ := by
  cases result with
  | error e => trivial
  | ok pair => exact h pair rfl

theorem RefreshThread.Sound.advance (hlib : lib.RoundTrips) {lost : Bool} {db db' : Db} {t t' : RefreshThread}
    (ht : t.Sound lib key db) (h : t.advance lib key lost db = some (db', t')) :
    Lasting db db' ∧ t'.Sound lib key db' ∧ ∀ tokenHash,
      rotations db'.refreshTokens tokenHash + t.insertedFor lib tokenHash =
        rotations db.refreshTokens tokenHash + t'.insertedFor lib tokenHash := by
  obtain ⟨call, phase⟩ := t
  unfold RefreshThread.advance at h
  cases phase with
  | started =>
    dsimp only at h
    split at h <;> cases h <;> exact ⟨.refl _, trivial, fun _ => by simp [RefreshThread.insertedFor]⟩
  | loaded sessionId =>
    dsimp only at h
    split at h
    · cases h
      exact ⟨.refl _, trivial, fun _ => by simp [RefreshThread.insertedFor]⟩
    · rename_i pair p hprepared
      cases h
      cases lost with
      | true => cases hprepared
      | false => exact ⟨.refl _, RefreshCall.prepare_eq_ok hlib hprepared, fun _ => rfl⟩
  | prepared pair p =>
    obtain ⟨hhash, hsealed⟩ := ht
    dsimp only at h
    split at h
    · cases h
      exact ⟨.refl _, trivial, fun _ => by simp [RefreshThread.insertedFor]⟩
    · rename_i outcome db₁ hrotate
      cases h
      refine ⟨.rotateRefreshToken hrotate, ?_, fun tokenHash => ?_⟩
      · refine RefreshThread.sound_ended fun pair' hresult => ?_
        cases lost with
        | true => cases hresult
        | false => exact hhash ▸ replays_of_rotate hsealed hrotate hresult
      · have hcount := rotations_of_rotateRefreshToken hrotate tokenHash
        rw [hhash] at hcount
        exact hcount
  | ended => cases h

theorem refreshing_upholds (hlib : lib.RoundTrips) :
    (refreshing lib key).Upholds (fun _ => True) Lasting (fun db t => t.Sound lib key db) where
  stable hl ht := ht.lasting hl
  start db call := by
    dsimp only [refreshing, RefreshThread.start]
    split
    · trivial
    · exact RefreshThread.sound_ended fun _ h => by cases h
  advance _ ht h := ⟨trivial, (ht.advance hlib h).1, (ht.advance hlib h).2.1⟩
  command _ := ⟨trivial, .of_next rfl⟩

/-- The pair the caller got. -/
def RefreshThread.returned (t : RefreshThread) : Option TokenPair :=
  match t.phase with
  | .ended (.ok pair) _ => some pair
  | _ => none

theorem RefreshThread.Sound.replays {db : Db} {t : RefreshThread} {pair : TokenPair} (ht : t.Sound lib key db)
    (h : t.returned = some pair) : db.Replays lib key (t.call.tokenHash lib) pair := by
  unfold RefreshThread.returned at h
  split at h <;> cases h
  rename_i hphase
  unfold RefreshThread.Sound at ht
  rw [hphase] at ht
  exact ht

/-- **Concurrent refreshes of one token.** However refresh calls with one sealing key interleave with each
other and with other commands, the calls with a token that succeed all return the same pair, and once one of
them has, the calls with that token have inserted exactly one successor between them. -/
theorem refreshes_of_one_token (hlib : lib.RoundTrips) {s : Calls.State Db RefreshThread}
    (hs : Reachable ((refreshing lib key).system Db.empty) s) (tokenHash : Bytes) :
    (∀ t ∈ s.calls, ∀ t' ∈ s.calls, t.call.tokenHash lib = tokenHash → t'.call.tokenHash lib = tokenHash →
      ∀ pair pair', t.returned = some pair → t'.returned = some pair' → pair = pair') ∧
    ((∃ t ∈ s.calls, t.call.tokenHash lib = tokenHash ∧ t.returned.isSome) →
      (s.calls.map (RefreshThread.insertedFor lib tokenHash)).sum = 1) := by
  have hupholds : (refreshing lib key).Upholds _ _ _ := refreshing_upholds hlib
  have hsound := (hupholds.each trivial hs).2
  refine ⟨fun t ht t' ht' hh hh' pair pair' hp hp' => ?_, fun ⟨t, ht, hh, hp⟩ => ?_⟩
  · have hpair := (hsound t ht).replays hp
    have hpair' := (hsound t' ht').replays hp'
    rw [hh] at hpair
    rw [hh'] at hpair'
    exact hpair.eq hpair'
  · obtain ⟨pair, hp⟩ := Option.isSome_iff_exists.1 hp
    obtain ⟨row, hfind, hrotated, -⟩ := (hsound t ht).replays hp
    rw [hupholds.sum (m := fun db => rotations db.refreshTokens tokenHash) (fun call => ?_)
      (fun _ ht h => (ht.advance hlib h).2.2 _) (fun _ => rotations_of_step) trivial rfl hs]
    · simp [rotations, ← hh, hfind, hrotated]
    · unfold refreshing RefreshThread.start
      dsimp only
      split <;> simp [RefreshThread.insertedFor]

end Concurrent

def samplePair (second : Bool) : TokenPair := ⟨"access", if second then "second" else "first", 60⟩

/-- A cipher that prepends its tag, and a format for the two pairs. -/
def sampleLibrary : RefreshLibrary where
  sha256 token := if token = "the-refresh-token-of-the-second-login" then [20] else [UInt8.ofNat token.length]
  encrypt _ _ plaintext := some (0 :: plaintext)
  decrypt _ _ ciphertext := some ciphertext.tail
  toVec pair := if pair = samplePair false then some [1] else if pair = samplePair true then some [2] else none
  fromSlice bytes :=
    if bytes = [1] then some (samplePair false) else if bytes = [2] then some (samplePair true) else none
  urlSafeNoPad bytes := if bytes = [1] then "first" else "second"

theorem sampleLibrary_roundTrips : sampleLibrary.RoundTrips where
  decrypt_encrypt h := by cases h; rfl
  encrypt_ne_nil h := by cases h; simp
  fromSlice_toVec {pair bytes} h := by
    simp only [sampleLibrary] at h ⊢
    split at h
    · cases h; simp [*]
    · split at h
      · cases h; simp [*]
      · cases h

def sampleKey : RefreshSealingKey := ⟨"v1", List.replicate 32 0, by decide +kernel, rfl⟩

theorem sampleRefresh_requestId : validateIdentifier "request" = .ok () := by decide +kernel

def sampleRefresh (second : Bool) : RefreshCall where
  service :=
    { config :=
        { issuer := "issuer", audience := "audience", accessTtlSeconds := 60, refreshTtlSeconds := 300
          sessionTtlSeconds := 300, valid := by decide +kernel, accessTtl := by decide, refreshTtl := by decide
          sessionTtl := shortestSessionTtl }
      encodeAccessToken := fun _ => some "access" }
  boundSessionId := none
  refreshToken := "the-refresh-token-of-the-second-login"
  requestId := ⟨"request", sampleRefresh_requestId⟩
  nowUnixSeconds := 1
  draws := ⟨some [if second then 2 else 1], some 0, some ⟨List.replicate 12 0, rfl⟩, some 0, some 0⟩

/-- The second login, then two refreshes of its token in lockstep. -/
def sampleRefreshes : List (Calls.Action RefreshCall Bool OtherCommand) :=
  ((foundAcme ++ secondLogin).filterMap fun c =>
      if h : c.isRotation = false then some (.command ⟨c, h⟩) else none) ++
    [.call (sampleRefresh false), .call (sampleRefresh true), .advance 0 false, .advance 1 false, .advance 0 false,
      .advance 1 false, .advance 1 false, .advance 0 false]

/-- Both calls return the pair of the one whose statement came first. -/
theorem lockstep_refreshes : ∃ s, Reachable ((refreshing sampleLibrary sampleKey).system Db.empty) s ∧
    s.calls.map RefreshThread.returned = [some (samplePair true), some (samplePair true)] ∧
      (s.calls.map (RefreshThread.insertedFor sampleLibrary [20])).sum = 1 := by
  obtain ⟨s, hs, hp⟩ := exists_reachable_of_run ((refreshing sampleLibrary sampleKey).system Db.empty) sampleRefreshes
    (fun s : Calls.State Db RefreshThread =>
      decide (s.calls.map RefreshThread.returned = [some (samplePair true), some (samplePair true)]) &&
        s.calls.any fun t => decide (t.call.tokenHash sampleLibrary = [20]) && t.returned.isSome)
    (by decide +kernel)
  obtain ⟨hreturned, hany⟩ := Bool.and_eq_true_iff.1 hp
  obtain ⟨t, ht, hfacts⟩ := List.any_eq_true.1 hany
  obtain ⟨hhash, hsome⟩ := Bool.and_eq_true_iff.1 hfacts
  exact ⟨s, hs, of_decide_eq_true hreturned,
    (refreshes_of_one_token sampleLibrary_roundTrips hs [20]).2 ⟨t, ht, of_decide_eq_true hhash, hsome⟩⟩

end WasiAuth
