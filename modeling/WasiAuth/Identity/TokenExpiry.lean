import WasiAuth.Identity.Refresh
import WasiAuth.Identity.Cached

/-! # How long an access token is accepted

A token pair is issued for a session by `issue`, or by a rotation, which also extends the session. `token_pair` puts
into the token the earlier of its own lifetime and the end of the session.

`decode_access_token` sets the algorithm, the issuer and the audience of `Validation` and leaves the rest as
`Validation::new` has it, where `leeway` is 60 seconds: the library takes a token for 60 more seconds. What ends it
before is the session, which the database asks to be live. `verify_invalidation_cached` compares the expiry itself.
-/

namespace WasiAuth

open Relational Transition

variable {DecodingKey : Type}

/-! ## The JWT library -/

/-- `Validation::new(..).leeway`. -/
def leewaySeconds : Nat := 60

def IssuedClaims.read (claims : IssuedClaims) : AccessTokenClaims where
  sub := claims.sub
  tenantId := claims.tenantId
  sessionId := claims.sessionId
  iat := claims.iat
  exp := claims.exp

/-- What `decode` says of a token with a good signature (authentication/jwt.rs:263). -/
def validated (claims : IssuedClaims) (issuer audience : String) (systemSeconds : Nat) :
    Except JwtErrorKind AccessTokenClaims :=
  if claims.exp + leewaySeconds < systemSeconds then .error .expiredSignature
  else if claims.iss = issuer ∧ audience ∈ claims.aud then .ok claims.read
  else .error .other

/-- The service signs with the active key of the verifier's ring, and the library reads back what it has signed. -/
structure SignsFor (service : TokenService) (v : AccessTokenVerifier DecodingKey) (active : JwtKey DecodingKey) :
    Prop where
  issuer : v.issuer = service.config.issuer
  audience : v.audience = service.config.audience
  mem : active ∈ v.keys.keys
  status : active.status = .active
  header : ∀ {claims token}, service.encodeAccessToken claims = some token → v.jwt.headerKid token = some active.kid
  decode : ∀ {claims token systemSeconds}, service.encodeAccessToken claims = some token →
    v.jwt.decode token active.decoding v.issuer v.audience active.algorithm systemSeconds =
      validated claims v.issuer v.audience systemSeconds

/-! ## Issuing a pair -/

/-- What `issue` draws from the random source. -/
structure IssueDraws where
  refreshToken : Option Bytes
  tokenId : Option (BitVec 80)
  familyId : Option (BitVec 80)
  auditId : Option (BitVec 80)

namespace TokenService

variable (service : TokenService) (lib : RefreshLibrary) (sessionId : SessionId) (requestId : RequestId)
  (nowUnixSeconds : Nat) (draws : IssueDraws)

def prepareIssue (db : Db) : Except RefreshError (TokenPair × IssueTokenPair) := do
  let session ← (loadVerifiedSession sessionId requestId nowUnixSeconds db).mapError fun _ => .invalidSession
  let bytes ← okOr .randomnessUnavailable draws.refreshToken
  let pair ← service.tokenPair session (lib.urlSafeNoPad bytes) nowUnixSeconds draws.tokenId
  let familyId ← okOr .randomnessUnavailable draws.familyId
  let _ ← okOr .randomnessUnavailable draws.auditId
  let id ← okOr .transport (Uuid.ofText? sessionId.value)
  pure (pair,
    { sessionId := id
      tokenHash := lib.sha256 pair.refreshToken
      familyId := uuidV7 (saturatingMs nowUnixSeconds) familyId
      expiresAtMs := unixMs (min (nowUnixSeconds + service.config.refreshTtlSeconds) (2 ^ 64 - 1))
      nowMs := unixMs nowUnixSeconds })

/-- tokens.rs:689 -/
def issue (db : Db) : Except RefreshError TokenPair × Db :=
  match service.prepareIssue lib sessionId requestId nowUnixSeconds draws db with
  | .error e => (.error e, db)
  | .ok (pair, p) =>
    match issueTokenPair p db with
    | .error _ => (.error .transport, db)
    | .ok (none, db') => (.error .invalidSession, db')
    | .ok (some (), db') => (.ok pair, db')

end TokenService

/-- A pair is issued for the session `id`, by `issue` or by a rotation. -/
inductive Issues (service : TokenService) (nowUnixSeconds : Nat) (id : Uuid) (db : Db) (pair : TokenPair) (db' : Db) :
    Prop
  | issue {lib : RefreshLibrary} {sessionId : SessionId} {requestId : RequestId} {draws : IssueDraws}
      (hid : Uuid.ofText? sessionId.value = some id)
      (h : service.issue lib sessionId requestId nowUnixSeconds draws db = (.ok pair, db'))
  | refresh {lib : RefreshLibrary} {key : RefreshSealingKey} {call : RefreshCall} {sessionId : SessionId}
      {p : RotateRefreshToken} {keyVersion : String} {ciphertext : Bytes} (hservice : call.service = service)
      (hnow : call.nowUnixSeconds = nowUnixSeconds) (hload : call.load lib db = .ok sessionId)
      (hid : Uuid.ofText? sessionId.value = some id) (hprepare : call.prepare lib key sessionId db = .ok (pair, p))
      (hrotated : rotateRefreshToken p db = .ok (.rotated keyVersion ciphertext, db'))

/-- The claims of a pair are about the session, and end no later. -/
structure SignedFor (service : TokenService) (nowUnixSeconds : Nat) (pair : TokenPair) (claims : IssuedClaims)
    (session : Session) : Prop where
  signed : service.encodeAccessToken claims = some pair.accessToken
  iss : claims.iss = service.config.issuer
  aud : service.config.audience ∈ claims.aud
  exp : claims.exp = nowUnixSeconds + pair.expiresInSeconds
  sub : claims.sub = session.userId.text
  tenantId : claims.tenantId = session.selectedOrganizationId.map Uuid.text
  sessionId : claims.sessionId = some session.sessionId.text
  outlived : (claims.exp * 1000 : Int) ≤ session.expiresAtMs

structure Issued (service : TokenService) (nowUnixSeconds : Nat) (pair : TokenPair) (db : Db) (claims : IssuedClaims)
    (session : Session) (user : User) : Prop extends SignedFor service nowUnixSeconds pair claims session where
  live : ∀ nowMs, db.liveSession session.sessionId nowMs =
    if nowMs < session.expiresAtMs then some (session, user) else none
  mayAct : db.mayAct session = true
  decodes : (db.contextRow session user).Decodes

section Issuing
variable {service : TokenService} {nowUnixSeconds : Nat} {pair : TokenPair} {db db' : Db} {claims : IssuedClaims}
  {session : Session} {user : User} {id : Uuid} {requestId : RequestId} {verified : VerifiedSession}
  {sessionId : SessionId} {lib : RefreshLibrary}

theorem Db.liveSession_eq_ite {nowMs : Int} (h : db.liveSession id nowMs = some (session, user)) (nowMs' : Int) :
    db.liveSession id nowMs' = if nowMs' < session.expiresAtMs then some (session, user) else none := by
  obtain ⟨hsession, huser, hrevoked, -, hrevision, hactive⟩ := Db.liveSession_eq_some.1 h
  split
  · exact Db.liveSession_eq_some.2 ⟨hsession, huser, hrevoked, ‹_›, hrevision, hactive⟩
  · refine Option.eq_none_iff_forall_ne_some.2 fun ⟨s, u⟩ hlive => ?_
    obtain ⟨hs, -, -, hexpires, -, -⟩ := Db.liveSession_eq_some.1 hlive
    cases hsession.symm.trans hs
    contradiction

theorem loadVerifiedSession_eq_ok
    (h : loadVerifiedSession sessionId requestId nowUnixSeconds db = .ok verified) :
    ∃ id session user, Uuid.ofText? sessionId.value = some id ∧
      db.liveSession id (unixMs nowUnixSeconds) = some (session, user) ∧ db.mayAct session = true ∧
        verifiedSession (db.contextRow session user) requestId = .ok verified := by
  obtain ⟨id, row, hid, hrow, hverified⟩ := queryFirst_eq_ok.1 h
  obtain ⟨⟨session, user⟩, hlive, hrow⟩ := Option.bind_eq_some_iff.1 hrow
  dsimp only at hrow
  split at hrow
  · rename_i hact
    cases hrow
    exact ⟨id, session, user, hid, hlive, (Bool.and_eq_true_iff.1 hact).2, hverified⟩
  · cases hrow

theorem times_of_verifiedSession {row : ContextRow} (h : verifiedSession row requestId = .ok verified) :
    verified.context.auth.sessionId.value = row.sessionId.text ∧
      verified.context.auth.expiresAtUnixSeconds = row.expiresAtMs.toNat / 1000 ∧ 0 < row.expiresAtMs := by
  simp only [verifiedSession, bind_eq_ok, orContextError_eq_ok, VerifiedAuthContext.fromValidated_eq_ok] at h
  obtain ⟨_, -, _, -, -, -, _, -, _, hid, _, htimes, _, -, _, -, _, -, _, ⟨_, rfl⟩, _, -, h⟩ := h
  cases h
  exact ⟨Identifier.value_of_new hid, rfl, (require_eq_ok.1 htimes).1⟩

theorem signedFor_of_tokenPair {refreshToken : String} {tokenId : Option (BitVec 80)}
    (hverified : verifiedSession (db.contextRow session user) requestId = .ok verified)
    (hpair : service.tokenPair verified refreshToken nowUnixSeconds tokenId = .ok pair) :
    ∃ claims, SignedFor service nowUnixSeconds pair claims session := by
  have hreads := reads_of_verifiedSession hverified
  obtain ⟨hid, hexpires, hpos⟩ := times_of_verifiedSession hverified
  simp only [TokenService.tokenPair] at hpair
  split at hpair
  · cases hpair
  · rename_i hlater
    simp only [bind_eq_ok, okOr_eq_ok] at hpair
    obtain ⟨_, -, accessToken, hsigned, h⟩ := hpair
    cases h
    refine ⟨_, hsigned, rfl, List.mem_singleton_self _, ?_, hreads.userId, hreads.organizationId,
      congrArg some hid, ?_⟩
    · dsimp only
      omega
    · have hfloor : (min (min (nowUnixSeconds + service.config.accessTtlSeconds) (2 ^ 64 - 1))
          verified.context.auth.expiresAtUnixSeconds) * 1000 ≤ session.expiresAtMs.toNat := by
        rw [hexpires]
        change _ ≤ (db.contextRow session user).expiresAtMs.toNat
        omega
      have hnat : ((session.expiresAtMs.toNat : Nat) : Int) = session.expiresAtMs :=
        Int.toNat_of_nonneg (Int.le_of_lt hpos)
      dsimp only
      omega

theorem ContextRow.Decodes.extend {row : ContextRow} (h : row.Decodes) {expiresAtMs : Int}
    (hlater : row.expiresAtMs ≤ expiresAtMs) :
    ({ row with expiresAtMs := expiresAtMs, sessionRevision := row.sessionRevision + 1 } : ContextRow).Decodes := by
  intro requestId
  obtain ⟨verified, h⟩ := h requestId
  simp only [verifiedSession, authorizationFingerprint, bind_eq_ok, orContextError_eq_ok, require_eq_ok,
    VerifiedAuthContext.fromValidated_eq_ok] at h ⊢
  obtain ⟨_, ⟨u, hu, s, hs, o, ho, r, hr, q, hq, _, ⟨hpos, -, hsecurity, horg, hsome⟩, -⟩, user, huser, _, hemail,
    organization, horganization, id, hid, _, ⟨-, hcreated, hlt⟩, policy, hpolicy, role, hrole, principal, hprincipal,
    _, ⟨hlifetime, -⟩, authorization, hauthorization, -⟩ := h
  have hseconds : row.createdAtMs.toNat / 1000 < expiresAtMs.toNat / 1000 := by omega
  exact ⟨_, _, ⟨u, hu, s, hs, o, ho, r, hr, q, hq, (), ⟨by omega, by simp, hsecurity, horg, hsome⟩, rfl⟩, user, huser,
    (), hemail, organization, horganization, id, hid, (), ⟨by omega, hcreated, by omega⟩, policy, hpolicy, role, hrole,
    principal, hprincipal, _, ⟨hseconds, rfl⟩, authorization, hauthorization, rfl⟩

theorem TokenService.issue_eq_ok {draws : IssueDraws}
    (h : service.issue lib sessionId requestId nowUnixSeconds draws db = (.ok pair, db')) :
    ∃ p, service.prepareIssue lib sessionId requestId nowUnixSeconds draws db = .ok (pair, p) ∧
      issueTokenPair p db = .ok (some (), db') := by
  unfold TokenService.issue at h
  split at h
  · cases h
  · rename_i hprepare
    split at h
    · cases h
    · cases h
    · rename_i hstatement
      cases h
      exact ⟨_, hprepare, hstatement⟩

theorem issued_of_issue {draws : IssueDraws}
    (hid : Uuid.ofText? sessionId.value = some id)
    (h : service.issue lib sessionId requestId nowUnixSeconds draws db = (.ok pair, db')) :
    ∃ claims session user, session.sessionId = id ∧ Issued service nowUnixSeconds pair db' claims session user := by
  obtain ⟨p, hprepare, hstatement⟩ := TokenService.issue_eq_ok h
  simp only [TokenService.prepareIssue, bind_eq_ok, mapError_eq_ok] at hprepare
  obtain ⟨verified, hload, _, -, _, hpair, _, -, _, -, _, -, hp⟩ := hprepare
  cases hp
  obtain ⟨id', session, user, hid', hlive, hact, hverified⟩ := loadVerifiedSession_eq_ok hload
  cases hid.symm.trans hid'
  obtain ⟨claims, hsigned⟩ := signedFor_of_tokenPair hverified hpair
  obtain rfl : session.sessionId = id := (Table.find?_eq_some.1 (Db.liveSession_eq_some.1 hlive).1).2
  rcases issueTokenPair_cases hstatement with ⟨⟨⟩, -⟩ | ⟨_, _, tokens, -, -, -, rfl⟩
  exact ⟨claims, session, user, rfl,
    { hsigned with live := Db.liveSession_eq_ite hlive, mayAct := hact
                   decodes := decodes_of_verifiedSession hverified }⟩

theorem RefreshCall.load_eq_ok {call : RefreshCall}
    (h : call.load lib db = .ok sessionId) (hid : Uuid.ofText? sessionId.value = some id) :
    db.loadRefreshSession (call.tokenHash lib) = some id := by
  simp only [RefreshCall.load, bind_eq_ok, okOr_eq_ok, mapError_eq_ok] at h
  obtain ⟨id', hload, sessionId', hnew, h⟩ := h
  split at h
  · cases h
  · cases h
    rw [Identifier.value_of_new hnew, Uuid.ofText?_text] at hid
    rw [hload, hid]

theorem liveSession_of_rotated {p : RotateRefreshToken} {keyVersion : String} {ciphertext : Bytes} {nowMs : Int}
    (hrotated : rotateRefreshToken p db = .ok (.rotated keyVersion ciphertext, db'))
    (htoken : db.loadRefreshSession p.tokenHash = some id) (hlive : db.liveSession id nowMs = some (session, user)) :
    db'.liveSession id nowMs = some (p.extended session, user) ∧
      db'.contextRow (p.extended session) user = { db.contextRow session user with
        expiresAtMs := max session.expiresAtMs p.sessionExpiresAtMs, sessionRevision := session.sessionRevision + 1 } ∧
        db'.mayAct (p.extended session) = db.mayAct session := by
  obtain ⟨hsession, huser, hrevoked, hexpires, hrevision, hactive⟩ := Db.liveSession_eq_some.1 hlive
  have hcases := rotateRefreshToken_cases hrotated
  generalize houtcome : RotationOutcome.rotated keyVersion ciphertext = outcome at hcases
  cases hcases with
  | invalid | replayed => cases houtcome
  | reuse => split at houtcome <;> cases houtcome
  | @rotated token _ _ _ _ hc =>
    have hid : token.sessionId = id := by
      rw [Db.loadRefreshSession, hc.findToken] at htoken
      exact Option.some.inj htoken
    refine ⟨Db.liveSession_eq_some.2 ⟨?_, huser, hrevoked, ?_, hrevision, hactive⟩, rfl, rfl⟩
    · rw [Db.updateSessions, Table.find?_update, hsession]
      have hkey : session.sessionId = id := (Table.find?_eq_some.1 hsession).2
      simp [hkey, hid, hrevoked]
    · exact lt_max_of_lt_left hexpires

theorem issued_of_refresh {key : RefreshSealingKey} {call : RefreshCall}
    {p : RotateRefreshToken} {keyVersion : String} {ciphertext : Bytes} (hload : call.load lib db = .ok sessionId)
    (hid : Uuid.ofText? sessionId.value = some id) (hprepare : call.prepare lib key sessionId db = .ok (pair, p))
    (hrotated : rotateRefreshToken p db = .ok (.rotated keyVersion ciphertext, db')) :
    ∃ claims session user, session.sessionId = id ∧
      Issued call.service call.nowUnixSeconds pair db' claims session user := by
  simp only [RefreshCall.prepare, bind_eq_ok, mapError_eq_ok] at hprepare
  obtain ⟨verified, hverify, _, -, _, hpair, _, -, _, -, _, -, _, -, _, -, _, -, hp⟩ := hprepare
  obtain ⟨rfl, hparams⟩ := Prod.mk.inj (Except.ok.inj hp)
  have htoken : db.loadRefreshSession p.tokenHash = some id := by
    rw [← hparams]
    exact RefreshCall.load_eq_ok hload hid
  obtain ⟨id', session, user, hid', hlive, hact, hverified⟩ := loadVerifiedSession_eq_ok hverify
  cases hid.symm.trans hid'
  obtain ⟨claims, hsigned⟩ := signedFor_of_tokenPair hverified hpair
  obtain ⟨hlive', hrow, hact'⟩ := liveSession_of_rotated hrotated htoken hlive
  obtain rfl : session.sessionId = id := (Table.find?_eq_some.1 (Db.liveSession_eq_some.1 hlive).1).2
  refine ⟨claims, p.extended session, user, rfl, { hsigned with outlived := ?_, live := Db.liveSession_eq_ite hlive'
                                                                mayAct := hact'.trans hact, decodes := ?_ }⟩
  · exact hsigned.outlived.trans (le_max_left _ _)
  · rw [hrow]
    exact (decodes_of_verifiedSession hverified).extend (le_max_left _ _)

theorem Issues.issued (h : Issues service nowUnixSeconds id db pair db') :
    ∃ claims session user, session.sessionId = id ∧ Issued service nowUnixSeconds pair db' claims session user := by
  cases h with
  | issue hid h => exact issued_of_issue hid h
  | refresh hservice hnow hload hid hprepare hrotated =>
    subst hservice hnow
    exact issued_of_refresh hload hid hprepare hrotated

end Issuing

/-! ## Verifying it -/

section Verifying
variable {service : TokenService} {v : AccessTokenVerifier DecodingKey} {active : JwtKey DecodingKey}
  {nowUnixSeconds t : Nat} {pair : TokenPair} {db db' : Db} {claims : IssuedClaims} {session : Session} {user : User}
  {id : Uuid} {requestId : RequestId} {value : VerifiedAccessToken}

theorem SignsFor.verification (h : SignsFor service v active) : v.keys.verification active.kid = some active := by
  refine List.find?_eq_some_iff_append.2 ⟨by simp [h.status], ?_⟩
  obtain ⟨before, after, hkeys⟩ := List.append_of_mem h.mem
  refine ⟨before, after, hkeys, fun key hkey => ?_⟩
  have hdistinct := v.keys.distinctKids
  rw [hkeys, List.map_append, List.map_cons, List.nodup_append] at hdistinct
  have hne : key.kid ≠ active.kid := hdistinct.2.2 _ (List.mem_map_of_mem hkey) _ (.head _)
  simp [hne]

theorem SignsFor.keyId (h : SignsFor service v active) {token : String}
    (hsigned : service.encodeAccessToken claims = some token) : accessTokenKeyId v.jwt token = some active.kid := by
  have hvalid := v.keys.validKids active h.mem
  simp only [validKid, Bool.and_eq_true, decide_eq_true_eq, List.all_eq_true] at hvalid
  obtain ⟨⟨hne, -⟩, hchars⟩ := hvalid
  obtain ⟨c, hc⟩ := List.exists_mem_of_ne_nil active.kid.toList (by simpa using hne)
  refine Option.filter_eq_some_iff.2 ⟨h.header hsigned, List.any_eq_true.2 ⟨c, hc, ?_⟩⟩
  simp [isWhitespace_of_isKidChar (hchars c hc)]

theorem SignsFor.decode_eq_ok (h : SignsFor service v active)
    (hissued : SignedFor service nowUnixSeconds pair claims session) {time : CallTime} {decoded : DecodedAccessToken} :
    decodeVerifiedAccessToken v time pair.accessToken = .ok decoded ↔
      time.systemSeconds ≤ claims.exp + leewaySeconds ∧ decoded.claims = claims.read ∧ decoded.kid = active.kid ∧
        decoded.sessionId.value = session.sessionId.text := by
  obtain ⟨sessionId, hsessionId⟩ := new_text session.sessionId
  have hvalue := Identifier.value_of_new hsessionId
  unfold decodeVerifiedAccessToken
  simp only [h.keyId hissued.signed, h.verification, h.decode hissued.signed, validated]
  by_cases hlate : claims.exp + leewaySeconds < time.systemSeconds
  · simp [hlate, Nat.not_le.2 hlate]
  · have haccepted : claims.iss = v.issuer ∧ v.audience ∈ claims.aud := by
      rw [h.issuer, h.audience]
      exact ⟨hissued.iss, hissued.aud⟩
    have hread : claims.read.sessionId = some session.sessionId.text := hissued.sessionId
    simp only [if_neg hlate, if_pos haccepted, hread, Option.map_some, hsessionId, Except.toOption, Option.bind_some,
      Nat.not_lt.1 hlate, true_and, Except.ok.injEq]
    constructor
    · rintro rfl
      exact ⟨rfl, rfl, hvalue⟩
    · obtain ⟨decodedClaims, decodedId, kid⟩ := decoded
      rintro ⟨rfl, rfl, hid⟩
      have hnew : Identifier.new decodedId.value = .ok sessionId := by
        rw [hid]
        exact hsessionId
      rw [Identifier.new_value] at hnew
      cases hnew
      rfl

/-- The verified token shows the account as the row has it. -/
structure VerifiedAccessToken.Shows (value : VerifiedAccessToken) (row : ContextRow) : Prop where
  userId : value.userId = row.userId.text
  organizationId : value.organizationId = row.organizationId.map Uuid.text
  roleIds : value.roleIds = row.roleId.toList
  permissions : value.permissions = btreeSet row.permissions

/-- The session reads alike in both databases. -/
def Db.SameFor (id : Uuid) (db db' : Db) : Prop :=
  ∀ nowMs keyId, db'.loadRequestContext id nowMs keyId = db.loadRequestContext id nowMs keyId

theorem ne_empty_of_mem (hmem : active ∈ v.keys.keys) : active.kid ≠ "" :=
  ne_empty_of_validKid (v.keys.validKids active hmem)

/-- `verify` takes a token until the leeway has passed or the session has ended. -/
theorem verify_issued (hsigns : SignsFor service v active)
    (hissued : Issued service nowUnixSeconds pair db claims session user) (hkey : db.verifiesKey active.kid = true)
    (hsame : db.SameFor session.sessionId db') :
    verify v ⟨t, t⟩ pair.accessToken requestId db' = .ok value ↔
      t ≤ claims.exp + leewaySeconds ∧ unixMs t < session.expiresAtMs ∧
        ∃ decoded, decodeVerifiedAccessToken v ⟨t, t⟩ pair.accessToken = .ok decoded ∧
          value = (db.contextRow session user).accessToken decoded := by
  have hload (decoded : DecodedAccessToken) (hkid : decoded.kid = active.kid) (row : ContextRow) :
      db'.loadRequestContext session.sessionId (unixMs t) decoded.kid = some row ↔
        unixMs t < session.expiresAtMs ∧ row = db.contextRow session user := by
    rw [hsame, hkid, Db.loadRequestContext_eq_some (ne_empty_of_mem hsigns.mem), hissued.live]
    split
    · rename_i hlive
      simp only [hlive, true_and, Option.some.injEq, Prod.mk.injEq]
      constructor
      · rintro ⟨_, _, ⟨rfl, rfl⟩, -, -, rfl⟩
        rfl
      · rintro rfl
        exact ⟨session, user, ⟨rfl, rfl⟩, hkey, hissued.mayAct, rfl⟩
    · rename_i hended
      simp [hended]
  rw [verify_eq_ok]
  constructor
  · rintro ⟨decoded, row, hdecoded, haccepts, rfl⟩
    obtain ⟨hsystem, -, hkid, hid⟩ := (hsigns.decode_eq_ok hissued.toSignedFor).1 hdecoded
    obtain ⟨id, hcast, hrow⟩ := haccepts.selected
    rw [hid, Uuid.ofText?_text] at hcast
    cases hcast
    obtain ⟨hlive, rfl⟩ := (hload decoded hkid row).1 hrow
    exact ⟨hsystem, hlive, decoded, hdecoded, rfl⟩
  · rintro ⟨-, hlive, decoded, hdecoded, rfl⟩
    obtain ⟨-, hclaims, hkid, hid⟩ := (hsigns.decode_eq_ok hissued.toSignedFor).1 hdecoded
    refine ⟨decoded, _, hdecoded, ⟨⟨session.sessionId, ?_, (hload decoded hkid _).2 ⟨hlive, rfl⟩⟩, hissued.decodes, ?_,
      ?_⟩, rfl⟩
    · rw [hid, Uuid.ofText?_text]
    · rw [hclaims]
      exact hissued.sub
    · rw [hclaims]
      exact hissued.tenantId

theorem exists_verify_issued (hsigns : SignsFor service v active)
    (hissued : Issued service nowUnixSeconds pair db claims session user) (hkey : db.verifiesKey active.kid = true)
    (hsame : db.SameFor session.sessionId db') :
    (∃ value, verify v ⟨t, t⟩ pair.accessToken requestId db' = .ok value) ↔
      t ≤ claims.exp + leewaySeconds ∧ unixMs t < session.expiresAtMs := by
  constructor
  · rintro ⟨value, h⟩
    obtain ⟨hsystem, hlive, -⟩ := (verify_issued hsigns hissued hkey hsame).1 h
    exact ⟨hsystem, hlive⟩
  · rintro ⟨hsystem, hlive⟩
    obtain ⟨sessionId, hsessionId⟩ := new_text session.sessionId
    have hdecoded : decodeVerifiedAccessToken v ⟨t, t⟩ pair.accessToken = .ok ⟨claims.read, sessionId, active.kid⟩ :=
      (hsigns.decode_eq_ok hissued.toSignedFor).2 ⟨hsystem, rfl, rfl, Identifier.value_of_new hsessionId⟩
    exact ⟨_, (verify_issued hsigns hissued hkey hsame).2 ⟨hsystem, hlive, _, hdecoded, rfl⟩⟩

theorem unixMs_mono {a b : Nat} (h : a ≤ b) : unixMs a ≤ unixMs b := by
  unfold unixMs
  omega

/-- **When a token is accepted.** With nothing changed since a pair was issued, `verify` takes its access token
exactly before the expiry, if and only if the session has ended by then too. Whenever it takes the token, it returns
the user, the organization, the role and the permissions of the session. -/
theorem verify_until_expiry_iff (hsigns : SignsFor service v active)
    (hissues : Issues service nowUnixSeconds id db pair db')
    (hkey : ∃ row, db'.signingKeys.find? active.kid = some row ∧ row.status = .active) {later : Db}
    (hsame : db'.SameFor id later) (requestId : RequestId) :
    ∃ session user, db'.sessions.find? id = some session ∧ db'.users.find? session.userId = some user ∧
      (∀ t value, verify v ⟨t, t⟩ pair.accessToken requestId later = .ok value →
        value.Shows (db'.contextRow session user)) ∧
      ((∀ t, (∃ value, verify v ⟨t, t⟩ pair.accessToken requestId later = .ok value) ↔
          t < nowUnixSeconds + pair.expiresInSeconds) ↔
        session.expiresAtMs ≤ unixMs (nowUnixSeconds + pair.expiresInSeconds)) := by
  obtain ⟨claims, session, user, rfl, hissued⟩ := hissues.issued
  have hverifies : db'.verifiesKey active.kid = true := by
    obtain ⟨row, hrow, hactive⟩ := hkey
    simp [Db.verifiesKey, hrow, hactive]
  have hlive : db'.liveSession session.sessionId (session.expiresAtMs - 1) = some (session, user) := by
    rw [hissued.live, if_pos (by omega)]
  obtain ⟨hsession, huser, -⟩ := Db.liveSession_eq_some.1 hlive
  refine ⟨session, user, hsession, huser, fun t value h => ?_, ?_⟩
  · obtain ⟨-, -, decoded, hdecoded, rfl⟩ := (verify_issued hsigns hissued hverifies hsame).1 h
    obtain ⟨-, hclaims, -⟩ := (hsigns.decode_eq_ok hissued.toSignedFor).1 hdecoded
    refine ⟨?_, rfl, rfl, rfl⟩
    change decoded.claims.sub = session.userId.text
    rw [hclaims]
    exact hissued.sub
  · simp only [exists_verify_issued hsigns hissued hverifies hsame, ← hissued.exp]
    constructor
    · intro h
      -- at the expiry itself the leeway accepts the token, so it is the session that must have ended
      have hexpiry := (h claims.exp).not.2 (Nat.lt_irrefl _)
      rw [not_and, not_lt] at hexpiry
      exact hexpiry (Nat.le_add_right _ _)
    · intro hended t
      constructor
      · rintro ⟨-, hbefore⟩
        by_contra hlate
        exact absurd (hbefore.trans_le hended) (not_lt.2 (unixMs_mono (Nat.not_lt.1 hlate)))
      · intro hbefore
        have houtlived := hissued.outlived
        refine ⟨by omega, ?_⟩
        unfold unixMs
        omega

end Verifying

section Samples

/-- The claims of a token for the founder, whose session ends at 1000 s. -/
def founderClaimsAt (nowUnixSeconds : Nat) : AccessTokenClaims :=
  { founderClaims with iat := nowUnixSeconds, exp := min (nowUnixSeconds + 60) 1000 }

theorem founderIssuer_valid : validIssuerAndAudience "issuer" "audience" = true := by decide +kernel

theorem founderIssuer_accessTtl : 60 ≤ 60 ∧ 60 ≤ 3600 := by decide

theorem founderIssuer_refreshTtl : 300 ≤ 300 ∧ 300 ≤ 90 * 24 * 60 * 60 := by decide

def founderIssuer : TokenService where
  config :=
    { issuer := "issuer", audience := "audience", accessTtlSeconds := 60, refreshTtlSeconds := 300
      sessionTtlSeconds := 300, valid := founderIssuer_valid, accessTtl := founderIssuer_accessTtl
      refreshTtl := founderIssuer_refreshTtl, sessionTtl := shortestSessionTtl }
  encodeAccessToken claims :=
    if claims.iss = "issuer" ∧ claims.aud = ["audience"] then
      if claims.read = founderClaimsAt 10 then some "early"
      else if claims.read = founderClaimsAt 950 then some "late"
      else none
    else none

theorem founderTokens_validKids : ∀ key ∈ [(⟨"k1", .active, .es256, ()⟩ : JwtKey Unit)], validKid key.kid = true := by
  decide

theorem founderTokens_distinctKids : ([(⟨"k1", .active, .es256, ()⟩ : JwtKey Unit)].map JwtKey.kid).Nodup := by
  decide

def founderTokens : AccessTokenVerifier Unit where
  jwt :=
    { headerKid := fun _ => some "k1"
      decode := fun token _ issuer audience _ now =>
        let claims := founderClaimsAt (if token = "early" then 10 else 950)
        if claims.exp + leewaySeconds < now then .error .expiredSignature
        else if "issuer" = issuer ∧ audience = "audience" then .ok claims
        else .error .other }
  keys :=
    { keys := [⟨"k1", .active, .es256, ()⟩], validKids := founderTokens_validKids
      distinctKids := founderTokens_distinctKids }
  issuer := "issuer"
  audience := "audience"
  valid := founderIssuer_valid

theorem founderIssuer_signsFor : SignsFor founderIssuer founderTokens ⟨"k1", .active, .es256, ()⟩ where
  issuer := rfl
  audience := rfl
  mem := .head _
  status := rfl
  header _ := rfl
  decode {claims _ _} h := by
    simp only [founderIssuer] at h
    split at h
    · rename_i hread
      obtain ⟨hiss, haud⟩ := hread
      split at h
      · rename_i hclaims
        cases h
        have hexp : claims.exp = (founderClaimsAt 10).exp := congrArg AccessTokenClaims.exp hclaims
        simp [founderTokens, validated, hiss, haud, hclaims, hexp]
      · split at h
        · rename_i hclaims
          cases h
          have hexp : claims.exp = (founderClaimsAt 950).exp := congrArg AccessTokenClaims.exp hclaims
          simp [founderTokens, validated, hiss, haud, hclaims, hexp]
        · cases h
    · cases h

theorem founderSession_valid : validateIdentifier "00000000-0000-0000-0000-000000000002" = .ok () := by decide

/-- `issue` for the founder's session. -/
def founderIssue (nowUnixSeconds : Nat) (db : Db) : Except RefreshError TokenPair × Db :=
  founderIssuer.issue sampleLibrary ⟨"00000000-0000-0000-0000-000000000002", founderSession_valid⟩ sampleRequest
    nowUnixSeconds ⟨some [1], some 0, some 0, some 0⟩ db

theorem exists_founderIssue (nowUnixSeconds : Nat) (test : TokenPair → Db → Bool)
    (h : (postgres.run Db.empty (foundAcme ++ rotateToSecond.take 1)).any (fun db =>
      match founderIssue nowUnixSeconds db with
      | (.ok pair, db') => test pair db'
      | (.error _, _) => false) = true) :
    ∃ db pair db', Reachable postgres db ∧ Issues founderIssuer nowUnixSeconds ⟨2⟩ db pair db' ∧
      test pair db' = true := by
  obtain ⟨db, hreach, htest⟩ := exists_reachable_of_run postgres _ _ h
  split at htest
  · rename_i pair db' hissue
    exact ⟨db, pair, db', hreach, .issue (by decide +kernel) hissue, htest⟩
  · cases htest

/-- A token that expires with its session is accepted exactly before its expiry. -/
theorem late_token_accepted_before_expiry : ∃ db pair db', Reachable postgres db ∧
    Issues founderIssuer 950 ⟨2⟩ db pair db' ∧
      ∀ t, (∃ value, verify founderTokens ⟨t, t⟩ pair.accessToken sampleRequest db' = .ok value) ↔ t < 1000 := by
  obtain ⟨db, pair, db', hreach, hissues, htest⟩ := exists_founderIssue 950
    (fun pair db' => decide (pair.expiresInSeconds = 50) &&
      ((db'.signingKeys.find? "k1").any fun key : SigningKey => decide (key.status = .active)) &&
        (db'.sessions.find? ⟨2⟩).all fun s : Session => decide (s.expiresAtMs ≤ 1000000)) (by decide +kernel)
  simp only [Bool.and_eq_true, decide_eq_true_eq] at htest
  obtain ⟨⟨hexpires, hkey⟩, hends⟩ := htest
  obtain ⟨key, hkey, hactive⟩ := (Option.any_eq_true _ _).1 hkey
  obtain ⟨session, -, hsession, -, -, hiff⟩ := verify_until_expiry_iff founderIssuer_signsFor hissues
    ⟨key, hkey, of_decide_eq_true hactive⟩ (fun _ _ => rfl) sampleRequest
  rw [hsession] at hends
  rw [hexpires] at hiff
  exact ⟨db, pair, db', hreach, hissues, hiff.2 (of_decide_eq_true hends)⟩

/-- A token that expires before its session is accepted at its expiry, and for the leeway after it. -/
theorem exists_accepted_after_expiry : ∃ db pair db' value, Reachable postgres db ∧
    Issues founderIssuer 10 ⟨2⟩ db pair db' ∧ SignsFor founderIssuer founderTokens ⟨"k1", .active, .es256, ()⟩ ∧
      verify founderTokens ⟨10 + pair.expiresInSeconds + 60, 10 + pair.expiresInSeconds + 60⟩ pair.accessToken
        sampleRequest db' = .ok value := by
  obtain ⟨db, pair, db', hreach, hissues, htest⟩ := exists_founderIssue 10
    (fun pair db' =>
      (verify founderTokens ⟨10 + pair.expiresInSeconds + 60, 10 + pair.expiresInSeconds + 60⟩ pair.accessToken
        sampleRequest db').toOption.any fun _ => true) (by decide +kernel)
  obtain ⟨value, hvalue, -⟩ := exists_ok_of_any htest
  exact ⟨db, pair, db', value, hreach, hissues, founderIssuer_signsFor, hvalue⟩

end Samples

end WasiAuth
