import WasiAuth.Postgres.Footprints

/-! # What lasts in the account tables

No statement takes back a revocation, a rotation, a consumption or an enrollment. `Lasting` says so for the
rows of five tables, for every command and hence along every run:

| row | what lasts |
|---|---|
| session | its user; once revoked it stays revoked |
| refresh token | its session and its family; once rotated, all but the revocation; once revoked it stays so |
| one-time token | all but the consumption; once consumed it stays consumed |
| TOTP factor | once enabled, all but the last consumed step, which does not decrease |
| recovery code | as long as the factor of its user is enabled: once used it stays used |

The commands are taken apart once, in `keepsCredentials_of_execute`: all but eight of them touch the account
tables only by the writes of `Postgres/Writes.lean`.
-/

namespace WasiAuth

open Relational Relation

/-! ## The commands, seen from the accounts -/

theorem Session.Continues.refl (s : Session) : s.Continues s := ⟨rfl, rfl, rfl, id⟩

theorem Session.Continues.trans {a b c : Session} (h : a.Continues b) (h' : b.Continues c) : a.Continues c :=
  ⟨h'.userId.trans h.userId, h'.createdAtMs.trans h.createdAtMs, h'.assurance.trans h.assurance,
    fun hr => h'.revoked (h.revoked hr)⟩

theorem SetUserDisabled.continues (p : SetUserDisabled) (s : Session) : s.Continues (p.stop s) := by
  refine ⟨rfl, rfl, rfl, fun hs => ?_⟩
  unfold SetUserDisabled.stop
  dsimp only
  split
  · rfl
  · exact hs

structure OneTimeToken.Lasts (t t' : OneTimeToken) : Prop where
  others : t' = { t with consumedAtMs := t'.consumedAtMs }
  consumed : t.consumedAtMs.isSome → t'.consumedAtMs.isSome

theorem OneTimeToken.Lasts.refl (t : OneTimeToken) : t.Lasts t := ⟨rfl, id⟩

theorem OneTimeToken.Lasts.trans {a b c : OneTimeToken} (h : a.Lasts b) (h' : b.Lasts c) : a.Lasts c :=
  ⟨by rw [h'.others, h.others], fun hc => h'.consumed (h.consumed hc)⟩

/-- The rows of the refresh tokens are those of before, up to revocations. -/
def OnlyRevokes (db db' : Db) : Prop :=
  ∃ g : RefreshToken → RefreshToken, (∀ t, g t = { t with revokedAtMs := (g t).revokedAtMs }) ∧
    (∀ t, t.revokedAtMs.isSome → (g t).revokedAtMs.isSome) ∧ db'.refreshTokens.rows = db.refreshTokens.rows.map g

namespace OnlyRevokes

variable {db db' db₁ db₂ db₃ : Db}

theorem of_same (h : db'.refreshTokens = db.refreshTokens) : OnlyRevokes db db' :=
  ⟨id, fun _ => rfl, fun _ => id, by simp [h]⟩

theorem trans (h : OnlyRevokes db₁ db₂) (h' : OnlyRevokes db₂ db₃) : OnlyRevokes db₁ db₃ := by
  obtain ⟨g, hg, hrevoked, h⟩ := h
  obtain ⟨g', hg', hrevoked', h'⟩ := h'
  refine ⟨g' ∘ g, fun t => ?_, fun t ht => hrevoked' _ (hrevoked t ht), by rw [h', h, List.map_map]⟩
  calc g' (g t) = { g t with revokedAtMs := (g' (g t)).revokedAtMs } := hg' (g t)
    _ = { t with revokedAtMs := (g' (g t)).revokedAtMs } := by rw [hg t]

theorem revokeRefreshTokens {p : RefreshToken → Bool} {nowMs : Int} :
    OnlyRevokes db (db.revokeRefreshTokens p nowMs) := by
  refine ⟨_, fun t => ?_, fun t ht => ?_, rfl⟩ <;> dsimp only <;> split
  · rfl
  · rfl
  · rfl
  · exact ht

end OnlyRevokes

/-- What the statements without writes of their own to the credentials leave of them. -/
structure KeepsCredentials (db db' : Db) : Prop where
  sessions : db.sessions.Evolves Session.Continues db'.sessions
  refreshTokens : OnlyRevokes db db'
  oneTimeTokens : db.oneTimeTokens.Evolves OneTimeToken.Lasts db'.oneTimeTokens
  totpFactors : db'.totpFactors = db.totpFactors
  recoveryCodes : db'.recoveryCodes = db.recoveryCodes

namespace KeepsCredentials

variable {db db' db₁ db₂ db₃ : Db}

theorem of_same (hs : db'.sessions = db.sessions) (hr : db'.refreshTokens = db.refreshTokens)
    (ho : db'.oneTimeTokens = db.oneTimeTokens) (ht : db'.totpFactors = db.totpFactors)
    (hc : db'.recoveryCodes = db.recoveryCodes) : KeepsCredentials db db' :=
  ⟨.of_eq .refl hs, .of_same hr, .of_eq .refl ho, ht, hc⟩

theorem elsewhere (h : db'.accounts = db.accounts) : KeepsCredentials db db' :=
  of_same (congrArg AccountTables.sessions h) (congrArg AccountTables.refreshTokens h)
    (congrArg AccountTables.oneTimeTokens h) (congrArg AccountTables.totpFactors h)
    (congrArg AccountTables.recoveryCodes h)

theorem refl (db : Db) : KeepsCredentials db db := elsewhere rfl

theorem trans (h : KeepsCredentials db₁ db₂) (h' : KeepsCredentials db₂ db₃) : KeepsCredentials db₁ db₃ where
  sessions := h.sessions.trans .trans h'.sessions
  refreshTokens := h.refreshTokens.trans h'.refreshTokens
  oneTimeTokens := h.oneTimeTokens.trans .trans h'.oneTimeTokens
  totpFactors := h'.totpFactors.trans h.totpFactors
  recoveryCodes := h'.recoveryCodes.trans h.recoveryCodes

/-- Every shared write keeps the credentials. -/
theorem of_write (h : SharedWrite db db') : KeepsCredentials db db' := by
  cases h with
  | others ha => exact elsewhere ha
  | insertSession h => exact ⟨.insertOr .refl h, .of_same rfl, .of_eq .refl rfl, rfl, rfl⟩
  | @updateSessions p f hf h =>
    have hs : db.sessions.Evolves Session.Continues (db.sessions.update p f hf) := .update .refl fun s _ => h s
    exact ⟨hs, .of_same rfl, .of_eq .refl rfl, rfl, rfl⟩
  | revokeRefreshTokens => exact ⟨.of_eq .refl rfl, .revokeRefreshTokens, .of_eq .refl rfl, rfl, rfl⟩
  | insertOneTimeToken h => exact ⟨.of_eq .refl rfl, .of_same rfl, .insertOr .refl h, rfl, rfl⟩
  | consumeTokens =>
    refine ⟨.of_eq .refl rfl, .of_same rfl, ?_, rfl, rfl⟩
    apply Table.Evolves.update .refl
    · exact fun _ _ => ⟨rfl, fun _ => rfl⟩
    · exact fun _ => rfl
  | insertUser => exact of_same rfl rfl rfl rfl rfl
  | setUser => exact of_same rfl rfl rfl rfl rfl
  | insertMail => exact elsewhere rfl
  | setOrganization => exact elsewhere rfl
  | revise => exact elsewhere rfl

theorem of_writes (h : Writes db db') : KeepsCredentials db db' := by
  induction h with
  | refl => exact refl _
  | tail _ hwrite ih => exact ih.trans (of_write hwrite)

/-- `accept_invitation.sql` consumes the token by its row, the other statements by its hash. -/
theorem setConsumed_eq {token : OneTimeToken} {tokenHash : Bytes} (nowMs : Int)
    (h : db.oneTimeTokens.find? tokenHash = some token) (hfresh : token.consumedAtMs = none) :
    { db with oneTimeTokens := db.oneTimeTokens.set { token with consumedAtMs := some nowMs } } =
      db.consumeTokens (fun t => decide (t.tokenHash = tokenHash)) nowMs := by
  obtain ⟨hmem, rfl⟩ := Table.find?_eq_some.1 h
  have hrows : db.oneTimeTokens.set { token with consumedAtMs := some nowMs } =
      (db.consumeTokens (fun t => decide (t.tokenHash = token.tokenHash)) nowMs).oneTimeTokens := by
    refine Table.ext_rows (List.map_congr_left fun t ht => ?_)
    by_cases hk : t.tokenHash = token.tokenHash
    · simp [Table.eq_of_key ht hmem hk, hfresh]
    · simp [hk]
  rw [hrows]
  rfl

theorem acceptInvitation {p r} (h : acceptInvitation p db = .ok (r, db')) : KeepsCredentials db db' := by
  cases acceptInvitation_cases h with
  | refused => exact refl _
  | untokened => exact of_write .setInvitation
  | accepted _ _ htoken =>
    obtain ⟨htoken, hfresh⟩ := Option.filter_eq_some_iff.1 htoken
    have hsteps := of_write (@SharedWrite.consumeTokens db (fun t => decide (t.tokenHash = p.tokenHash)) p.nowMs)
    rw [← setConsumed_eq p.nowMs htoken (of_decide_eq_true hfresh).2] at hsteps
    exact (hsteps.trans (of_write .selectOrganizationIn)).trans (elsewhere rfl)

theorem removed {target : Membership} {nowMs : Int} (h : Removed target nowMs db db') : KeepsCredentials db db' := by
  obtain ⟨_, hdb⟩ := h.others
  rw [hdb]
  exact (of_write .clearUserSessions).trans (elsewhere rfl)

end KeepsCredentials

/-- The statements not named here write no table about users or their credentials. -/
theorem keepsCredentials_of_execute {db db' : Db} {c : Command} (hc : c.ownsCredentials = false)
    (h : c.execute db = .ok db') : KeepsCredentials db db' := by
  by_cases hs : c.sharesWrites = true
  · exact .of_writes (writes_of_execute hs h)
  have hframe := congrArg Db.accounts (frame_of_execute h)
  cases c <;> simp only [Command.execute, written_eq_ok] at h <;> obtain ⟨r, h⟩ := h
  case createOrganization =>
    rcases createOrganization_cases h with ⟨_, -, rfl, -⟩ | ⟨-, rfl, -⟩ | ⟨_, _, _, -, hfounded⟩
    · exact .refl _
    · exact .refl _
    · rw [hfounded.others]
      exact (KeepsCredentials.of_write .selectOrganizationIn).trans (.elsewhere rfl)
  case acceptInvitation => exact .acceptInvitation h
  case removeMembership =>
    rcases removeMembership_cases h with ⟨-, rfl⟩ | ⟨_, _, _, _, _, -, -, -, hrow⟩
    · exact .refl _
    · exact .removed hrow
  case leaveOrganization =>
    rcases leaveOrganization_cases h with ⟨-, rfl⟩ | ⟨_, _, _, _, -, -, hrow⟩
    · exact .refl _
    · exact .removed hrow
  case setUserDisabled p =>
    rcases setUserDisabled_cases h with ⟨-, rfl⟩ | ⟨_, -, -, -, -, hdb⟩
    · exact .refl _
    · rw [hdb]
      exact (KeepsCredentials.of_write (@SharedWrite.updateSessions db _ p.stop p.stop_sessionId p.continues)).trans
        (.of_same rfl rfl rfl rfl rfl)
  all_goals first | exact absurd rfl hs | exact .elsewhere hframe | cases hc

/-! ## What lasts -/

structure Session.Lasts (s s' : Session) : Prop where
  userId : s'.userId = s.userId
  revoked : s.revokedAtMs.isSome → s'.revokedAtMs.isSome

structure RefreshToken.Lasts (t t' : RefreshToken) : Prop where
  sessionId : t'.sessionId = t.sessionId
  familyId : t'.familyId = t.familyId
  rotated : t.rotatedAtMs.isSome → t' = { t with revokedAtMs := t'.revokedAtMs }
  revoked : t.revokedAtMs.isSome → t'.revokedAtMs.isSome

structure TotpFactor.Lasts (f f' : TotpFactor) : Prop where
  enabled : f.enabledAtMs.isSome → f' = { f with lastConsumedStep := f'.lastConsumedStep }
  consumed : f.enabledAtMs.isSome → ∀ last ∈ f.lastConsumedStep, ∃ last' ∈ f'.lastConsumedStep, last ≤ last'

section Rows

theorem Session.Lasts.refl (s : Session) : s.Lasts s := ⟨rfl, id⟩

theorem Session.Lasts.trans {a b c : Session} (h : a.Lasts b) (h' : b.Lasts c) : a.Lasts c :=
  ⟨h'.userId.trans h.userId, fun hr => h'.revoked (h.revoked hr)⟩

theorem Session.Continues.lasts {s s' : Session} (h : s.Continues s') : s.Lasts s' := ⟨h.userId, h.revoked⟩

theorem RefreshToken.Lasts.refl (t : RefreshToken) : t.Lasts t := ⟨rfl, rfl, fun _ => rfl, id⟩

theorem RefreshToken.Lasts.trans {a b c : RefreshToken} (h : a.Lasts b) (h' : b.Lasts c) : a.Lasts c where
  sessionId := h'.sessionId.trans h.sessionId
  familyId := h'.familyId.trans h.familyId
  rotated hr := by
    have hb := h.rotated hr
    have hc := h'.rotated (by rw [hb]; exact hr)
    rw [hc, hb]
  revoked hr := h'.revoked (h.revoked hr)

theorem TotpFactor.Lasts.refl (f : TotpFactor) : f.Lasts f := ⟨fun _ => rfl, fun _ last hl => ⟨last, hl, le_rfl⟩⟩

theorem TotpFactor.Lasts.enabledAtMs {f f' : TotpFactor} (h : f.Lasts f') (he : f.enabledAtMs.isSome) :
    f'.enabledAtMs.isSome := by
  rw [h.enabled he]
  exact he

theorem TotpFactor.Lasts.trans {a b c : TotpFactor} (h : a.Lasts b) (h' : b.Lasts c) : a.Lasts c where
  enabled he := by
    have hb := h.enabled he
    have hc := h'.enabled (h.enabledAtMs he)
    rw [hc, hb]
  consumed he last hl := by
    obtain ⟨last₁, hl₁, hle₁⟩ := h.consumed he last hl
    obtain ⟨last₂, hl₂, hle₂⟩ := h'.consumed (h.enabledAtMs he) last₁ hl₁
    exact ⟨last₂, hl₂, hle₁.trans hle₂⟩

end Rows

def Db.Enrolled (db : Db) (user : Uuid) : Prop :=
  ∃ factor, db.totpFactors.find? user = some factor ∧ factor.enabledAtMs.isSome

structure Lasting (db db' : Db) : Prop where
  sessions : db.sessions.Evolves Session.Lasts db'.sessions
  refreshTokens : db.refreshTokens.Evolves RefreshToken.Lasts db'.refreshTokens
  oneTimeTokens : db.oneTimeTokens.Evolves OneTimeToken.Lasts db'.oneTimeTokens
  totpFactors : db.totpFactors.Evolves TotpFactor.Lasts db'.totpFactors
  recoveryCodes : ∀ {user hash code}, db.Enrolled user → db.recoveryCodes.find? (user, hash) = some code →
    ∃ code', db'.recoveryCodes.find? (user, hash) = some code' ∧ (code.usedAtMs.isSome → code'.usedAtMs.isSome)

namespace Lasting

variable {db db' db₁ db₂ db₃ : Db}

/-- What keeps the credentials keeps all that lasts. -/
theorem of_keepsCredentials (h : KeepsCredentials db db') : Lasting db db' where
  sessions _ _ hs := by
    obtain ⟨s', hs', hcontinues⟩ := h.sessions hs
    exact ⟨s', hs', hcontinues.lasts⟩
  refreshTokens _ _ ht := by
    obtain ⟨g, hg, hrevoked, hrows⟩ := h.refreshTokens
    obtain ⟨hmem, hkey⟩ := Table.find?_eq_some.1 ht
    have hmem := List.mem_map_of_mem (f := g) hmem
    rw [← hrows] at hmem
    refine ⟨g _, Table.find?_eq_some.2 ⟨hmem, ?_⟩, ?_, ?_, fun _ => hg _, hrevoked _⟩ <;> rw [hg]
    exact hkey
  oneTimeTokens := h.oneTimeTokens
  totpFactors := .of_eq .refl h.totpFactors
  recoveryCodes _ hcode := ⟨_, by rw [h.recoveryCodes]; exact hcode, id⟩

theorem refl (db : Db) : Lasting db db := of_keepsCredentials (.refl _)

theorem enrolled (h : Lasting db db') {user : Uuid} (he : db.Enrolled user) : db'.Enrolled user := by
  obtain ⟨factor, hfind, henabled⟩ := he
  obtain ⟨factor', hfind', hlasts⟩ := h.totpFactors hfind
  exact ⟨factor', hfind', hlasts.enabledAtMs henabled⟩

theorem trans (h : Lasting db₁ db₂) (h' : Lasting db₂ db₃) : Lasting db₁ db₃ where
  sessions := h.sessions.trans .trans h'.sessions
  refreshTokens := h.refreshTokens.trans .trans h'.refreshTokens
  oneTimeTokens := h.oneTimeTokens.trans .trans h'.oneTimeTokens
  totpFactors := h.totpFactors.trans .trans h'.totpFactors
  recoveryCodes he hcode := by
    obtain ⟨code₂, hcode₂, hused⟩ := h.recoveryCodes he hcode
    obtain ⟨code₃, hcode₃, hused'⟩ := h'.recoveryCodes (h.enrolled he) hcode₂
    exact ⟨code₃, hcode₃, fun hu => hused' (hused hu)⟩

/-- `trans`, read from the last write back to the first. -/
theorem after (h' : Lasting db₂ db₃) (h : Lasting db₁ db₂) : Lasting db₁ db₃ := h.trans h'

theorem of_sessions {sessions : Table Session.sessionId} (h : db.sessions.Evolves Session.Lasts sessions) :
    Lasting db { db with sessions := sessions } :=
  ⟨h, .of_eq .refl rfl, .of_eq .refl rfl, .of_eq .refl rfl, fun _ hcode => ⟨_, hcode, id⟩⟩

theorem of_refreshTokens {tokens : Table RefreshToken.tokenHash}
    (h : db.refreshTokens.Evolves RefreshToken.Lasts tokens) : Lasting db { db with refreshTokens := tokens } :=
  ⟨.of_eq .refl rfl, h, .of_eq .refl rfl, .of_eq .refl rfl, fun _ hcode => ⟨_, hcode, id⟩⟩

theorem of_totpFactors {factors : Table TotpFactor.userId} (h : db.totpFactors.Evolves TotpFactor.Lasts factors) :
    Lasting db { db with totpFactors := factors } :=
  ⟨.of_eq .refl rfl, .of_eq .refl rfl, .of_eq .refl rfl, h, fun _ hcode => ⟨_, hcode, id⟩⟩

theorem of_recoveryCodes {codes : Table RecoveryCode.key}
    (h : db.recoveryCodes.Evolves (fun c c' => c.usedAtMs.isSome → c'.usedAtMs.isSome) codes) :
    Lasting db { db with recoveryCodes := codes } :=
  ⟨.of_eq .refl rfl, .of_eq .refl rfl, .of_eq .refl rfl, .of_eq .refl rfl, fun _ hcode => h hcode⟩

theorem elevateSession {sessionId : Uuid} : Lasting db (db.elevateSession sessionId) :=
  of_sessions (.update .refl fun _ _ => ⟨rfl, id⟩)

theorem startTotpEnrollment {p r} (h : startTotpEnrollment p db = .ok (r, db')) : Lasting db db' := by
  rcases startTotpEnrollment_cases h with ⟨-, rfl⟩ | ⟨_, _, -, -, ⟨_, hins, rfl⟩ | ⟨factor, hfind, hpending, rfl⟩⟩
  · exact refl _
  · exact of_totpFactors (.insertOr .refl hins)
  · refine of_totpFactors (.set .refl fun old hold => ?_)
    have hkey : factor.userId = _ := (Table.find?_eq_some.1 hfind).2
    rw [hkey, hfind] at hold
    cases hold
    exact ⟨fun he => by simp [hpending] at he, fun he => by simp [hpending] at he⟩

/-- A factor is enabled once, and the codes that are replaced then belong to no enabled factor. -/
theorem enableFactor {p : ConfirmTotpEnrollment} {user : Uuid} (h : db.enableFactor p user = .ok db') :
    Lasting db db' := by
  rcases enableFactor_cases h with ⟨-, rfl⟩ | ⟨factor, codes, hfind, -, hpending, hcodes, rfl⟩
  · exact refl _
  · refine ⟨.of_eq .refl rfl, .of_eq .refl rfl, .of_eq .refl rfl, .set .refl fun old hold => ?_, ?_⟩
    · have hkey : factor.userId = user := (Table.find?_eq_some.1 hfind).2
      rw [hkey, hfind] at hold
      cases hold
      exact ⟨fun he => by simp [hpending] at he, fun he => by simp [hpending] at he⟩
    · rintro other hash code ⟨factor', hfind', henabled⟩ hcode
      have hne : other ≠ user := by
        rintro rfl
        rw [hfind] at hfind'
        cases hfind'
        simp [hpending] at henabled
      obtain ⟨hmem, hkey⟩ := Table.find?_eq_some.1 hcode
      refine ⟨code, Table.find?_eq_some.2 ⟨?_, hkey⟩, id⟩
      refine (Table.mem_of_insertAllOr hcodes).2 (.inl (Table.mem_delete.2 ⟨hmem, ?_⟩))
      have huser : code.userId = other := congrArg Prod.fst hkey
      simpa [huser] using hne

theorem confirmTotpEnrollment {p r} (h : confirmTotpEnrollment p db = .ok (r, db')) : Lasting db db' := by
  rcases confirmTotpEnrollment_cases h with ⟨-, -, rfl⟩ | ⟨_, _, db₁, -, -, henable, rfl⟩
  · exact refl _
  · exact (enableFactor henable).trans elevateSession

theorem verifyTotpStepUp {p r} (h : verifyTotpStepUp p db = .ok (r, db')) : Lasting db db' := by
  rcases verifyTotpStepUp_cases h with ⟨-, rfl⟩ | ⟨_, _, factor, -, -, hfind, -, -, hlast, rfl⟩
  · exact refl _
  · refine trans (of_totpFactors (.set .refl fun old hold => ?_)) elevateSession
    have hkey : factor.userId = _ := (Table.find?_eq_some.1 hfind).2
    rw [hkey, hfind] at hold
    cases hold
    exact ⟨fun _ => rfl, fun _ last hl => ⟨p.step, rfl, (hlast last hl).le⟩⟩

theorem useRecoveryCode {p r} (h : useRecoveryCode p db = .ok (r, db')) : Lasting db db' := by
  rcases useRecoveryCode_cases h with ⟨-, rfl⟩ | ⟨_, user, code, -, -, hfind, -, rfl⟩
  · exact refl _
  · exact trans (of_recoveryCodes (.set (fun _ => id) fun _ _ _ => rfl)) elevateSession

theorem rotateRefreshToken {p r} (h : rotateRefreshToken p db = .ok (r, db')) : Lasting db db' := by
  cases rotateRefreshToken_cases h with
  | invalid => exact refl _
  | rotated hc _ hunrotated hins =>
    refine trans (of_refreshTokens (.trans .trans (.set .refl fun old hold => ?_) (.insertOr .refl hins)))
      (of_sessions (.update .refl fun _ _ => ⟨rfl, id⟩))
    have hkey := (Table.find?_eq_some.1 hc.findToken).2
    have hfind : db.refreshTokens.find? p.tokenHash = some old := hkey ▸ hold
    rw [hc.findToken] at hfind
    cases hfind
    exact ⟨rfl, rfl, fun hr => by simp [hunrotated] at hr, id⟩
  | replayed => exact refl _
  | reuse => exact of_keepsCredentials (.of_writes .revokeFamily)

/-- No statement takes back what lasts. -/
theorem of_execute {c : Command} (h : c.execute db = .ok db') : Lasting db db' := by
  cases hc : c.ownsCredentials with
  | false => exact of_keepsCredentials (keepsCredentials_of_execute hc h)
  | true =>
    cases c <;> simp only [Command.execute, written_eq_ok] at h <;> obtain ⟨r, h⟩ := h
    case startTotpEnrollment => exact startTotpEnrollment h
    case confirmTotpEnrollment => exact confirmTotpEnrollment h
    case verifyTotpStepUp => exact verifyTotpStepUp h
    case useRecoveryCode => exact useRecoveryCode h
    case completePasskeyRegistration =>
      rcases completePasskeyRegistration_cases h with ⟨-, rfl | ⟨_, -, rfl⟩⟩ | ⟨_, _, _, _, -, -, -, -, rfl⟩
      · exact refl _
      · exact of_keepsCredentials (.elsewhere rfl)
      · exact elevateSession.after (of_keepsCredentials (.of_same rfl rfl rfl rfl rfl))
    case completePasskeyAuthentication =>
      rcases completePasskeyAuthentication_cases h with
        ⟨-, rfl⟩ | ⟨flow, -, -, ⟨-, rfl⟩ | ⟨_, -, -, ⟨-, rfl, -⟩ | ⟨_, -, -, -, hins⟩⟩⟩
      · exact refl _
      · exact of_keepsCredentials (.elsewhere rfl)
      · exact of_keepsCredentials (.of_same rfl rfl rfl rfl rfl)
      · obtain ⟨_, hsession, rfl⟩ := insertSession_eq_ok hins
        exact after (of_sessions (.insertOr .refl hsession)) (of_keepsCredentials (.of_same rfl rfl rfl rfl rfl))
    case issueTokenPair =>
      rcases issueTokenPair_cases h with ⟨-, rfl⟩ | ⟨_, _, _, -, -, hins, rfl⟩
      · exact refl _
      · exact of_refreshTokens (.insertOr .refl hins)
    case rotateRefreshToken => exact rotateRefreshToken h
    all_goals cases hc

theorem of_next {c : Command} (h : postgres.next db c = some db') : Lasting db db' := by
  rcases step_cases h with h | rfl
  · exact of_execute h
  · exact refl _

theorem of_run {ok : Db → Command → Prop} (h : Transition.Steps postgres ok db db') : Lasting db db' :=
  h.relation (I := fun _ => True) refl trans (fun _ _ _ => trivial) (fun _ _ hn => of_next hn) trivial

end Lasting

end WasiAuth
