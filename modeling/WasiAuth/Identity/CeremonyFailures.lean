import WasiAuth.Identity.Ceremonies
import WasiAuth.Identity.Workflows

/-! # What a failed ceremony leaves

A registration that fails has written nothing but the flow. An OAuth login links the identity before it looks at
the status of the account, and a passkey login records the use of the credential before it does, so both write
for an account that gets no session (`pending_account_is_linked`); and a passkey login compares the email with
the flow's only after the session was created. `failed_ceremonies_change_nothing_iff` says exactly when a failure
leaves everything but the flow as it was.
-/

namespace WasiAuth

open Relational Transition

/-- Nothing but flows has changed. -/
def SameButFlows (db db' : Db) : Prop := db' = { db with flows := db'.flows }

def Failed {ε γ : Type} (result : Except ε γ × Db) : Prop := ∃ e, result.1 = .error e

/-- Whenever the row of a statement becomes an error, the statement has written only flows. -/
def FailsCleanly {ε ρ γ : Type} (statement : Db → Except SqlError (ρ × Db)) (respond : ρ → Except ε γ)
    (db : Db) : Prop :=
  ∀ r db', statement db = .ok (r, db') → (∃ e, respond r = .error e) → SameButFlows db db'

section Keeps

variable {db db' : Db}

theorem SameButFlows.refl (db : Db) : SameButFlows db db := rfl

theorem SameButFlows.externalIdentities (h : SameButFlows db db') : db'.externalIdentities = db.externalIdentities := by
  rw [h]

theorem SameButFlows.passkeys (h : SameButFlows db db') : db'.passkeys = db.passkeys := by rw [h]

theorem SameButFlows.sessions (h : SameButFlows db db') : db'.sessions = db.sessions := by rw [h]

theorem SameButFlows.consumeFlow {flow : Flow} {nowMs : Int} : SameButFlows db (db.consumeFlow flow nowMs) := rfl

theorem perform_iff {ε α ρ γ : Type} {prepared : Except ε α} {statement : α → Db → Except SqlError (ρ × Db)}
    {transport : ε} {respond : α → Db → ρ → Except ε γ} {Settled : α → Prop}
    (h : ∀ p, prepared = .ok p → (FailsCleanly (statement p) (respond p db) db ↔ Settled p)) :
    (Failed (perform prepared statement transport respond db) →
        SameButFlows db (perform prepared statement transport respond db).2) ↔
      ∀ p, prepared = .ok p → Settled p := by
  cases prepared with
  | error e => exact ⟨fun _ p hp => (by cases hp), fun _ _ => .refl db⟩
  | ok p =>
    have hp := h p rfl
    constructor
    · rintro hkeeps _ ⟨⟩
      refine hp.1 fun r db' hstatement hfailed => ?_
      simpa only [perform, hstatement] using hkeeps (by simpa only [Failed, perform, hstatement] using hfailed)
    · intro hsettled hfailed
      cases hstatement : statement p db with
      | error e => simpa only [perform, hstatement] using SameButFlows.refl db
      | ok result =>
        obtain ⟨r, db'⟩ := result
        simp only [Failed, perform, hstatement] at hfailed ⊢
        exact hp.2 (hsettled p rfl) r db' hstatement hfailed

theorem completion?_eq_some (sessionId userId : Uuid) (primaryEmail redirectPath : String) {expiresAtMs : Int}
    (h : 0 ≤ expiresAtMs) :
    ∃ c, completion? sessionId userId primaryEmail expiresAtMs redirectPath = some c ∧
      c.primaryEmail = primaryEmail := by
  obtain ⟨id, hid⟩ := new_text sessionId
  simp only [completion?, hid, if_neg (not_lt.2 h)]
  exact ⟨_, rfl, rfl⟩

theorem expiryMs_nonneg (nowUnixSeconds ttlMs : Nat) : 0 ≤ expiryMs nowUnixSeconds ttlMs := by
  simp only [expiryMs, u64ToI64]
  omega

theorem unixMs_nonneg (nowUnixSeconds : Nat) : 0 ≤ unixMs nowUnixSeconds := by
  simp only [unixMs]
  omega

theorem sessions_ne_of_insertSession {s : Session} (h : db.insertSession s = .ok db') : db'.sessions ≠ db.sessions := by
  obtain ⟨sessions, hins, h⟩ := bind_eq_ok.1 h
  cases h
  intro hsame
  have hrows := (Table.insertOr_eq_ok hins).2
  rw [show sessions = db.sessions from hsame] at hrows
  simp at hrows

end Keeps

/-! ## OAuth -/

/-- `auth_external_identities.user_id REFERENCES auth_users`. -/
def Db.IdentitiesOwned (db : Db) : Prop :=
  ∀ identity ∈ db.externalIdentities, ∃ user, db.users.find? identity.userId = some user

/-- The account a completion finds: the linked one, else the one with the email. -/
def CompleteOauthIdentity.account (p : CompleteOauthIdentity) (db : Db) : Option User :=
  match (db.externalIdentities.find? (p.providerId, p.providerSubject)).bind fun i => db.users.find? i.userId with
  | some user => some user
  | none => p.email.bind fun (normalized, _) => db.userByEmail normalized

/-- If the flow is good, the account that is found is active, or its identity is already the row that would be
written. -/
def CompleteOauthIdentity.Settled (p : CompleteOauthIdentity) (db : Db) : Prop :=
  ∀ flow user, db.flowCandidate p.flowId p.verifierHash .oauth p.nowMs = some flow → p.account db = some user →
    user.status = .active ∨
      db.externalIdentities.find? (p.providerId, p.providerSubject) = some (p.identity user.userId)

section OAuth

variable {p : CompleteOauthIdentity} {db db' : Db} {user : User}

theorem resolveOauthUser_of_account (h : p.account db = some user) : db.resolveOauthUser p = .ok (some user, db) := by
  unfold CompleteOauthIdentity.account at h
  unfold Db.resolveOauthUser
  cases hlinked : (db.externalIdentities.find? (p.providerId, p.providerSubject)).bind
      fun i => db.users.find? i.userId with
  | some linked =>
    rw [hlinked] at h
    cases h
    rfl
  | none =>
    rw [hlinked] at h
    obtain ⟨⟨normalized, primary⟩, hemail, hfind⟩ := Option.bind_eq_some_iff.1 h
    simp only [hemail, hfind]

theorem resolveOauthUser_of_no_account {user? : Option User} (h : p.account db = none)
    (hr : db.resolveOauthUser p = .ok (user?, db')) : user? = none ∧ db' = db ∨
      ∃ user, user? = some user ∧ user.status = .active ∧ db'.externalIdentities = db.externalIdentities := by
  unfold CompleteOauthIdentity.account at h
  unfold Db.resolveOauthUser at hr
  split at h
  · cases h
  · rename_i hnone
    simp only [hnone] at hr
    cases hemail : p.email with
    | none =>
      simp only [hemail] at hr
      cases hr
      exact .inl ⟨rfl, rfl⟩
    | some email =>
      have hby : db.userByEmail email.1 = none := by simpa [hemail] using h
      simp only [hemail, hby] at hr
      obtain ⟨users, -, hr⟩ := bind_eq_ok.1 hr
      cases hr
      exact .inr ⟨_, rfl, rfl, rfl⟩

theorem userId_of_account (hfk : db.IdentitiesOwned) {identity : ExternalIdentity}
    (hi : db.externalIdentities.find? (p.providerId, p.providerSubject) = some identity) :
    ∃ user, p.account db = some user ∧ identity.userId = user.userId := by
  obtain ⟨user, hfind⟩ := hfk identity (Table.find?_eq_some.1 hi).1
  refine ⟨user, ?_, (Table.find?_eq_some.1 hfind).2.symm⟩
  simp only [CompleteOauthIdentity.account, hi, Option.bind_some, hfind]

/-- The identity is written in any case, whatever the account's status; the table stays as it was only if the row
was there already. -/
theorem linkIdentity_of_account (hfk : db.IdentitiesOwned) (h : p.account db = some user) :
    ∃ identities, db.linkIdentity p user = .ok (true, { db with externalIdentities := identities }) ∧
      (identities = db.externalIdentities ↔
        db.externalIdentities.find? (p.providerId, p.providerSubject) = some (p.identity user.userId)) := by
  unfold Db.linkIdentity
  cases hi : db.externalIdentities.find? (p.providerId, p.providerSubject) with
  | some identity =>
    obtain ⟨user', huser, hid⟩ := userId_of_account hfk hi
    rw [h] at huser
    cases huser
    have hset : (db.externalIdentities.set (p.identity user.userId)).find? (p.identity user.userId).key =
        some (p.identity user.userId) := Table.find?_set_self hi
    refine ⟨db.externalIdentities.set (p.identity user.userId), by simp only [hid, if_true], fun hsame => ?_,
      fun hrow => ?_⟩
    · rw [hsame] at hset
      exact hi.symm.trans hset
    · cases hrow
      exact Table.set_eq_self hi
  | none =>
    obtain ⟨identities, hins⟩ := Table.exists_insertOr (e := SqlError.uniqueViolation) (r := p.identity user.userId) hi
    refine ⟨identities, by simp only [hins]; rfl, fun hsame => ?_, fun hrow => by cases hrow⟩
    have hrows := (Table.insertOr_eq_ok hins).2
    rw [hsame] at hrows
    simp at hrows

theorem completeOauthIdentity_of_inactive {flow : Flow} (hfk : db.IdentitiesOwned)
    (hflow : db.flowCandidate p.flowId p.verifierHash .oauth p.nowMs = some flow) (h : p.account db = some user)
    (hinactive : user.status ≠ .active) : ∃ identities,
      completeOauthIdentity p db =
          .ok (some .unavailable, { db.consumeFlow flow p.nowMs with externalIdentities := identities }) ∧
        (identities = db.externalIdentities ↔
          db.externalIdentities.find? (p.providerId, p.providerSubject) = some (p.identity user.userId)) := by
  have hconsumed : p.account (db.consumeFlow flow p.nowMs) = some user := h
  obtain ⟨identities, hlink, hsame⟩ := @linkIdentity_of_account p (db.consumeFlow flow p.nowMs) user hfk hconsumed
  refine ⟨identities, ?_, hsame⟩
  simp [completeOauthIdentity, hflow, resolveOauthUser_of_account hconsumed, hlink, ok_bind, hinactive, pure,
    Except.pure]

/-- A user that has been resolved and is active gets a session when the statement succeeds. -/
theorem completed_of_active {r : Option LoginOutcome} {db₁ : Db} (hactive : user.status = .active)
    (hlinked : ∀ {linked db₂}, db₁.linkIdentity p user = .ok (linked, db₂) → linked = true)
    (h : (do
      let (linked, db) ← db₁.linkIdentity p user
      if linked ∧ user.status = .active then
        let db ← db.insertSession
          (Db.newSession p.sessionId user.userId .aal1 user.securityRevision p.expiresAtMs p.nowMs)
        pure (some (.completed p.sessionId user.userId user.primaryEmail p.expiresAtMs), db)
      else pure (some .unavailable, db) : Except SqlError (Option LoginOutcome × Db)) = .ok (r, db')) :
    r = some (.completed p.sessionId user.userId user.primaryEmail p.expiresAtMs) := by
  obtain ⟨⟨linked, db₂⟩, hlink, h⟩ := bind_eq_ok.1 h
  obtain rfl := hlinked hlink
  dsimp only at h
  rw [if_pos ⟨rfl, hactive⟩] at h
  obtain ⟨_, -, h⟩ := bind_eq_ok.1 h
  cases h
  rfl

theorem completeOauthIdentity_of_active {r : Option LoginOutcome} (hfk : db.IdentitiesOwned)
    (hactive : ∀ flow user, db.flowCandidate p.flowId p.verifierHash .oauth p.nowMs = some flow →
      p.account db = some user → user.status = .active)
    (h : completeOauthIdentity p db = .ok (r, db')) :
    (∃ userId primaryEmail, r = some (.completed p.sessionId userId primaryEmail p.expiresAtMs)) ∨
      SameButFlows db db' := by
  unfold completeOauthIdentity at h
  split at h
  · cases h
    exact .inr (.refl db)
  rename_i flow hflow
  obtain ⟨⟨user?, db₁⟩, hresolve, h⟩ := bind_eq_ok.1 h
  cases haccount : p.account db with
  | some user =>
    have hconsumed : p.account (db.consumeFlow flow p.nowMs) = some user := haccount
    rw [resolveOauthUser_of_account hconsumed] at hresolve
    cases hresolve
    refine .inl ⟨_, _, completed_of_active (hactive flow user hflow haccount) (fun hlink => ?_) h⟩
    obtain ⟨_, hlink', -⟩ := @linkIdentity_of_account p (db.consumeFlow flow p.nowMs) user hfk hconsumed
    rw [hlink'] at hlink
    cases hlink
    rfl
  | none =>
    have hconsumed : p.account (db.consumeFlow flow p.nowMs) = none := haccount
    rcases resolveOauthUser_of_no_account hconsumed hresolve with ⟨rfl, rfl⟩ | ⟨user, rfl, huser, hidentities⟩
    · cases h
      exact .inr .consumeFlow
    · -- a new user: by the foreign key there is no identity yet, so that one is inserted
      refine .inl ⟨_, _, completed_of_active huser (fun hlink => ?_) h⟩
      have hnone : db₁.externalIdentities.find? (p.providerId, p.providerSubject) = none := by
        rw [hidentities]
        cases hi : db.externalIdentities.find? (p.providerId, p.providerSubject) with
        | none => exact hi
        | some identity =>
          obtain ⟨_, hsome, -⟩ := userId_of_account hfk hi
          rw [haccount] at hsome
          cases hsome
      simp only [Db.linkIdentity, hnone] at hlink
      obtain ⟨_, -, hlink⟩ := bind_eq_ok.1 hlink
      cases hlink
      rfl

theorem oauth_iff (hfk : db.IdentitiesOwned) (hexpiry : 0 ≤ p.expiresAtMs) (path : String) :
    FailsCleanly (completeOauthIdentity p) (OAuthFlowService.respond path) db ↔ p.Settled db := by
  by_cases hactive : ∀ flow user, db.flowCandidate p.flowId p.verifierHash .oauth p.nowMs = some flow →
      p.account db = some user → user.status = .active
  · refine iff_of_true (fun r db' hstatement hfailed => ?_)
      fun flow user hflow haccount => .inl (hactive flow user hflow haccount)
    rcases completeOauthIdentity_of_active hfk hactive hstatement with ⟨userId, primaryEmail, rfl⟩ | hsame
    · obtain ⟨e, he⟩ := hfailed
      obtain ⟨c, hc, -⟩ := completion?_eq_some p.sessionId userId primaryEmail path hexpiry
      simp [OAuthFlowService.respond, hc, okOr] at he
    · exact hsame
  · simp only [not_forall] at hactive
    obtain ⟨flow, user, hflow, haccount, hinactive⟩ := hactive
    obtain ⟨identities, hstatement, hsame⟩ := completeOauthIdentity_of_inactive hfk hflow haccount hinactive
    constructor
    · rintro h flow' user' - haccount'
      rw [haccount] at haccount'
      cases haccount'
      exact .inr (hsame.1 (h _ _ hstatement ⟨_, rfl⟩).externalIdentities)
    · intro hsettled r db' hstatement' _
      rw [hstatement] at hstatement'
      cases hstatement'
      obtain rfl := hsame.2 ((hsettled flow user hflow haccount).resolve_left hinactive)
      exact .consumeFlow

end OAuth

/-! ## Passkeys -/

namespace CompletePasskeyAuthentication

variable (p : CompletePasskeyAuthentication)

/-- `candidate`: the flow the statement consumes. -/
def flow? (db : Db) : Option Flow :=
  (db.flowCandidate p.flowId p.verifierHash .webauthnAuthentication p.nowMs).filter fun f =>
    decide (f.userId = some p.userId)

/-- The credential that is updated: the counter is still the one that was loaded. -/
def passkey? (db : Db) : Option Passkey :=
  (db.passkeys.find? p.credentialId).filter fun k => decide (k.userId = p.userId ∧ k.signCount = p.previousSignCount)

/-- The passkey as the statement leaves it. -/
def used (passkey : Passkey) : Passkey :=
  { passkey with
    publicKeyCose := p.publicKeyCose, signCount := p.signCount, transports := p.transports
    lastUsedAtMs := some p.nowMs }

def activeUser? (db : Db) : Option User := (db.users.find? p.userId).filter fun u => decide (u.status = .active)

/-- If the flow and the credential are good: an active user has the email of the flow, unless the new session's
identifier is taken and the statement fails; without one, the credential is already the row that would be
written. -/
def Settled (email : String) (db : Db) : Prop :=
  ∀ flow passkey, p.flow? db = some flow → p.passkey? db = some passkey →
    match p.activeUser? db with
    | some user => user.primaryEmail = email ∨ (db.sessions.find? p.sessionId).isSome
    | none => p.used passkey = passkey

end CompletePasskeyAuthentication

section Passkeys

variable {db db' : Db}

theorem registration_keeps {prepared : String × CompletePasskeyRegistration} {r : Option PasskeyRegistrationOutcome}
    (hnow : 0 ≤ prepared.2.nowMs) (h : completePasskeyRegistration prepared.2 db = .ok (r, db'))
    (hfailed : ∃ e, PasskeyService.respondRegistration prepared db r = .error e) : SameButFlows db db' := by
  rcases completePasskeyRegistration_cases h with
    ⟨-, rfl | ⟨flow, -, rfl⟩⟩ | ⟨session, user, flow, passkeys, -, rfl, hlive, -, -⟩
  · exact .refl _
  · exact .consumeFlow
  · -- a live session expires after now, so its row is always read
    obtain ⟨-, -, -, hexpires, -⟩ := Db.liveSession_eq_some.1 hlive
    obtain ⟨c, hc, -⟩ := completion?_eq_some session.sessionId user.userId user.primaryEmail prepared.1
      (hnow.trans hexpires.le)
    obtain ⟨e, he⟩ := hfailed
    simp [PasskeyService.respondRegistration, hlive, hc, okOr] at he

variable {p : CompletePasskeyAuthentication} {email path : String} {flow : Flow} {passkey : Passkey}

/-- The database after `updated_credential`. -/
def CompletePasskeyAuthentication.recordUse (p : CompletePasskeyAuthentication) (flow : Flow) (passkey : Passkey)
    (db : Db) : Db :=
  { db.consumeFlow flow p.nowMs with passkeys := db.passkeys.set (p.used passkey) }

theorem completePasskeyAuthentication_eq (hflow : p.flow? db = some flow) (hpasskey : p.passkey? db = some passkey) :
    completePasskeyAuthentication p db =
      (match p.activeUser? db with
      | none => .ok (none, p.recordUse flow passkey db)
      | some user => do
        let db ← (p.recordUse flow passkey db).insertSession
          (Db.newSession p.sessionId user.userId .aal2 user.securityRevision p.expiresAtMs p.nowMs)
        pure (some (.authenticated p.sessionId user.userId user.primaryEmail p.expiresAtMs), db)) := by
  unfold CompletePasskeyAuthentication.flow? at hflow
  have hpasskey' : ((db.consumeFlow flow p.nowMs).passkeys.find? p.credentialId).filter
      (fun k => decide (k.userId = p.userId ∧ k.signCount = p.previousSignCount)) = some passkey := hpasskey
  simp only [completePasskeyAuthentication, hflow, hpasskey']
  rfl

theorem recordUse_same (hpasskey : p.passkey? db = some passkey) :
    SameButFlows db (p.recordUse flow passkey db) ↔ p.used passkey = passkey := by
  have hfind : db.passkeys.find? (p.used passkey).credentialId = some passkey := by
    obtain ⟨hfind, -⟩ := Option.filter_eq_some_iff.1 hpasskey
    rwa [show (p.used passkey).credentialId = p.credentialId from (Table.find?_eq_some.1 hfind).2]
  constructor
  · intro h
    have hset := Table.find?_set_self hfind
    have hsame : db.passkeys.set (p.used passkey) = db.passkeys := h.passkeys
    rw [hsame, hfind] at hset
    exact (Option.some.inj hset).symm
  · intro hused
    have hsame : db.passkeys.set (p.used passkey) = db.passkeys := Table.set_eq_self (by rw [hfind, hused])
    unfold CompletePasskeyAuthentication.recordUse
    rw [hsame]
    exact .consumeFlow

theorem respond_authenticated {sessionId userId : Uuid} {primaryEmail : String} {expiresAtMs : Int}
    (hexpiry : 0 ≤ expiresAtMs) :
    (∃ e, PasskeyService.respondAuthentication (email, path, p)
      (some (.authenticated sessionId userId primaryEmail expiresAtMs)) = .error e) ↔ primaryEmail ≠ email := by
  obtain ⟨c, hc, hemail⟩ := completion?_eq_some sessionId userId primaryEmail path hexpiry
  simp only [PasskeyService.respondAuthentication, hc, okOr, ok_bind, hemail]
  by_cases hne : primaryEmail = email <;> simp [hne, pure, Except.pure]

theorem authentication_keeps {r : Option PasskeyAuthenticationOutcome}
    (hnone : ∀ flow passkey, p.flow? db = some flow → p.passkey? db ≠ some passkey)
    (h : completePasskeyAuthentication p db = .ok (r, db')) : SameButFlows db db' := by
  unfold completePasskeyAuthentication at h
  split at h
  · cases h
    exact .refl db
  · rename_i flow hflow
    dsimp only at h
    split at h
    · cases h
      exact .consumeFlow
    · rename_i passkey hpasskey
      exact absurd hpasskey (hnone flow passkey hflow)

/-- What a failure leaves when the statement runs through, for a user who gets no session and for one who does. -/
theorem inactive_iff (hflow : p.flow? db = some flow) (hpasskey : p.passkey? db = some passkey)
    (huser : p.activeUser? db = none) :
    FailsCleanly (completePasskeyAuthentication p) (PasskeyService.respondAuthentication (email, path, p)) db ↔
      p.used passkey = passkey := by
  have hstatement := completePasskeyAuthentication_eq hflow hpasskey
  rw [huser] at hstatement
  rw [← @recordUse_same db p flow passkey hpasskey]
  constructor
  · intro h
    exact h _ _ hstatement ⟨_, rfl⟩
  · intro hsame r db' h _
    rw [hstatement] at h
    cases h
    exact hsame

theorem active_iff {user : User} (hexpiry : 0 ≤ p.expiresAtMs) (hflow : p.flow? db = some flow)
    (hpasskey : p.passkey? db = some passkey) (huser : p.activeUser? db = some user) :
    FailsCleanly (completePasskeyAuthentication p) (PasskeyService.respondAuthentication (email, path, p)) db ↔
      user.primaryEmail = email ∨ (db.sessions.find? p.sessionId).isSome := by
  have hstatement := completePasskeyAuthentication_eq hflow hpasskey
  rw [huser] at hstatement
  constructor
  · intro h
    by_contra hnot
    obtain ⟨hemail, htaken⟩ := not_or.1 hnot
    -- the session is created, and the email is found wrong afterwards
    obtain ⟨sessions, hins⟩ := Table.exists_insertOr (e := SqlError.uniqueViolation)
      (r := Db.newSession p.sessionId user.userId .aal2 user.securityRevision p.expiresAtMs p.nowMs)
      (Option.not_isSome_iff_eq_none.1 htaken)
    have hsession : (p.recordUse flow passkey db).insertSession
        (Db.newSession p.sessionId user.userId .aal2 user.securityRevision p.expiresAtMs p.nowMs) =
          .ok { p.recordUse flow passkey db with sessions := sessions } := bind_eq_ok.2 ⟨sessions, hins, rfl⟩
    have hfailed := (@respond_authenticated p email path p.sessionId user.userId user.primaryEmail _ hexpiry).2 hemail
    have hsame := h _ _ (hstatement.trans (bind_eq_ok.2 ⟨_, hsession, rfl⟩)) hfailed
    exact sessions_ne_of_insertSession hsession hsame.sessions
  · intro hcond r db' h hfailed
    rw [hstatement] at h
    obtain ⟨db₁, hsession, h⟩ := bind_eq_ok.1 h
    cases h
    rcases hcond with hemail | htaken
    · exact absurd hemail ((respond_authenticated hexpiry).1 hfailed)
    · obtain ⟨sessions, hins, -⟩ := bind_eq_ok.1 hsession
      have hfree : db.sessions.find? p.sessionId = none := (Table.insertOr_eq_ok hins).1
      rw [hfree] at htaken
      cases htaken

theorem authentication_iff (hexpiry : 0 ≤ p.expiresAtMs) :
    FailsCleanly (completePasskeyAuthentication p) (PasskeyService.respondAuthentication (email, path, p)) db ↔
      p.Settled email db := by
  by_cases hboth : ∃ flow passkey, p.flow? db = some flow ∧ p.passkey? db = some passkey
  · obtain ⟨flow, passkey, hflow, hpasskey⟩ := hboth
    have hsettled : p.Settled email db ↔ match p.activeUser? db with
        | some user => user.primaryEmail = email ∨ (db.sessions.find? p.sessionId).isSome
        | none => p.used passkey = passkey := by
      refine ⟨fun h => h flow passkey hflow hpasskey, fun h flow' passkey' _ hpasskey' => ?_⟩
      rw [hpasskey] at hpasskey'
      cases hpasskey'
      exact h
    rw [hsettled]
    cases huser : p.activeUser? db with
    | none => exact inactive_iff hflow hpasskey huser
    | some user => exact active_iff hexpiry hflow hpasskey huser
  · have hnone : ∀ flow passkey, p.flow? db = some flow → p.passkey? db ≠ some passkey :=
      fun flow passkey hflow hpasskey => hboth ⟨flow, passkey, hflow, hpasskey⟩
    exact iff_of_true (fun r db' h _ => authentication_keeps hnone h)
      fun flow passkey hflow hpasskey => absurd hpasskey (hnone flow passkey hflow)

end Passkeys

/-! ## The three ceremonies -/

theorem OAuthFlowService.expiresAtMs_of_prepare {service : OAuthFlowService} {pending : PendingOAuthFlow}
    {identity : VerifiedOAuthIdentity} {nowUnixSeconds : Nat} {draws : OAuthDraws} {p : CompleteOauthIdentity}
    (h : service.prepare pending identity nowUnixSeconds draws = .ok p) : 0 ≤ p.expiresAtMs := by
  unfold prepare at h
  split at h
  · cases h
  · simp only [bind_eq_ok] at h
    obtain ⟨email, -, profile, -, h⟩ := h
    split at h
    · cases h
    · simp only [bind_eq_ok] at h
      obtain ⟨userId, -, sessionId, -, _, -, h⟩ := h
      cases h
      exact expiryMs_nonneg _ _

theorem PasskeyService.nowMs_of_prepareRegistration {service : PasskeyService} {request : RegistrationRequest}
    {sessionSeen flowSeen : Reading} {nowUnixSeconds : Nat} {auditId : Option (BitVec 80)}
    {prepared : String × CompletePasskeyRegistration}
    (h : service.prepareRegistration request sessionSeen flowSeen nowUnixSeconds auditId = .ok prepared) :
    0 ≤ prepared.2.nowMs := by
  unfold prepareRegistration at h
  obtain ⟨_, -, h⟩ := bind_eq_ok.1 h
  split at h
  · cases h
  · simp only [bind_eq_ok] at h
    obtain ⟨session, -, ⟨flow, payload⟩, -, h⟩ := h
    split at h
    · cases h
    · split at h
      · cases h
      · simp only [bind_eq_ok] at h
        obtain ⟨_, -, _, -, _, -, _, -, _, -, h⟩ := h
        cases h
        exact unixMs_nonneg _

theorem PasskeyService.expiresAtMs_of_prepareAuthentication {service : PasskeyService} {request : AuthenticationRequest}
    {flowSeen credentialSeen : Reading} {nowUnixSeconds : Nat} {draws : AuthenticationDraws}
    {prepared : String × String × CompletePasskeyAuthentication}
    (h : service.prepareAuthentication request flowSeen credentialSeen nowUnixSeconds draws = .ok prepared) :
    0 ≤ prepared.2.2.expiresAtMs := by
  unfold prepareAuthentication at h
  simp only [bind_eq_ok] at h
  obtain ⟨_, -, ⟨flow, payload⟩, -, h⟩ := h
  split at h
  · cases h
  · split at h
    · cases h
    · simp only [bind_eq_ok] at h
      obtain ⟨_, -, _, -, ⟨credential, counter⟩, -, _, -, _, -, _, -, _, -, _, -, h⟩ := h
      cases h
      exact expiryMs_nonneg _ _

/-- **Failed ceremonies.** A registration that fails has changed nothing but the flow. A failed OAuth completion or
passkey authentication has changed nothing else exactly when what it found was settled. -/
theorem failed_ceremonies_change_nothing_iff {db : Db} (hfk : db.IdentitiesOwned) :
    (∀ (service : OAuthFlowService) pending identity nowUnixSeconds draws,
      (Failed (service.complete pending identity nowUnixSeconds draws db) →
          SameButFlows db (service.complete pending identity nowUnixSeconds draws db).2) ↔
        ∀ p, service.prepare pending identity nowUnixSeconds draws = .ok p → p.Settled db) ∧
    (∀ (service : PasskeyService) request sessionSeen flowSeen nowUnixSeconds auditId,
      Failed (service.finishRegistration request sessionSeen flowSeen nowUnixSeconds auditId db) →
        SameButFlows db (service.finishRegistration request sessionSeen flowSeen nowUnixSeconds auditId db).2) ∧
    ∀ (service : PasskeyService) request flowSeen credentialSeen nowUnixSeconds draws,
      (Failed (service.finishAuthentication request flowSeen credentialSeen nowUnixSeconds draws db) →
          SameButFlows db (service.finishAuthentication request flowSeen credentialSeen nowUnixSeconds draws db).2) ↔
        ∀ prepared, service.prepareAuthentication request flowSeen credentialSeen nowUnixSeconds draws = .ok prepared →
          prepared.2.2.Settled prepared.1 db := by
  refine ⟨fun service pending identity nowUnixSeconds draws => ?_,
    fun service request sessionSeen flowSeen nowUnixSeconds auditId => ?_,
    fun service request flowSeen credentialSeen nowUnixSeconds draws => ?_⟩
  · exact perform_iff fun p hp => oauth_iff hfk (OAuthFlowService.expiresAtMs_of_prepare hp) _
  · refine (perform_iff fun p hp => iff_of_true (fun r db' h hfailed => ?_) trivial).2 fun _ _ => trivial
    exact registration_keeps (PasskeyService.nowMs_of_prepareRegistration hp) h hfailed
  · exact perform_iff fun ⟨_, _, _⟩ hp => authentication_iff (PasskeyService.expiresAtMs_of_prepareAuthentication hp)

/-! ## Two logins -/

def sampleOauth : OAuthFlowService := ⟨fun _ => some [], 300, shortestSessionTtl⟩

def sampleFlow (id : Uuid) (verifierHash : Bytes) : Command :=
  .createAuthFlow ⟨id, .oauth, none, verifierHash, "v1", [], 1000000, none⟩

def samplePending (id : Uuid) (verifierHash : Bytes) : PendingOAuthFlow :=
  ⟨⟨id, none, verifierHash, []⟩, "provider", "/"⟩

/-- The founder has logged in with the provider, and another of its users comes without a verified email. -/
theorem unverified_identity_changes_nothing : ∃ db, Reachable postgres db ∧ db.IdentitiesOwned ∧
    db.externalIdentities.rows.length = 1 ∧
    (sampleOauth.complete (samplePending ⟨42⟩ [52]) ⟨"provider", "other", some "b@example.com", false, ""⟩ 1
        ⟨some 1, some 2, some 3⟩ db).1 = .error .accountUnavailable ∧
    SameButFlows db (sampleOauth.complete (samplePending ⟨42⟩ [52])
      ⟨"provider", "other", some "b@example.com", false, ""⟩ 1 ⟨some 1, some 2, some 3⟩ db).2 := by
  obtain ⟨db, hreach, hp⟩ := exists_reachable_of_run postgres
    (foundAcme ++ [sampleFlow ⟨41⟩ [51], .completeOauthIdentity
      { verifierHash := [51], flowId := ⟨41⟩, providerId := "provider", providerSubject := "founder"
        email := some ("a@example.com", "a@example.com"), profile := "", userId := ⟨43⟩, sessionId := ⟨44⟩
        expiresAtMs := 1000000, nowMs := 0 }, sampleFlow ⟨42⟩ [52]])
    (fun db : Db =>
      (db.externalIdentities.rows.all fun i : ExternalIdentity => (db.users.find? i.userId).isSome) &&
      decide (db.externalIdentities.rows.length = 1) &&
      decide ((sampleOauth.complete (samplePending ⟨42⟩ [52]) ⟨"provider", "other", some "b@example.com", false, ""⟩ 1
        ⟨some 1, some 2, some 3⟩ db).1 = .error .accountUnavailable) &&
      ((sampleOauth.prepare (samplePending ⟨42⟩ [52]) ⟨"provider", "other", some "b@example.com", false, ""⟩ 1
        ⟨some 1, some 2, some 3⟩).toOption.all fun p : CompleteOauthIdentity => (p.account db).isNone))
    (by decide +kernel)
  simp only [Bool.and_eq_true, decide_eq_true_eq] at hp
  obtain ⟨⟨⟨howned, hlength⟩, hfailed⟩, hnone⟩ := hp
  have hfk : db.IdentitiesOwned := fun identity hi => Option.isSome_iff_exists.1 (List.all_eq_true.1 howned identity hi)
  refine ⟨db, hreach, hfk, hlength, hfailed, ?_⟩
  refine ((failed_ceremonies_change_nothing_iff hfk).1 _ _ _ _ _).2 (fun p hprepared flow user _ haccount => ?_)
    ⟨_, hfailed⟩
  rw [hprepared] at hnone
  simp [Except.toOption, haccount] at hnone

/-- A guest has registered and not verified the email; a login with the provider fails and links the identity. -/
theorem pending_account_is_linked : ∃ db, Reachable postgres db ∧
    (sampleOauth.complete (samplePending ⟨41⟩ [51]) ⟨"provider", "guest", some "b@example.com", true, ""⟩ 1
        ⟨some 1, some 2, some 3⟩ db).1 = .error .accountUnavailable ∧
    ¬ SameButFlows db (sampleOauth.complete (samplePending ⟨41⟩ [51])
      ⟨"provider", "guest", some "b@example.com", true, ""⟩ 1 ⟨some 1, some 2, some 3⟩ db).2 := by
  obtain ⟨db, hreach, hp⟩ := exists_reachable_of_run postgres [registerGuest, sampleFlow ⟨41⟩ [51]]
    (fun db : Db =>
      let result := sampleOauth.complete (samplePending ⟨41⟩ [51]) ⟨"provider", "guest", some "b@example.com", true, ""⟩ 1
        ⟨some 1, some 2, some 3⟩ db
      decide (result.1 = .error .accountUnavailable ∧
        result.2.externalIdentities.rows.length ≠ db.externalIdentities.rows.length))
    (by decide +kernel)
  obtain ⟨hfailed, hrows⟩ := of_decide_eq_true hp
  refine ⟨db, hreach, hfailed, fun hsame => hrows ?_⟩
  rw [hsame.externalIdentities]

end WasiAuth
