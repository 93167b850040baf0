import WasiAuth.Postgres.Footprints
import WasiAuth.Postgres.Lasting

/-! # What a one-time credential is good for

Four statements turn a one-time credential into a session:

| statement | credential |
|---|---|
| `verify_email.sql` | a token of purpose `email_verification` |
| `complete_password_reset.sql` | a token of purpose `password_reset` |
| `complete_oauth_identity.sql` | a flow of kind `oauth` |
| `complete_passkey_authentication.sql` | a flow of kind `webauthn_authentication` |

The services load and check a flow before they run the statement; the statement checks the row again and consumes it
in the same write, so what was loaded does not matter. The rows compare `expires_at_ms >= now`: a credential is still
good in the millisecond in which it expires. `complete_oauth_identity.sql` does not look at `user_id`; the OAuth
service creates its flows without one (oauth.rs:274-280).
-/

namespace WasiAuth

open Relational Transition

/-! ## Credentials -/

inductive OneTimeCredential
  | token (tokenHash : Bytes)
  | flow (flowId : Uuid)
deriving DecidableEq

inductive GrantUse
  | token (purpose : TokenPurpose)
  | flow (kind : FlowKind)
deriving DecidableEq

/-- What the row of a credential says. -/
structure Grant where
  use : GrantUse
  userId : Option Uuid
  expiresAtMs : Int
  consumedAtMs : Option Int

def OneTimeToken.grant (t : OneTimeToken) : Grant := ⟨.token t.purpose, t.userId, t.expiresAtMs, t.consumedAtMs⟩

def Flow.grant (f : Flow) : Grant := ⟨.flow f.kind, f.userId, f.expiresAtMs, f.consumedAtMs⟩

def Db.grant (db : Db) : OneTimeCredential → Option Grant
  | .token tokenHash => (db.oneTimeTokens.find? tokenHash).map OneTimeToken.grant
  | .flow flowId => (db.flows.find? flowId).map Flow.grant

/-- A session, and the credential it was made from. -/
structure Yield where
  credential : OneTimeCredential
  sessionId : Uuid
  userId : Uuid
  nowMs : Int
deriving DecidableEq

/-- The session that the command makes out of a credential. -/
def Command.yield (db : Db) : Command → Option Yield
  | .verifyEmail p =>
    match WasiAuth.verifyEmail p db with
    | .ok (some created, _) => some ⟨.token p.tokenHash, created.sessionId, created.userId, p.nowMs⟩
    | _ => none
  | .completePasswordReset p =>
    match WasiAuth.completePasswordReset p db with
    | .ok (some created, _) => some ⟨.token p.tokenHash, created.sessionId, created.userId, p.nowMs⟩
    | _ => none
  | .completeOauthIdentity p =>
    match WasiAuth.completeOauthIdentity p db with
    | .ok (some (.completed sessionId userId _ _), _) => some ⟨.flow p.flowId, sessionId, userId, p.nowMs⟩
    | _ => none
  | .completePasskeyAuthentication p =>
    match WasiAuth.completePasskeyAuthentication p db with
    | .ok (some (.authenticated sessionId userId _ _), _) => some ⟨.flow p.flowId, sessionId, userId, p.nowMs⟩
    | _ => none
  | _ => none

/-- What a credential has to be good for. -/
def Command.use : Command → Option GrantUse
  | .verifyEmail _ => some (.token .emailVerification)
  | .completePasswordReset _ => some (.token .passwordReset)
  | .completeOauthIdentity _ => some (.flow .oauth)
  | .completePasskeyAuthentication _ => some (.flow .webauthnAuthentication)
  | _ => none

def Db.yieldCount (credential : OneTimeCredential) (db : Db) (cmds : List Command) : Nat :=
  postgres.count (fun db c => (c.yield db).any fun y => decide (y.credential = credential)) db cmds

def Command.issuesFlow : Command → Bool
  | .createAuthFlow flow => decide (flow.kind = .oauth → flow.userId = none)
  | _ => true

/-! ## What a statement takes -/

section Redeem
variable {db db' : Db} {c : Command} {y : Yield}

/-- The statement takes an unconsumed credential of its kind in time, and leaves it consumed. -/
structure Redemption (db : Db) (c : Command) (y : Yield) (grant : Grant) : Prop where
  row : db.grant y.credential = some grant
  use : c.use = some grant.use
  fresh : grant.consumedAtMs = none
  inTime : y.nowMs ≤ grant.expiresAtMs
  bound : grant.use ≠ .flow .oauth → grant.userId = some y.userId
  spent : ∃ grant', (db.step c).grant y.credential = some grant' ∧ grant'.consumedAtMs.isSome
  session : ∃ s, (db.step c).sessions.find? y.sessionId = some s ∧ s.userId = y.userId
  identity : ∀ p, c = .completeOauthIdentity p → Identified p y.userId db (db.step c)

theorem step_of_execute (h : c.execute db = .ok db') : db.step c = db' := by
  simp only [Db.step, h]

theorem redemption_of_token {tokenHash : Bytes} {purpose : TokenPurpose} {nowMs : Int} {token : OneTimeToken}
    {sessions : Table Session.sessionId} {s : Session}
    (htoken : db.tokenCandidate tokenHash purpose nowMs = some token) (huse : c.use = some (.token purpose))
    (hbound : token.userId = some s.userId) (hexec : c.execute db = .ok db')
    (htokens : db'.oneTimeTokens = (db.useToken tokenHash nowMs).oneTimeTokens)
    (hins : sessions.insertOr SqlError.uniqueViolation s = .ok db'.sessions) :
    Redemption db c ⟨.token tokenHash, s.sessionId, s.userId, nowMs⟩ token.grant := by
  obtain ⟨hfind, rfl, hintime, hfresh⟩ := tokenCandidate_eq_some.1 htoken
  have hkey : token.tokenHash = tokenHash := (Table.find?_eq_some.1 hfind).2
  refine ⟨by simp only [Db.grant, hfind, Option.map_some], huse, hfresh, hintime, fun _ => hbound, ?_, ⟨s, ?_, rfl⟩,
    fun p hp => by subst hp; cases huse⟩
  · rw [step_of_execute hexec]
    simp only [Db.grant, htokens, Db.useToken, Db.consumeTokens, Table.find?_update, hfind, Option.map_some]
    exact ⟨_, rfl, by simp [hkey, hfresh, OneTimeToken.grant]⟩
  · rw [step_of_execute hexec, Table.find?_of_insertOr hins, if_pos rfl]

theorem redemption_of_flow {flowId : Uuid} {verifierHash : Bytes} {kind : FlowKind} {nowMs : Int} {flow : Flow}
    {sessions : Table Session.sessionId} {s : Session}
    (hflow : db.flowCandidate flowId verifierHash kind nowMs = some flow) (huse : c.use = some (.flow kind))
    (hbound : kind ≠ .oauth → flow.userId = some s.userId)
    (hidentity : ∀ p, c = .completeOauthIdentity p → Identified p s.userId db db') (hexec : c.execute db = .ok db')
    (hflows : db'.flows = (db.consumeFlow flow nowMs).flows)
    (hins : sessions.insertOr SqlError.uniqueViolation s = .ok db'.sessions) :
    Redemption db c ⟨.flow flowId, s.sessionId, s.userId, nowMs⟩ flow.grant := by
  obtain ⟨hfind, -, rfl, hfresh, hintime⟩ := flowCandidate_eq_some.1 hflow
  obtain rfl : flow.flowId = flowId := (Table.find?_eq_some.1 hfind).2
  refine ⟨by simp only [Db.grant, hfind, Option.map_some], huse, hfresh, hintime, fun hkind => ?_, ?_, ⟨s, ?_, rfl⟩,
    step_of_execute hexec ▸ hidentity⟩
  · exact hbound fun hoauth => hkind (by simp only [Flow.grant, hoauth])
  · have hset : db'.flows.find? flow.flowId = some { flow with consumedAtMs := some nowMs } := by
      rw [hflows]
      exact Table.find?_set_self (r := { flow with consumedAtMs := some nowMs }) hfind
    rw [step_of_execute hexec]
    exact ⟨_, by simp only [Db.grant, hset, Option.map_some]; rfl, rfl⟩
  · rw [step_of_execute hexec, Table.find?_of_insertOr hins, if_pos rfl]

theorem redemption_of_yield (h : c.yield db = some y) : ∃ grant, Redemption db c y grant := by
  cases c
  case verifyEmail p =>
    simp only [Command.yield] at h
    split at h
    · rename_i hexec
      cases h
      have hstep : (Command.verifyEmail p).execute db = .ok _ := written_eq_ok.2 ⟨_, hexec⟩
      rcases verifyEmail_cases hexec with ⟨⟨⟩, -⟩ | ⟨token, htoken, ⟨⟨⟩, -⟩ | ⟨user, _, _, hbound, -, -, hins, hr, rfl⟩⟩
      cases hr
      exact ⟨_, redemption_of_token htoken rfl hbound hstep rfl hins⟩
    · cases h
  case completePasswordReset p =>
    simp only [Command.yield] at h
    split at h
    · rename_i hexec
      cases h
      have hstep : (Command.completePasswordReset p).execute db = .ok _ := written_eq_ok.2 ⟨_, hexec⟩
      rcases completePasswordReset_cases hexec with
        ⟨⟨⟩, -⟩ | ⟨token, _, htoken, ⟨⟨⟩, -⟩ | ⟨user, _, _, hbound, -, -, hins, hr, rfl⟩⟩
      cases hr
      exact ⟨_, redemption_of_token htoken rfl hbound hstep rfl hins⟩
    · cases h
  case completeOauthIdentity p =>
    simp only [Command.yield] at h
    split at h
    · rename_i hexec
      cases h
      have hstep : (Command.completeOauthIdentity p).execute db = .ok _ := written_eq_ok.2 ⟨_, hexec⟩
      rcases completeOauthIdentity_cases hexec with
        ⟨⟨⟩, -⟩ | ⟨flow, _, _, hflow, -, ⟨⟨⟩, -⟩ | ⟨user, _, hid, hr, hins, rfl⟩⟩
      cases hr
      exact ⟨_, redemption_of_flow hflow rfl (fun hne => absurd rfl hne) (fun _ hp => by cases hp; exact hid) hstep rfl
        hins⟩
    · cases h
  case completePasskeyAuthentication p =>
    simp only [Command.yield] at h
    split at h
    · rename_i hexec
      cases h
      have hstep : (Command.completePasskeyAuthentication p).execute db = .ok _ := written_eq_ok.2 ⟨_, hexec⟩
      rcases completePasskeyAuthentication_cases hexec with
        ⟨⟨⟩, -⟩ | ⟨flow, hflow, hbound, ⟨⟨⟩, -⟩ | ⟨_, -, -, ⟨⟨⟩, -⟩ | ⟨user, huser, -, hr, hins⟩⟩⟩
      cases hr
      rw [← (Table.find?_eq_some.1 huser).2] at hbound
      obtain ⟨_, hinserted, rfl⟩ := insertSession_eq_ok hins
      exact ⟨_, redemption_of_flow hflow rfl (fun _ => hbound) (fun _ hp => by cases hp) hstep rfl hinserted⟩
    · cases h
  all_goals cases h

end Redeem

/-! ## What happens to a flow -/

/-- A row changes only by being consumed. -/
structure Flow.Lasts (f f' : Flow) : Prop where
  others : f' = { f with consumedAtMs := f'.consumedAtMs }
  consumed : f.consumedAtMs.isSome → f'.consumedAtMs.isSome

theorem Flow.Lasts.refl (f : Flow) : f.Lasts f := ⟨rfl, id⟩

/-- A statement creates one flow, consumes one, or leaves them all. -/
inductive FlowStep (db : Db) (c : Command) (db' : Db) : Prop
  | same (h : db'.flows = db.flows)
  | create (flow : Flow) (hc : c = .createAuthFlow flow)
      (h : db.flows.insertOr SqlError.uniqueViolation { flow with consumedAtMs := none } = .ok db'.flows)
  | consume (flow : Flow) (nowMs : Int) (hflow : flow ∈ db.flows) (h : db'.flows = (db.consumeFlow flow nowMs).flows)

section Flows
variable {db db' : Db} {c : Command}

theorem FlowStep.of_candidate {flowId : Uuid} {verifierHash : Bytes} {kind : FlowKind} {nowMs : Int} {flow : Flow}
    (hflow : db.flowCandidate flowId verifierHash kind nowMs = some flow)
    (h : db'.flows = (db.consumeFlow flow nowMs).flows) : FlowStep db c db' :=
  .consume flow nowMs (Table.find?_eq_some.1 (flowCandidate_eq_some.1 hflow).1).1 h

theorem flowStep_of_execute (h : c.execute db = .ok db') : FlowStep db c db' := by
  by_cases hw : .flows ∈ c.writes
  · cases c <;> simp only [Command.writes, List.mem_cons, List.not_mem_nil, or_false, reduceCtorEq] at hw <;>
      simp only [Command.execute, written_eq_ok] at h <;> obtain ⟨r, h⟩ := h
    case createAuthFlow flow =>
      obtain ⟨_, hins, rfl⟩ := createAuthFlow_eq_ok h
      exact .create flow rfl hins
    case completeOauthIdentity =>
      rcases completeOauthIdentity_cases h with
        ⟨-, rfl⟩ | ⟨flow, _, _, hflow, -, ⟨-, rfl⟩ | ⟨_, _, -, -, -, rfl⟩⟩
      · exact .same rfl
      · exact .of_candidate hflow rfl
      · exact .of_candidate hflow rfl
    case completePasskeyRegistration =>
      rcases completePasskeyRegistration_cases h with
        ⟨-, rfl | ⟨flow, hflow, rfl⟩⟩ | ⟨_, _, flow, _, hflow, -, -, -, rfl⟩
      · exact .same rfl
      · exact .consume flow _ hflow rfl
      · exact .consume flow _ hflow rfl
    case completePasskeyAuthentication =>
      rcases completePasskeyAuthentication_cases h with
        ⟨-, rfl⟩ | ⟨flow, hflow, -, ⟨-, rfl⟩ | ⟨_, -, -, ⟨-, rfl, -⟩ | ⟨_, -, -, -, hins⟩⟩⟩
      · exact .same rfl
      · exact .of_candidate hflow rfl
      · exact .of_candidate hflow rfl
      · obtain ⟨_, -, rfl⟩ := insertSession_eq_ok hins
        exact .of_candidate hflow rfl
  · exact .same ((frame_of_execute h).flows hw)

theorem flowStep_of_next (h : postgres.next db c = some db') : FlowStep db c db' := by
  rcases step_cases h with h | rfl
  · exact flowStep_of_execute h
  · exact .same rfl

theorem FlowStep.evolves (h : FlowStep db c db') : db.flows.Evolves Flow.Lasts db'.flows := by
  cases h with
  | same h => exact .of_eq .refl h
  | create flow hc h => exact .insertOr .refl h
  | consume flow nowMs hflow h =>
    rw [h]
    refine .set .refl fun old hold => ?_
    have hold : db.flows.find? flow.flowId = some old := hold
    rw [Table.find?_of_mem hflow] at hold
    cases hold
    exact ⟨rfl, fun _ => rfl⟩

def Db.OauthUnbound (db : Db) : Prop := ∀ f ∈ db.flows, f.kind = .oauth → f.userId = none

theorem FlowStep.oauthUnbound (h : FlowStep db c db') (hc : c.issuesFlow = true) (hdb : db.OauthUnbound) :
    db'.OauthUnbound := by
  intro f hf
  cases h with
  | same h => exact hdb f (h ▸ hf)
  | create flow hcmd h =>
    subst hcmd
    rcases (Table.mem_of_insertOr h).1 hf with hf | rfl
    · exact hdb f hf
    · exact of_decide_eq_true hc
  | consume flow nowMs hflow h =>
    rw [h] at hf
    rcases Table.mem_set.1 hf with ⟨hf, -⟩ | ⟨rfl, -⟩
    · exact hdb f hf
    · exact hdb flow hflow

end Flows

/-! ## Runs -/

/-- The credential has been consumed. -/
def Db.Spent (db : Db) (credential : OneTimeCredential) : Prop :=
  ∃ grant, db.grant credential = some grant ∧ grant.consumedAtMs.isSome

section Runs
variable {db db' : Db} {c : Command} {credential : OneTimeCredential}

theorem Db.Spent.of_next (h : db.Spent credential) (hn : postgres.next db c = some db') : db'.Spent credential := by
  obtain ⟨grant, hgrant, hspent⟩ := h
  cases credential with
  | token tokenHash =>
    obtain ⟨token, htoken, rfl⟩ := Option.map_eq_some_iff.1 hgrant
    obtain ⟨token', htoken', hlasts⟩ := (Lasting.of_next hn).oneTimeTokens htoken
    exact ⟨token'.grant, by simp only [Db.grant, htoken', Option.map_some], hlasts.consumed hspent⟩
  | flow flowId =>
    obtain ⟨flow, hflow, rfl⟩ := Option.map_eq_some_iff.1 hgrant
    obtain ⟨flow', hflow', hlasts⟩ := (flowStep_of_next hn).evolves hflow
    exact ⟨flow'.grant, by simp only [Db.grant, hflow', Option.map_some], hlasts.consumed hspent⟩

theorem yieldCount_le_one (credential : OneTimeCredential) (db : Db) (cmds : List Command) :
    db.yieldCount credential cmds ≤ 1 := by
  have hstays : ∀ {db c db'}, Db.Spent db credential → postgres.next db c = some db' → Db.Spent db' credential :=
    Db.Spent.of_next
  refine System.count_le_one ?_ hstays ?_
  · intro db c db' htest hn
    obtain ⟨y, hy, hcredential⟩ := (Option.any_eq_true _ _).1 htest
    obtain rfl := of_decide_eq_true hcredential
    obtain ⟨_, hredeems⟩ := redemption_of_yield hy
    cases hn
    exact hredeems.spent
  · rintro db c ⟨grant, hgrant, hspent⟩
    refine (Option.any_eq_false _ _).2 fun y hy => decide_eq_false fun hcredential => ?_
    obtain ⟨grant', hredeems⟩ := redemption_of_yield hy
    have hsame := hredeems.row
    rw [hcredential, hgrant] at hsame
    cases hsame
    simp [hredeems.fresh] at hspent

theorem completeOauthIdentity_of_use (h : c.use = some (.flow .oauth)) : ∃ p, c = .completeOauthIdentity p := by
  cases c <;> cases h
  exact ⟨_, rfl⟩

theorem oauthUnbound_of_run {cmds : List Command} (h : postgres.run Db.empty cmds = some db) :
    (∀ c ∈ cmds, c.issuesFlow = true) → db.OauthUnbound := by
  refine System.run_trace (S := postgres) (I := fun cmds db => (∀ c ∈ cmds, c.issuesFlow = true) → db.OauthUnbound)
    ?_ ?_ h
  · intro _ f hf
    cases hf
  · intro cmds db c db' _ ih hn hissued
    rw [List.forall_mem_append] at hissued
    exact (flowStep_of_next hn).oauthUnbound (hissued.2 c (.head _)) (ih hissued.1)

/-- **Every one-time credential is good for one login.** In every run in which the flows are created as the OAuth
service creates them, a credential yields at most one session: of its own kind and purpose, no later than its expiry,
and for the user it is bound to, or, when it is an OAuth flow, for the user of the provider's identity. -/
theorem credential_yields_once {cmds : List Command} (hissued : ∀ c ∈ cmds, c.issuesFlow = true) :
    (∀ credential, Db.empty.yieldCount credential cmds ≤ 1) ∧
      ∀ before c after db y, cmds = before ++ c :: after → postgres.run Db.empty before = some db →
        c.yield db = some y →
          ∃ grant, Redemption db c y grant ∧
            (grant.userId = some y.userId ∨ grant.use = .flow .oauth ∧ grant.userId = none ∧
              ∃ p, c = .completeOauthIdentity p ∧ Identified p y.userId db (db.step c)) := by
  refine ⟨fun credential => yieldCount_le_one credential Db.empty cmds, ?_⟩
  intro before c after db y hcmds hrun hy
  obtain ⟨grant, hredeems⟩ := redemption_of_yield hy
  refine ⟨grant, hredeems, ?_⟩
  by_cases hoauth : grant.use = .flow .oauth
  · have hunbound : db.OauthUnbound := oauthUnbound_of_run hrun fun c hc => hissued c (by simp [hcmds, hc])
    cases hcredential : y.credential with
    | token tokenHash =>
      obtain ⟨token, -, rfl⟩ := Option.map_eq_some_iff.1 (hcredential ▸ hredeems.row)
      cases hoauth
    | flow flowId =>
      obtain ⟨flow, hflow, rfl⟩ := Option.map_eq_some_iff.1 (hcredential ▸ hredeems.row)
      have hkind : flow.kind = .oauth := GrantUse.flow.inj hoauth
      obtain ⟨p, rfl⟩ := completeOauthIdentity_of_use (hredeems.use.trans (congrArg some hoauth))
      exact .inr ⟨hoauth, hunbound flow (Table.find?_eq_some.1 hflow).1 hkind, p, rfl, hredeems.identity p rfl⟩
  · exact .inl (hredeems.bound hoauth)

end Runs

/-- A callback of the provider, in the millisecond in which its flow expires. -/
def lateCallback (sessionId : Uuid) : Command :=
  .completeOauthIdentity
    { verifierHash := [9], flowId := ⟨21⟩, providerId := "github", providerSubject := "42"
      email := some ("c@example.com", "c@example.com"), profile := "\x7b\x7d", userId := ⟨22⟩, sessionId := sessionId
      expiresAtMs := 1000000, nowMs := 600000 }

/-- A user signs in with the provider; the callback comes a second time. -/
def signInTwice : List Command :=
  [.createAuthFlow { flowId := ⟨21⟩, kind := .oauth, userId := none, verifierHash := [9], keyVersion := "v1"
                     payloadCiphertext := [], expiresAtMs := 600000, consumedAtMs := none },
    lateCallback ⟨23⟩, lateCallback ⟨24⟩]

theorem signInTwice_yields_once :
    Db.empty.yieldCount (.flow ⟨21⟩) signInTwice = 1 ∧
      ∀ credential, Db.empty.yieldCount credential signInTwice ≤ 1 :=
  ⟨by decide +kernel, (credential_yields_once (by decide)).1⟩

/-- A credential is taken in the millisecond in which it expires. -/
theorem exists_yield_at_expiry :
    ∃ (before : List Command) (c : Command) (db : Db) (y : Yield), postgres.run Db.empty before = some db ∧
      c.yield db = some y ∧ (db.grant y.credential).map Grant.expiresAtMs = some y.nowMs :=
  ⟨signInTwice.take 1, lateCallback ⟨23⟩, _, ⟨.flow ⟨21⟩, ⟨23⟩, ⟨22⟩, 600000⟩, rfl, by decide +kernel,
    by decide +kernel⟩

end WasiAuth
