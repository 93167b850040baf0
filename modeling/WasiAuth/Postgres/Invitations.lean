import WasiAuth.Postgres.Footprints
import WasiAuth.Postgres.Lasting

/-! # Invitations and their tokens in every run

An invitation and its one-time token are two rows that share a hash. `accept_invitation.sql` marks the invitation
accepted whether or not it finds the token; only the membership waits for it. That no invitation is ever taken
without its token is therefore an invariant of the two tables (`Db.InvitationsHeld`), not a check of the statement.

A hash is used up once a token row has it and no pending invitation does (`Db.HashRetired`). Both statements that
give an invitation a hash also insert the token row, so a retired hash stays retired.
-/

namespace WasiAuth

open Relational Transition

/-! ## Tokens -/

section Tokens
variable {db db' db₁ db₂ db₃ : Db} {hash : Bytes}

theorem invitationTokenOf_isSome : (db.invitationTokenOf hash).isSome ↔
    ∃ t ∈ db.oneTimeTokens, t.tokenHash = hash ∧ t.purpose = .invitation ∧ t.consumedAtMs = none := by
  constructor
  · intro h
    obtain ⟨t, ht⟩ := Option.isSome_iff_exists.1 h
    obtain ⟨hfind, hfresh⟩ := Option.filter_eq_some_iff.1 ht
    obtain ⟨hmem, hhash⟩ := Table.find?_eq_some.1 hfind
    exact ⟨t, hmem, hhash, of_decide_eq_true hfresh⟩
  · rintro ⟨t, hmem, hhash, hfresh⟩
    have hfind : db.oneTimeTokens.find? hash = some t := Table.find?_eq_some.2 ⟨hmem, hhash⟩
    exact Option.isSome_iff_exists.2 ⟨t, Option.filter_eq_some_iff.2 ⟨hfind, decide_eq_true hfresh⟩⟩

/-- No token with `q` is consumed. -/
def KeepsTokens (q : OneTimeToken → Prop) (db db' : Db) : Prop :=
  ∀ t ∈ db.oneTimeTokens, q t → t ∈ db'.oneTimeTokens

abbrev KeepsInvitationTokens (db db' : Db) : Prop :=
  KeepsTokens (fun t => t.purpose = .invitation ∧ t.consumedAtMs = none) db db'

namespace KeepsTokens

variable {q : OneTimeToken → Prop}

theorem of_same (h : db'.oneTimeTokens = db.oneTimeTokens) : KeepsTokens q db db' :=
  fun t ht _ => by rw [h]; exact ht

theorem trans (h : KeepsTokens q db₁ db₂) (h' : KeepsTokens q db₂ db₃) : KeepsTokens q db₁ db₃ :=
  fun t ht hq => h' t (h t ht hq) hq

theorem of_insertOr {t : OneTimeToken}
    (h : db.oneTimeTokens.insertOr SqlError.uniqueViolation t = .ok db'.oneTimeTokens) :
    KeepsTokens q db db' :=
  fun _ ht _ => (Table.mem_of_insertOr h).2 (.inl ht)

theorem consumeTokens {p : OneTimeToken → Bool} {nowMs : Int} (hp : ∀ t ∈ db.oneTimeTokens, q t → p t = false) :
    KeepsTokens q db (db.consumeTokens p nowMs) := by
  intro t ht hq
  have hmem : t ∈ db.oneTimeTokens.update (fun t => p t && t.consumedAtMs.isNone)
      (fun t => { t with consumedAtMs := some nowMs }) fun _ => rfl :=
    Table.mem_update.2 ⟨t, ht, by rw [hp t ht hq]; rfl⟩
  exact hmem

theorem isSome (h : KeepsTokens q db db')
    (hq : ∀ t, t.tokenHash = hash → t.purpose = .invitation ∧ t.consumedAtMs = none → q t)
    (hsome : (db.invitationTokenOf hash).isSome) : (db'.invitationTokenOf hash).isSome := by
  obtain ⟨t, ht, hhash, hfresh⟩ := invitationTokenOf_isSome.1 hsome
  exact invitationTokenOf_isSome.2 ⟨t, h t ht (hq t hhash hfresh), hhash, hfresh⟩

end KeepsTokens

theorem purpose_of_tokenCandidate {purpose : TokenPurpose} {nowMs : Int} {token t : OneTimeToken}
    (h : db.tokenCandidate hash purpose nowMs = some token) (ht : t ∈ db.oneTimeTokens) (hhash : t.tokenHash = hash) :
    t.purpose = purpose := by
  obtain ⟨hfind, hc⟩ := Option.filter_eq_some_iff.1 h
  cases hfind.symm.trans (Table.find?_eq_some.2 ⟨ht, hhash⟩)
  exact (of_decide_eq_true hc).1

theorem keeps_useToken {tokenHash : Bytes} {purpose : TokenPurpose} {nowMs : Int} {token : OneTimeToken}
    (htoken : db.tokenCandidate tokenHash purpose nowMs = some token) (hpurpose : purpose ≠ .invitation) :
    KeepsInvitationTokens db (db.useToken tokenHash nowMs) :=
  .consumeTokens fun _ ht hopen => decide_eq_false fun hhash =>
    hpurpose ((purpose_of_tokenCandidate htoken ht hhash).symm.trans hopen.1)

end Tokens

/-! ## One step -/

/-- Every invitation has a token row, a pending one an unconsumed one, and no two share a hash. -/
structure Db.InvitationsHeld (db : Db) : Prop where
  stored : ∀ i ∈ db.invitations, (db.oneTimeTokens.find? i.tokenHash).isSome
  held : ∀ i ∈ db.invitations, i.status = .pending → (db.invitationTokenOf i.tokenHash).isSome
  distinct : ∀ i ∈ db.invitations, ∀ i' ∈ db.invitations, i.tokenHash = i'.tokenHash → i = i'

/-- What an invitation of the state after a step can be: an earlier one under its hash, pending only if it was and
its token is still there, or one with a hash and a token that are new. -/
inductive InvitationRow (db db' : Db) (i' : Invitation) : Prop
  | old {i : Invitation} (hi : i ∈ db.invitations) (hid : i'.invitationId = i.invitationId)
      (hhash : i'.tokenHash = i.tokenHash)
      (hpending : i'.status = .pending → i.status = .pending ∧
        ((db.invitationTokenOf i.tokenHash).isSome → (db'.invitationTokenOf i.tokenHash).isSome)) :
      InvitationRow db db' i'
  | new (hfresh : db.oneTimeTokens.find? i'.tokenHash = none) (htoken : (db'.invitationTokenOf i'.tokenHash).isSome)
      (hunique : ∀ i'' ∈ db'.invitations, i''.tokenHash = i'.tokenHash → i'' = i') : InvitationRow db db' i'

def InvitationStep (db db' : Db) : Prop := ∀ i' ∈ db'.invitations, InvitationRow db db' i'

section Step
variable {db db' : Db} {hash : Bytes}

/-- Consuming deletes no token. -/
theorem isSome_find?_consumeTokens (q : OneTimeToken → Bool) (nowMs : Int) :
    ((db.consumeTokens q nowMs).oneTimeTokens.find? hash).isSome = (db.oneTimeTokens.find? hash).isSome := by
  have hupdate : ((db.oneTimeTokens.update (fun t => q t && t.consumedAtMs.isNone)
      (fun t => { t with consumedAtMs := some nowMs }) fun _ => rfl).find? hash).isSome =
        (db.oneTimeTokens.find? hash).isSome := by
    rw [Table.find?_update, Option.isSome_map]
  exact hupdate

theorem invitationTokenOf_of_insertOr {expiresAtMs : Int} {tokens tokens' : Table OneTimeToken.tokenHash}
    (h : tokens.insertOr SqlError.uniqueViolation (invitationToken hash expiresAtMs) = .ok tokens')
    (hdb : db'.oneTimeTokens = tokens') : (db'.invitationTokenOf hash).isSome := by
  refine invitationTokenOf_isSome.2 ⟨invitationToken hash expiresAtMs, ?_, rfl, rfl, rfl⟩
  rw [hdb]
  exact (Table.mem_of_insertOr h).2 (.inr rfl)

theorem invitationStep_of_same (h : db'.invitations = db.invitations) (ht : KeepsInvitationTokens db db') :
    InvitationStep db db' :=
  fun _ hi => .old (h ▸ hi) rfl rfl fun hp => ⟨hp, ht.isSome fun _ _ => id⟩

/-- No other invitation has the hash. -/
theorem invitationHashTaken_eq_false {except : Option Uuid} (h : db.invitationHashTaken hash except = false)
    {i : Invitation} (hi : i ∈ db.invitations) (hhash : i.tokenHash = hash) : some i.invitationId = except := by
  by_contra hne
  have htaken : db.invitationHashTaken hash except = true :=
    List.any_eq_true.2 ⟨i, hi, decide_eq_true ⟨hhash, hne⟩⟩
  rw [h] at htaken
  cases htaken

theorem createInvitation_step {p r} (h : createInvitation p db = .ok (r, db')) : InvitationStep db db' := by
  rcases createInvitation_cases h with ⟨-, rfl⟩ | ⟨_, _, _, invitations, tokens, _, -, -, hfree, hins, htok, -, -, rfl⟩
  · exact invitationStep_of_same rfl (.of_same rfl)
  · -- the rows that were there, revoked if the new one replaces them
    have hold : ∀ i' ∈ (db.revokeInvitations p.replaces).invitations, ∃ i ∈ db.invitations,
        i'.invitationId = i.invitationId ∧ i'.tokenHash = i.tokenHash ∧
          (i'.status = .pending → i.status = .pending) := by
      intro i' hi'
      obtain ⟨i, hi, ⟨-, rfl⟩ | ⟨-, rfl⟩⟩ := mem_revokeInvitations hi'
      · exact ⟨i, hi, rfl, rfl, fun hp => by cases hp⟩
      · exact ⟨_, hi, rfl, rfl, id⟩
    have htoken : KeepsInvitationTokens db { db with invitations := invitations, oneTimeTokens := tokens } :=
      .of_insertOr htok
    intro i' hi'
    rcases (Table.mem_of_insertOr hins).1 hi' with hi' | rfl
    · obtain ⟨i, hi, hid, hhash, hpending⟩ := hold i' hi'
      exact .old hi hid hhash fun hp => ⟨hpending hp, htoken.isSome fun _ _ => id⟩
    · refine .new (Table.insertOr_eq_ok htok).1 (invitationTokenOf_of_insertOr htok rfl) fun i'' hi'' hhash => ?_
      rcases (Table.mem_of_insertOr hins).1 hi'' with hi'' | rfl
      · obtain ⟨i, hi, -, hhash', -⟩ := hold i'' hi''
        cases invitationHashTaken_eq_false hfree hi (hhash'.symm.trans hhash)
      · rfl

/-- Consuming the token of one invitation leaves those of the others. -/
theorem Db.InvitationsHeld.keeps_others (h : db.InvitationsHeld) {i i' : Invitation} (hi' : i' ∈ db.invitations)
    (hi : i ∈ db.invitations) (hne : i'.invitationId ≠ i.invitationId) (nowMs : Int) :
    KeepsTokens (fun t => t.tokenHash = i'.tokenHash) db (db.consumeTokens i.holds nowMs) := by
  refine .consumeTokens fun t _ hhash => decide_eq_false fun hholds => hne ?_
  rw [h.distinct i' hi' i hi (hhash.symm.trans hholds.1)]

theorem deleteRole_step {p r} (h : deleteRole p db = .ok (r, db')) : InvitationStep db db' := by
  rcases deleteRole_cases h with rfl | ⟨_, _, _, _, _, outbox, -, -, -, -, -, hdb⟩
  · exact invitationStep_of_same rfl (.of_same rfl)
  · have htokens : db'.oneTimeTokens = db.oneTimeTokens := by rw [hdb]; rfl
    have hrows : db'.invitations = (db.retargetInvitations p.organizationId p.roleId).invitations := by rw [hdb]; rfl
    intro i' hi'
    rw [hrows] at hi'
    have hi' : i' ∈ db.invitations.update
        (fun i => decide (i.organizationId = p.organizationId ∧ i.roleId = p.roleId ∧ i.status ≠ .pending))
        (fun i => { i with roleId := "member" }) fun _ => rfl := hi'
    obtain ⟨i, hi, rfl⟩ := Table.mem_update.1 hi'
    have hkeep : (db.invitationTokenOf i.tokenHash).isSome → (db'.invitationTokenOf i.tokenHash).isSome :=
      KeepsTokens.isSome (.of_same htokens) fun _ _ => id
    split
    · exact .old hi rfl rfl fun hp => ⟨hp, hkeep⟩
    · exact .old hi rfl rfl fun hp => ⟨hp, hkeep⟩

variable (hheld : db.InvitationsHeld)
include hheld

theorem revokeInvitation_step {p r} (h : revokeInvitation p db = .ok (r, db')) : InvitationStep db db' := by
  rcases revokeInvitation_cases h with ⟨-, rfl⟩ | ⟨_, _, _, invitation, -, hpending, -, rfl⟩
  · exact invitationStep_of_same rfl (.of_same rfl)
  · obtain ⟨hfind, -⟩ := pendingInvitation_eq_some hpending
    have hmem := (Table.find?_eq_some.1 hfind).1
    intro i' hi'
    have hi' : i' ∈ db.invitations.set { invitation with status := .revoked } := hi'
    rcases Table.mem_set.1 hi' with ⟨hi', hne⟩ | ⟨rfl, -⟩
    · have hkeep := hheld.keeps_others hi' hmem hne p.nowMs
      exact .old hi' rfl rfl fun hp => ⟨hp, hkeep.isSome fun _ hhash _ => hhash⟩
    · exact .old hmem rfl rfl fun hp => by cases hp

theorem resendInvitation_step {p r} (h : resendInvitation p db = .ok (r, db')) : InvitationStep db db' := by
  rcases resendInvitation_cases h with ⟨-, rfl⟩ | ⟨_, _, _, invitation, tokens, _, -, hpending, hfree, htok, -, -, rfl⟩
  · exact invitationStep_of_same rfl (.of_same rfl)
  · obtain ⟨hfind, hid, -⟩ := pendingInvitation_eq_some hpending
    have hmem := (Table.find?_eq_some.1 hfind).1
    intro i' hi'
    have hi' : i' ∈ db.invitations.set
      { invitation with tokenHash := p.tokenHash, expiresAtMs := p.expiresAtMs } := hi'
    rcases Table.mem_set.1 hi' with ⟨hi', hne⟩ | ⟨rfl, -⟩
    · have hins : KeepsTokens (fun t => t.tokenHash = i'.tokenHash) _ { db with oneTimeTokens := tokens } :=
        .of_insertOr htok
      have hkeep := (hheld.keeps_others hi' hmem hne p.nowMs).trans hins
      exact .old hi' rfl rfl fun hp => ⟨hp, hkeep.isSome fun _ hhash _ => hhash⟩
    · refine .new ?_ (invitationTokenOf_of_insertOr htok rfl) fun i'' hi'' hhash => ?_
      · -- consuming leaves the hashes that are there
        have hnone := congrArg Option.isSome (Table.insertOr_eq_ok htok).1
        rw [isSome_find?_consumeTokens] at hnone
        exact Option.isNone_iff_eq_none.1 (Option.isSome_eq_false_iff.1 hnone)
      · have hi'' : i'' ∈ db.invitations.set
          { invitation with tokenHash := p.tokenHash, expiresAtMs := p.expiresAtMs } := hi''
        rcases Table.mem_set.1 hi'' with ⟨hi'', hne⟩ | ⟨rfl, -⟩
        · have hsame := Option.some.inj (invitationHashTaken_eq_false hfree hi'' hhash)
          exact absurd (hsame.trans hid.symm) hne
        · rfl

theorem archiveOrganization_step {p r} (h : archiveOrganization p db = .ok (r, db')) : InvitationStep db db' := by
  rcases archiveOrganization_cases h with ⟨-, rfl⟩ | ⟨_, _, _, org, -, -, rfl⟩
  · exact invitationStep_of_same rfl (.of_same rfl)
  · intro i' hi'
    have hi' : i' ∈ (db.revokePendingInvitations p.organizationId).invitations := hi'
    obtain ⟨i, hi, ⟨-, rfl⟩ | ⟨hkept, rfl⟩⟩ := mem_revokeInvitations hi'
    · exact .old hi rfl rfl fun hp => by cases hp
    · refine .old hi rfl rfl fun hp => ⟨hp, ?_⟩
      have hkeep : KeepsTokens (fun t => t.tokenHash = i'.tokenHash) (db.setOrganization org.archivedRow)
          ((db.setOrganization org.archivedRow).consumeInvitationTokens p.organizationId p.nowMs) := by
        refine .consumeTokens fun t _ hhash => Bool.and_eq_false_iff.2 (.inr ?_)
        refine List.any_eq_false.2 fun i₂ hi₂ hc => of_decide_eq_false hkept ?_
        obtain ⟨horg, hpending, hsame⟩ := of_decide_eq_true hc
        rw [hheld.distinct i' hi i₂ hi₂ (hhash.symm.trans hsame.symm)]
        exact ⟨horg, hpending⟩
      exact hkeep.isSome fun _ hhash _ => hhash

theorem acceptInvitation_step {p r} (h : acceptInvitation p db = .ok (r, db')) : InvitationStep db db' := by
  have haccepted : ∀ {session : Session} {user : User} {invitation : Invitation} {db' : Db},
      db.eligibleInvitation session user p.tokenHash p.nowMs = some invitation →
      db'.invitations = db.invitations.set (invitation.acceptedRow p.nowMs user.userId) →
      (∀ hash, hash ≠ p.tokenHash → KeepsTokens (fun t => t.tokenHash = hash) db db') → InvitationStep db db' := by
    intro session user invitation db' hinv hrows hkeep i' hi'
    obtain ⟨hmem, hhash, -⟩ := eligibleInvitation_eq_some hinv
    rw [hrows] at hi'
    rcases Table.mem_set.1 hi' with ⟨hi', hne⟩ | ⟨rfl, -⟩
    · refine .old hi' rfl rfl fun hp => ⟨hp, (hkeep _ fun hsame => hne ?_).isSome fun _ hhash _ => hhash⟩
      rw [hheld.distinct i' hi' invitation hmem (hsame.trans hhash.symm)]
      rfl
    · exact .old hmem rfl rfl fun hp => by cases hp
  cases acceptInvitation_cases h with
  | refused => exact invitationStep_of_same rfl (.of_same rfl)
  | untokened hlive hinv htoken => exact haccepted hinv rfl fun _ _ t ht _ => ht
  | @accepted session user invitation token org _ _ _ hlive hinv htoken horg hm ho =>
    refine haccepted hinv rfl fun hash hne t ht hhash => ?_
    have htok : token.tokenHash = p.tokenHash :=
      (Table.find?_eq_some.1 (Option.filter_eq_some_iff.1 htoken).1).2
    have hset : t ∈ db.oneTimeTokens.set { token with consumedAtMs := some p.nowMs } :=
      Table.mem_set.2 (.inl ⟨ht, fun hsame => hne (hhash.symm.trans (hsame.trans htok))⟩)
    exact hset

/-- After a step an invitation is an old one or comes with a new token. -/
theorem invitationStep_of_next {c : Command} (h : postgres.next db c = some db') :
    InvitationStep db db' := by
  have hframe := frame_of_next h
  rcases step_cases h with h | rfl
  · have hinvitations : .invitations ∉ c.writes → KeepsInvitationTokens db db' → InvitationStep db db' :=
      fun hi ht => invitationStep_of_same (hframe.invitations hi) ht
    have hsame : .oneTimeTokens ∉ c.writes → KeepsInvitationTokens db db' :=
      fun ht => .of_same (hframe.oneTimeTokens ht)
    cases c <;> simp only [Command.execute, written_eq_ok] at h <;> obtain ⟨r, h⟩ := h
    case createInvitation => exact createInvitation_step h
    case resendInvitation => exact resendInvitation_step hheld h
    case revokeInvitation => exact revokeInvitation_step hheld h
    case acceptInvitation => exact acceptInvitation_step hheld h
    case archiveOrganization => exact archiveOrganization_step hheld h
    case deleteRole => exact deleteRole_step h
    all_goals refine hinvitations (by simp [Command.writes]) ?_
    case registerPassword =>
      rcases registerPassword_cases h with rfl | hreg
      · exact .of_same rfl
      · exact .of_insertOr hreg.oneTimeTokens
    case resendEmailVerification =>
      obtain ⟨_, rfl | ⟨_, _, _, _, htoken, -, rfl⟩⟩ := resendEmailVerification_cases h
      · exact .of_same rfl
      · refine .trans (.consumeTokens fun _ _ ht => decide_eq_false fun hp => ?_) (.of_insertOr htoken)
        cases ht.1.symm.trans hp.2
    case verifyEmail =>
      rcases verifyEmail_cases h with ⟨-, rfl⟩ | ⟨token, htoken, hdb⟩
      · exact .of_same rfl
      · have hkeep := keeps_useToken htoken (by decide)
        rcases hdb with ⟨-, rfl⟩ | ⟨_, _, _, -, -, -, -, -, rfl⟩ <;> exact hkeep
    case startPasswordReset =>
      rcases startPasswordReset_cases h with rfl | ⟨_, _, _, htoken, -, rfl⟩
      · exact .of_same rfl
      · exact .of_insertOr htoken
    case completePasswordReset =>
      rcases completePasswordReset_cases h with ⟨-, rfl⟩ | ⟨token, _, htoken, hdb⟩
      · exact .of_same rfl
      · have hkeep := keeps_useToken htoken (by decide)
        rcases hdb with ⟨-, rfl⟩ | ⟨_, _, _, -, -, -, -, -, rfl⟩ <;> exact hkeep
    all_goals exact hsame (by simp [Command.writes])
  · exact invitationStep_of_same rfl (.of_same rfl)

end Step

/-! ## Every run -/

/-- The hash has been used: a token row has it, and no pending invitation does. -/
def Db.HashRetired (hash : Bytes) (db : Db) : Prop :=
  (db.oneTimeTokens.find? hash).isSome ∧ ∀ i ∈ db.invitations, i.tokenHash = hash → i.status ≠ .pending

section Runs
variable {db db' : Db} {hash : Bytes}

theorem Lasting.tokenStored (h : Lasting db db') (hsome : (db.oneTimeTokens.find? hash).isSome) :
    (db'.oneTimeTokens.find? hash).isSome := by
  obtain ⟨t, ht⟩ := Option.isSome_iff_exists.1 hsome
  obtain ⟨t', ht', -⟩ := h.oneTimeTokens ht
  exact Option.isSome_iff_exists.2 ⟨t', ht'⟩

theorem stored_of_invitationTokenOf (h : (db.invitationTokenOf hash).isSome) :
    (db.oneTimeTokens.find? hash).isSome := by
  obtain ⟨t, ht⟩ := Option.isSome_iff_exists.1 h
  exact Option.isSome_iff_exists.2 ⟨t, (Option.filter_eq_some_iff.1 ht).1⟩

theorem acceptInvitation_of_retired {p : AcceptInvitation} (h : db.HashRetired p.tokenHash) :
    acceptInvitation p db = .ok (none, db) := by
  unfold acceptInvitation
  cases hlive : db.liveSession p.sessionId p.nowMs with
  | none => rfl
  | some actor =>
    have hnone : db.eligibleInvitation actor.1 actor.2 p.tokenHash p.nowMs = none := by
      cases hinv : db.eligibleInvitation actor.1 actor.2 p.tokenHash p.nowMs with
      | none => rfl
      | some i =>
        obtain ⟨hi, hhash, -, -, hp, -⟩ := eligibleInvitation_eq_some hinv
        exact absurd hp (h.2 i hi hhash)
    simp only [hnone]

variable (hheld : db.InvitationsHeld)
include hheld

/-- The invariant of the two tables. -/
theorem invitationsHeld_of_next {c : Command} (h : postgres.next db c = some db') :
    db'.InvitationsHeld := by
  have hstep := invitationStep_of_next hheld h
  have hlast := Lasting.of_next h
  refine ⟨fun i' hi' => ?_, fun i' hi' hp => ?_, fun i' hi' i'' hi'' hsame => ?_⟩
  · cases hstep i' hi' with
    | old hi _ hhash _ => exact hhash ▸ hlast.tokenStored (hheld.stored _ hi)
    | new _ htoken _ => exact stored_of_invitationTokenOf htoken
  · cases hstep i' hi' with
    | old hi _ hhash hpending => exact hhash ▸ (hpending hp).2 (hheld.held _ hi (hpending hp).1)
    | new _ htoken _ => exact htoken
  · cases hstep i' hi' with
    | new _ _ hunique => exact (hunique i'' hi'' hsame.symm).symm
    | @old i hi hid hhash _ =>
      cases hstep i'' hi'' with
      | new _ _ hunique => exact hunique i' hi' hsame
      | @old j hj hid' hhash' _ =>
        have hij : i = j := hheld.distinct i hi j hj (hhash.symm.trans (hsame.trans hhash'))
        exact Table.eq_of_key hi' hi'' (hid.trans (hij ▸ hid'.symm))

omit hheld in
theorem invitationsHeld_of_run (h : Reachable postgres db) : db.InvitationsHeld :=
  ReachableBy.invariant
    ⟨fun _ hi => (List.not_mem_nil hi).elim, fun _ hi => (List.not_mem_nil hi).elim,
      fun _ hi => (List.not_mem_nil hi).elim⟩
    (fun hheld _ h => invitationsHeld_of_next hheld h) h

/-- A retired hash stays retired. -/
theorem hashRetired_of_next {c : Command} (h : postgres.next db c = some db')
    (hretired : db.HashRetired hash) : db'.HashRetired hash := by
  refine ⟨(Lasting.of_next h).tokenStored hretired.1, fun i' hi' hhash hp => ?_⟩
  cases invitationStep_of_next hheld h i' hi' with
  | old hi _ hsame hpending => exact hretired.2 _ hi (hsame.symm.trans hhash) (hpending hp).1
  | new hfresh _ _ =>
    have hstored := hretired.1
    rw [← hhash, hfresh] at hstored
    cases hstored

theorem hashRetired_of_run (h : Steps postgres anyStep db db')
    (hretired : db.HashRetired hash) : db'.HashRetired hash :=
  (Steps.invariant (I := fun db => db.InvitationsHeld ∧ db.HashRetired hash)
    (fun hI _ hn => ⟨invitationsHeld_of_next hI.1 hn, hashRetired_of_next hI.1 hn hI.2⟩) h ⟨hheld, hretired⟩).2

/-- From here on no acceptance with this hash succeeds. -/
def NeverAccepted (hash : Bytes) (db : Db) : Prop :=
  ∀ db', Steps postgres anyStep db db' → ∀ p : AcceptInvitation, p.tokenHash = hash →
    acceptInvitation p db' = .ok (none, db')

/-- A step after which no pending invitation has the hash retires it. -/
theorem neverAccepted_of_step {c : Command} (h : c.execute db = .ok db')
    {i : Invitation} (hi : i ∈ db.invitations)
    (hgone : ∀ i' ∈ db'.invitations, i'.invitationId = i.invitationId → i'.tokenHash = i.tokenHash →
      i'.status ≠ .pending) : NeverAccepted i.tokenHash db' := by
  have h := next_of_execute h
  have hretired : db'.HashRetired i.tokenHash := by
    refine ⟨(Lasting.of_next h).tokenStored (hheld.stored i hi), fun i' hi' hhash => ?_⟩
    cases invitationStep_of_next hheld h i' hi' with
    | @old j hj hid hsame _ =>
      have hij : j = i := hheld.distinct j hj i hi (hsame.symm.trans hhash)
      exact hgone i' hi' (hid.trans (hij ▸ rfl)) hhash
    | new hfresh _ _ =>
      have hstored := hheld.stored i hi
      rw [← hhash, hfresh] at hstored
      cases hstored
  intro db'' hrun p hp
  exact acceptInvitation_of_retired (hp ▸ hashRetired_of_run (invitationsHeld_of_next hheld h) hrun hretired)

/-- The invitation is accepted, the caller's membership is active with the invited role, and the token is consumed. -/
def AcceptedWhole (p : AcceptInvitation) (db db' : Db) : Prop :=
  ∃ session user i token membership, db.liveSession p.sessionId p.nowMs = some (session, user) ∧
    i ∈ db.invitations ∧ i.tokenHash = p.tokenHash ∧ i.status = .pending ∧
    db'.invitations.find? i.invitationId = some (i.acceptedRow p.nowMs user.userId) ∧
    db'.activeMembership i.organizationId user.userId = some membership ∧ membership.roleId = i.roleId ∧
    db.invitationTokenOf p.tokenHash = some token ∧
    db'.oneTimeTokens.find? p.tokenHash = some { token with consumedAtMs := some p.nowMs }

/-- A call changes nothing or does all of it: the token of a pending invitation is always there. -/
theorem acceptInvitation_whole {p r}
    (h : acceptInvitation p db = .ok (r, db')) : r = none ∧ db' = db ∨ r.isSome ∧ AcceptedWhole p db db' := by
  cases acceptInvitation_cases h with
  | refused => exact .inl ⟨rfl, rfl⟩
  | untokened _ hinv htoken =>
    obtain ⟨hi, hhash, -, -, hp, -⟩ := eligibleInvitation_eq_some hinv
    have hsome := hheld.held _ hi hp
    rw [hhash, htoken] at hsome
    cases hsome
  | @accepted session user i token org _ memberships _ hlive hinv htoken horg hm ho =>
    obtain ⟨hi, hhash, -, -, hp, -⟩ := eligibleInvitation_eq_some hinv
    obtain ⟨hfind, -⟩ := Option.filter_eq_some_iff.1 htoken
    have htok : token.tokenHash = p.tokenHash := (Table.find?_eq_some.1 hfind).2
    have hupserted : Upserted (invitedMembership i user.userId p.nowMs) db.memberships
        ({ db with memberships := memberships } : Db).memberships := hm
    obtain ⟨m, hm, hrole⟩ := activeMembership_of_upserted rfl hupserted
    have hrow := Table.find?_set_self (r := i.acceptedRow p.nowMs user.userId) (Table.find?_eq_some.2 ⟨hi, rfl⟩)
    have hconsumed := Table.find?_set_self (r := { token with consumedAtMs := some p.nowMs }) (htok.symm ▸ hfind)
    exact .inr ⟨rfl, session, user, i, token, m, hlive, hi, hhash, hp, hrow, hm, hrole, htoken, htok ▸ hconsumed⟩

theorem neverAccepted_of_accept {p : AcceptInvitation} {view : OrganizationView}
    (h : acceptInvitation p db = .ok (some view, db')) : NeverAccepted p.tokenHash db' := by
  rcases acceptInvitation_whole hheld h with ⟨h, -⟩ | ⟨-, session, user, i, token, m, -, hi, hhash, -, hrow, -⟩
  · cases h
  · rw [← hhash]
    refine neverAccepted_of_step (c := .acceptInvitation p) hheld (written_eq_ok.2 ⟨_, h⟩) hi fun i' hi' hid _ hp => ?_
    rw [Table.find?_eq_some.2 ⟨hi', hid⟩] at hrow
    cases hrow
    cases hp

theorem neverAccepted_of_resend {p : ResendInvitation} {i i' : Invitation}
    (h : resendInvitation p db = .ok (some i', db')) (hi : db.invitations.find? p.invitationId = some i) :
    NeverAccepted i.tokenHash db' := by
  refine neverAccepted_of_step (c := .resendInvitation p) hheld (written_eq_ok.2 ⟨_, h⟩) (Table.find?_eq_some.1 hi).1 ?_
  rcases resendInvitation_cases h with ⟨h, -⟩ | ⟨_, _, _, invitation, tokens, _, -, hpending, -, htok, -, -, rfl⟩
  · cases h
  · obtain ⟨hfind, hid, -⟩ := pendingInvitation_eq_some hpending
    rw [hid, hi] at hfind
    cases hfind
    intro i'' hi'' hsame hhash
    have hi'' : i'' ∈ db.invitations.set { i with tokenHash := p.tokenHash, expiresAtMs := p.expiresAtMs } := hi''
    rcases Table.mem_set.1 hi'' with ⟨-, hne⟩ | ⟨rfl, -⟩
    · exact absurd hsame hne
    · -- the new hash was not stored, the old one was
      have hstored := hheld.stored i (Table.find?_eq_some.1 hi).1
      rw [← isSome_find?_consumeTokens i.holds p.nowMs, ← hhash] at hstored
      exact absurd (Table.insertOr_eq_ok htok).1 (Option.isSome_iff_ne_none.1 hstored)

theorem neverAccepted_of_revoked {c : Command} {q : Invitation → Bool} {i : Invitation}
    (h : c.execute db = .ok db') (hi : i ∈ db.invitations) (hq : i.status = .pending → q i = true)
    (hrows : ∀ i' ∈ db'.invitations, i'.tokenHash = i.tokenHash → i' ∈ (db.revokeInvitations q).invitations) :
    NeverAccepted i.tokenHash db' := by
  refine neverAccepted_of_step hheld h hi fun i' hi' hid hhash hp => ?_
  obtain ⟨j, hj, ⟨-, rfl⟩ | ⟨hkept, rfl⟩⟩ := mem_revokeInvitations (hrows i' hi' hhash)
  · cases hp
  · cases Table.eq_of_key hj hi hid
    rw [hq hp] at hkept
    cases hkept

theorem neverAccepted_of_create {p : CreateInvitation} {i i' : Invitation}
    (h : createInvitation p db = .ok (some i', db')) (hi : i ∈ db.invitations)
    (horg : i.organizationId = p.organizationId) (hemail : i.normalizedEmail = p.normalizedEmail) :
    NeverAccepted i.tokenHash db' := by
  refine neverAccepted_of_revoked (c := .createInvitation p) (q := p.replaces) hheld (written_eq_ok.2 ⟨_, h⟩) hi
    (fun hp => decide_eq_true ⟨horg, hemail, hp⟩) fun i'' hi'' hhash => ?_
  rcases createInvitation_cases h with ⟨h, -⟩ | ⟨_, user, _, _, _, _, -, -, hfree, hins, -, -, -, rfl⟩
  · cases h
  · rcases (Table.mem_of_insertOr hins).1 hi'' with hi'' | rfl
    · exact hi''
    · cases invitationHashTaken_eq_false hfree hi hhash.symm

theorem neverAccepted_of_revoke {p : RevokeInvitation} {i : Invitation}
    (h : revokeInvitation p db = .ok (some i, db')) : NeverAccepted i.tokenHash db' := by
  have hexec : (Command.revokeInvitation p).execute db = .ok db' := written_eq_ok.2 ⟨_, h⟩
  rcases revokeInvitation_cases h with ⟨h, -⟩ | ⟨_, _, _, invitation, -, hpending, hi, rfl⟩
  · cases h
  · cases hi
    have hmem := (Table.find?_eq_some.1 (pendingInvitation_eq_some hpending).1).1
    refine neverAccepted_of_step (i := invitation) hheld hexec hmem fun i'' hi'' hid _ hp => ?_
    have hi'' : i'' ∈ db.invitations.set { invitation with status := .revoked } := hi''
    rcases Table.mem_set.1 hi'' with ⟨-, hne⟩ | ⟨rfl, -⟩
    · exact hne hid
    · cases hp

theorem neverAccepted_of_archive {p : ArchiveOrganization} {view : OrganizationView} {i : Invitation}
    (h : archiveOrganization p db = .ok (some view, db')) (hi : i ∈ db.invitations)
    (horg : i.organizationId = p.organizationId) : NeverAccepted i.tokenHash db' := by
  refine neverAccepted_of_revoked (c := .archiveOrganization p)
    (q := fun i => decide (i.organizationId = p.organizationId ∧ i.status = .pending)) hheld
    (written_eq_ok.2 ⟨_, h⟩) hi (fun hp => decide_eq_true ⟨horg, hp⟩) fun i' hi' _ => ?_
  rcases archiveOrganization_cases h with ⟨h, -⟩ | ⟨_, _, _, _, -, -, rfl⟩
  · cases h
  · exact hi'

end Runs

/-- The tokens of the pending invitations are there, a call accepts all or nothing, and a hash that was accepted,
resent, replaced, revoked or archived is never accepted again. -/
theorem invitations_of_run {db : Db} (h : Reachable postgres db) :
    (∀ i ∈ db.invitations, i.status = .pending → ∃ t ∈ db.oneTimeTokens, t.tokenHash = i.tokenHash ∧
      t.purpose = .invitation ∧ t.consumedAtMs = none) ∧
    (∀ p, db.step (.acceptInvitation p) = db ∨ AcceptedWhole p db (db.step (.acceptInvitation p))) ∧
    (∀ p view db', acceptInvitation p db = .ok (some view, db') →
      AcceptedWhole p db db' ∧ NeverAccepted p.tokenHash db') ∧
    (∀ p i' db', resendInvitation p db = .ok (some i', db') →
      ∀ i, db.invitations.find? p.invitationId = some i → NeverAccepted i.tokenHash db') ∧
    (∀ p i' db', createInvitation p db = .ok (some i', db') → ∀ i ∈ db.invitations,
      i.organizationId = p.organizationId → i.normalizedEmail = p.normalizedEmail → NeverAccepted i.tokenHash db') ∧
    (∀ p i db', revokeInvitation p db = .ok (some i, db') → NeverAccepted i.tokenHash db') ∧
    (∀ p view db', archiveOrganization p db = .ok (some view, db') → ∀ i ∈ db.invitations,
      i.organizationId = p.organizationId → NeverAccepted i.tokenHash db') := by
  have hheld := invitationsHeld_of_run h
  refine ⟨fun i hi hp => invitationTokenOf_isSome.1 (hheld.held i hi hp), fun p => ?_, fun p view db' haccept => ?_,
    fun p i' db' hresend i hi => neverAccepted_of_resend hheld hresend hi,
    fun p i' db' hcreate i hi => neverAccepted_of_create hheld hcreate hi,
    fun p i db' hrevoke => neverAccepted_of_revoke hheld hrevoke,
    fun p view db' harchive i hi => neverAccepted_of_archive hheld harchive hi⟩
  · rcases step_cases (c := .acceptInvitation p) rfl with hexec | hsame
    · obtain ⟨r, haccept⟩ := written_eq_ok.1 hexec
      exact (acceptInvitation_whole hheld haccept).imp And.right And.right
    · exact .inl hsame
  · rcases acceptInvitation_whole hheld haccept with ⟨hnone, -⟩ | ⟨-, hwhole⟩
    · cases hnone
    · exact ⟨hwhole, neverAccepted_of_accept hheld haccept⟩

def acceptOwn : AcceptInvitation where
  sessionId := ⟨2⟩
  tokenHash := [2]
  nowMs := 0
  uuids := uuidsFrom 300

theorem own_invitation_accepted_once : ∃ db view db', Reachable postgres db ∧
    acceptInvitation acceptOwn db = .ok (some view, db') ∧ AcceptedWhole acceptOwn db db' ∧
    acceptInvitation acceptOwn db' = .ok (none, db') := by
  obtain ⟨db, hreach, htest⟩ := exists_reachable_of_run postgres
    (foundAcme ++ [inviteToAcme "a@example.com" "owner" ⟨4⟩ ⟨102⟩ [2] 0])
    (fun db => (acceptInvitation acceptOwn db).toOption.any fun r => r.1.isSome) (by decide +kernel)
  obtain ⟨⟨r, db'⟩, hok, hsome⟩ := exists_ok_of_any htest
  obtain ⟨view, rfl⟩ := Option.isSome_iff_exists.1 hsome
  obtain ⟨hwhole, hnever⟩ := (invitations_of_run hreach).2.2.1 acceptOwn view db' hok
  exact ⟨db, view, db', hreach, hok, hwhole, hnever db' (.refl db') acceptOwn rfl⟩

end WasiAuth
