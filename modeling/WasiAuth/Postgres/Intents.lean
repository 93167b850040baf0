import Mathlib.Data.List.Pairwise
import WasiAuth.Base.Toggle
import WasiAuth.Postgres.Tenant

/-! # Relationship intents follow the memberships

`auth_track_membership_authorization` writes an intent whenever a membership becomes active or stops
being active, under the next authorization revision of its organization and with `ON CONFLICT
(deduplication_key) DO NOTHING`. Between statements the intents of one (organization, user) are therefore
the log of a switch whose position is "the membership is active" (`Tracked.log`). Inside a statement the
log lags behind the rows by the queued events, which is what `recordedActive` accounts for.

Nothing is lost to the conflict clause: an intent key determines organization, user and revision
(`intentKey_inj`), every stored revision is at most the organization's, and no mail key starts like an
intent key.
-/

namespace WasiAuth

variable {organization user : Uuid} {row : OutboxRow} {e : RowEvent}

open Relational Relation Transition

/-! ## Intents of one membership -/

/-- What a relationship row says of its tuple. -/
@[ext] structure Intent where
  operation : RelationshipOperation
  revision : Nat
deriving DecidableEq

def Intent.entry (i : Intent) : Toggle.Entry Nat := ⟨decide (i.operation = .grant), i.revision⟩

/-- The row as an intent of the membership of `user` in `organization`. -/
def OutboxRow.intent? (organization user : Uuid) (row : OutboxRow) : Option Intent :=
  match row.payload with
  | .relationship operation tuple revision =>
    if tuple = membershipTuple organization user then some ⟨operation, revision⟩ else none
  | .mail .. => none

def Db.insertedIntents (organization user : Uuid) (db : Db) : List Intent :=
  db.outbox.rows.filterMap (·.intent? organization user)

/-- The intents of a membership, in the order of their revisions. -/
def Db.intents (organization user : Uuid) (db : Db) : List Intent :=
  (db.insertedIntents organization user).insertionSort fun a b => a.revision ≤ b.revision

def Db.isActiveMember (organization user : Uuid) (db : Db) : Bool := (db.activeMembership organization user).isSome

theorem mem_insertedIntents {db : Db} {i : Intent} :
    i ∈ db.insertedIntents organization user ↔ ∃ row ∈ db.outbox, row.payload =
      .relationship i.operation (membershipTuple organization user) i.revision := by
  simp only [Db.insertedIntents, List.mem_filterMap, OutboxRow.intent?, Table.mem_def]
  refine exists_congr fun row => and_congr_right fun _ => ?_
  cases row.payload with
  | mail => simp
  | relationship operation tuple revision =>
    by_cases ht : tuple = membershipTuple organization user <;> simp [ht, Intent.ext_iff]

theorem membershipTuple_inj {o o' u u' : Uuid} (h : membershipTuple o u = membershipTuple o' u') : o = o' ∧ u = u' :=
  ⟨Uuid.text_inj (congrArg RelationshipTuple.resourceId h), Uuid.text_inj (congrArg RelationshipTuple.subjectId h)⟩

/-- The key of an intent tells its organization, its user and its revision. -/
theorem intentKey_inj {o o' u u' : Uuid} {r r' : Nat} {op op' : RelationshipOperation}
    (h : intentKey o u r op = intentKey o' u' r' op') : o = o' ∧ u = u' ∧ r = r' := by
  have hsep : ":".toList = [':'] := by simp
  unfold intentKey at h
  have hl := congrArg String.toList h
  simp only [String.toList_append, Uuid.toList_text, Nat.toList_repr, List.append_assoc, hsep,
    List.singleton_append] at hl
  generalize "relationship:organization:".toList = p, ":member:user:".toList = q at hl
  obtain ⟨ho, hl⟩ := List.append_inj (List.append_cancel_left hl) (by simp)
  obtain ⟨hu, hl⟩ := List.append_inj (List.append_cancel_left hl) (by simp)
  have hdigits (n : Nat) : ':' ∉ Nat.toDigits 10 n := Text.not_mem_toDigits (by decide) n
  obtain ⟨hr, -⟩ := Text.append_sep_inj (hdigits r) (hdigits r') (List.cons.inj hl).2
  exact ⟨Uuid.chars_inj ho, Uuid.chars_inj hu, Text.toDigits_inj hr⟩

theorem head?_intentKey (o u : Uuid) (r : Nat) (op : RelationshipOperation) :
    (intentKey o u r op).toList.head? = some 'r' := by
  have hhead : "relationship:organization:".toList = 'r' :: "elationship:organization:".toList := by simp
  unfold intentKey
  simp only [String.toList_append, hhead, List.cons_append, List.head?_cons]

/-! ## The invariant -/

/-- Whether the intents say that the membership is active: a queued event has not been recorded yet. -/
def recordedActive (queue : List RowEvent) (organization user : Uuid) (db : Db) : Bool :=
  match queue.find? fun e => decide (e.target.key = (organization, user)) with
  | some e => e.previousActive
  | none => db.isActiveMember organization user

/-- A relationship row carries the key of its own fields and a revision the organization has reached. -/
def Db.IntentPlaced (db : Db) (row : OutboxRow) (operation : RelationshipOperation) (tuple : RelationshipTuple)
    (revision : Nat) : Prop :=
  ∃ organization user o, tuple = membershipTuple organization user ∧
    row.deduplicationKey = intentKey organization user revision operation ∧
      db.organizations.find? organization = some o ∧ revision ≤ o.authorizationRevision

/-- As intents of one resource the rows have increasing revisions. -/
def OutboxRow.BeforeInResource (a b : OutboxRow) : Prop :=
  ∀ {op t r op' t' r'}, a.payload = .relationship op t r → b.payload = .relationship op' t' r' →
    t.resourceType = t'.resourceType → t.resourceId = t'.resourceId → r < r'

/-- The state of the intents while `queue` waits to be recorded. -/
structure Tracked (db : Db) (queue : List RowEvent) : Prop where
  log : ∀ organization user, Toggle.Log (recordedActive queue organization user db)
    ((db.insertedIntents organization user).map Intent.entry)
  placed : ∀ row ∈ db.outbox, ∀ {operation tuple revision},
    row.payload = .relationship operation tuple revision → db.IntentPlaced row operation tuple revision
  mail : ∀ row ∈ db.outbox, row.payload.kind = .mail → row.deduplicationKey.toList.head? ≠ some 'r'
  ordered : db.outbox.rows.Pairwise OutboxRow.BeforeInResource
  once : (queue.map fun e => e.target.key).Nodup
  current : ∀ e ∈ queue, e.target ∈ db.memberships ∧ e.currentActive = e.target.isActive

variable {db db' : Db} {st st' : Statement} {queue : List RowEvent} {clean : Prop}

theorem isActiveMember_of_mem {m : Membership} (hm : m ∈ db.memberships) :
    db.isActiveMember m.organizationId m.userId = m.isActive := by
  have hfind : db.memberships.find? (m.organizationId, m.userId) = some m := Table.find?_of_mem hm
  cases hact : m.isActive <;> simp [Db.isActiveMember, Db.activeMembership, hfind, Option.filter, hact]

theorem isActiveMember_of_find?_none
    (h : db.memberships.find? (organization, user) = none) : db.isActiveMember organization user = false := by
  simp [Db.isActiveMember, Db.activeMembership, h]

theorem isActiveMember_congr
    (h : db'.memberships.find? (organization, user) = db.memberships.find? (organization, user)) :
    db'.isActiveMember organization user = db.isActiveMember organization user := by
  simp only [Db.isActiveMember, Db.activeMembership, h]

theorem recordedActive_congr (h : db'.memberships = db.memberships) (organization user : Uuid) :
    recordedActive queue organization user db' = recordedActive queue organization user db := by
  simp only [recordedActive, isActiveMember_congr (congrArg (Table.find? (organization, user)) h)]

/-- The organizations of `db` are still there, at the same revision or a later one. -/
def RevisionsKept (db db' : Db) : Prop :=
  ∀ id o, db.organizations.find? id = some o →
    ∃ o', db'.organizations.find? id = some o' ∧ o.authorizationRevision ≤ o'.authorizationRevision

theorem Db.IntentPlaced.mono {operation : RelationshipOperation} {tuple : RelationshipTuple}
    {revision : Nat} (h : db.IntentPlaced row operation tuple revision) (hk : RevisionsKept db db') :
    db'.IntentPlaced row operation tuple revision := by
  obtain ⟨organization, user, o, ht, hkey, ho, hr⟩ := h
  obtain ⟨o', ho', hle⟩ := hk _ o ho
  exact ⟨organization, user, o', ht, hkey, ho', hr.trans hle⟩

theorem intent?_of_isNewMail (h : row.IsNewMail) (organization user : Uuid) :
    row.intent? organization user = none := by
  obtain ⟨_, _, _, _, _, rfl, _⟩ := h
  rfl

theorem OutboxRow.Redelivered.intent? {row' : OutboxRow} (h : row.Redelivered row') (organization user : Uuid) :
    row'.intent? organization user = row.intent? organization user := by
  simp only [OutboxRow.intent?, h.payload]

/-- Redelivered rows followed by new mail: the intents are the same. -/
def OnlyMailAdded (db db' : Db) : Prop :=
  ∃ (f : OutboxRow → OutboxRow) (new : List OutboxRow), db'.outbox.rows = db.outbox.rows.map f ++ new ∧
    (∀ row : OutboxRow, row.Redelivered (f row)) ∧ ∀ row ∈ new, row.IsNewMail

theorem OnlyMailAdded.insertedIntents (h : OnlyMailAdded db db') (organization user : Uuid) :
    db'.insertedIntents organization user = db.insertedIntents organization user := by
  obtain ⟨f, new, hrows, hf, hnew⟩ := h
  rw [Db.insertedIntents, hrows, List.filterMap_append, List.filterMap_map,
    List.filterMap_eq_nil_iff.2 fun row hrow => intent?_of_isNewMail (hnew row hrow) organization user, List.append_nil]
  exact List.filterMap_congr fun row _ => (hf row).intent? organization user

theorem OnlyMailAdded.mem (h : OnlyMailAdded db db') {row' : OutboxRow} (hrow' : row' ∈ db'.outbox) :
    row'.IsNewMail ∨ ∃ row ∈ db.outbox, row.Redelivered row' := by
  obtain ⟨f, new, hrows, hf, hnew⟩ := h
  rw [Table.mem_def, hrows, List.mem_append, List.mem_map] at hrow'
  rcases hrow' with ⟨row, hrow, rfl⟩ | hrow'
  · exact .inr ⟨row, hrow, hf row⟩
  · exact .inl (hnew row' hrow')

theorem OnlyMailAdded.ordered (h : OnlyMailAdded db db') (ho : db.outbox.rows.Pairwise OutboxRow.BeforeInResource) :
    db'.outbox.rows.Pairwise OutboxRow.BeforeInResource := by
  obtain ⟨f, new, hrows, hf, hnew⟩ := h
  -- a mail is an intent of no resource
  have hmail {a b : OutboxRow} (hb : b ∈ new) : a.BeforeInResource b := by
    obtain ⟨_, _, _, _, _, rfl, _⟩ := hnew b hb
    intro _ _ _ _ _ _ _ hpb
    cases hpb
  rw [hrows, List.pairwise_append, List.pairwise_map]
  refine ⟨ho.imp fun hab => ?_, List.pairwise_of_forall_mem_list fun _ _ _ hb => hmail hb, fun _ _ _ hb => hmail hb⟩
  unfold OutboxRow.BeforeInResource
  rw [(hf _).payload, (hf _).payload]
  exact hab

/-- Nothing is recorded, and no membership changes. -/
theorem Tracked.of_same_intents (h : Tracked db queue) (hm : db'.memberships = db.memberships)
    (hk : RevisionsKept db db') (ho : OnlyMailAdded db db') : Tracked db' queue where
  log organization user := by
    rw [recordedActive_congr hm, ho.insertedIntents]
    exact h.log organization user
  placed row' hrow' operation tuple revision hpay := by
    rcases ho.mem hrow' with ⟨_, _, _, _, _, rfl, _⟩ | ⟨row, hrow, hsame⟩
    · cases hpay
    · have hplaced := (h.placed row hrow (hsame.payload ▸ hpay)).mono hk
      simpa only [Db.IntentPlaced, hsame.deduplicationKey] using hplaced
  mail row' hrow' hkind := by
    rcases ho.mem hrow' with ⟨_, _, _, _, _, rfl, hhead⟩ | ⟨row, hrow, hsame⟩
    · exact hhead
    · rw [hsame.deduplicationKey]
      exact h.mail row hrow (hsame.payload ▸ hkind)
  ordered := ho.ordered h.ordered
  once := h.once
  current e he := hm ▸ h.current e he

theorem KeepsMembers.revisionsKept (h : KeepsMembers db db') : RevisionsKept db db' := by
  intro id o ho
  obtain ⟨o', ho', hadv⟩ := h.organization_of_before ho
  exact ⟨o', ho', hadv.revision⟩

theorem Tracked.of_quiet (h : Tracked db queue) (hq : Quiet db db') : Tracked db' queue := by
  obtain ⟨new, hrows, hnew⟩ := hq.outbox
  refine h.of_same_intents hq.memberships hq.revisionsKept ⟨id, new, ?_, fun _ => ⟨rfl, rfl, rfl⟩, hnew⟩
  rw [hrows, List.map_id]

theorem Tracked.of_delivery (h : Tracked db queue) (hd : Delivery db db') : Tracked db' queue := by
  obtain ⟨f, hrows, hf⟩ := hd.rows
  refine h.of_same_intents (by rw [hd.others]) (fun id o ho => ⟨o, by rw [hd.others]; exact ho, le_rfl⟩)
    ⟨f, [], ?_, hf, by simp⟩
  rw [hrows, List.append_nil]

theorem Tracked.of_revisionsKept (h : Tracked db queue) (hm : db'.memberships = db.memberships)
    (ho : db'.outbox = db.outbox) (hk : RevisionsKept db db') : Tracked db' queue :=
  h.of_same_intents hm hk ⟨id, [], by rw [ho]; simp, fun _ => ⟨rfl, rfl, rfl⟩, by simp⟩

theorem Recounted.revisionsKept (h : Recounted st st') : RevisionsKept st.db st'.db := by
  intro id o ho
  obtain ⟨count, hcount⟩ := h.organizations
  exact ⟨{ o with ownerCount := count o }, by rw [hcount, ho]; rfl, le_rfl⟩

/-! ## A membership write queues its event -/

theorem find?_congr {memberships memberships' : Table Membership.key} {k : Uuid × Uuid}
    (h : ∀ m : Membership, m.key = k → (m ∈ memberships' ↔ m ∈ memberships)) :
    memberships'.find? k = memberships.find? k := by
  refine Option.ext fun m => ?_
  rw [Table.find?_eq_some, Table.find?_eq_some]
  exact ⟨fun ⟨hm, hk⟩ => ⟨(h m hk).1 hm, hk⟩, fun ⟨hm, hk⟩ => ⟨(h m hk).2 hm, hk⟩⟩

/-- A membership is written and its event queued. -/
theorem Tracked.enqueue (h : Tracked db queue) (hfresh : ∀ f ∈ queue, f.target.key ≠ e.target.key)
    (hprev : e.previousActive = db.isActiveMember e.target.organizationId e.target.userId)
    (hcur : e.currentActive = e.target.isActive) (hmem : e.target ∈ db'.memberships)
    (hothers : ∀ m : Membership, m.key ≠ e.target.key → (m ∈ db'.memberships ↔ m ∈ db.memberships))
    (hout : db'.outbox = db.outbox) (hk : RevisionsKept db db') : Tracked db' (queue ++ [e]) where
  log organization user := by
    have hsame : recordedActive (queue ++ [e]) organization user db' = recordedActive queue organization user db := by
      simp only [recordedActive, List.find?_append]
      cases hf : queue.find? fun f => decide (f.target.key = (organization, user)) with
      | some f => rfl
      | none =>
        by_cases hkey : e.target.key = (organization, user)
        · obtain ⟨rfl, rfl⟩ : e.target.organizationId = organization ∧ e.target.userId = user := by
            simpa [Membership.key] using hkey
          simp [Membership.key, hprev]
        · have hother : db'.isActiveMember organization user = db.isActiveMember organization user :=
            isActiveMember_congr (find?_congr fun m hm => hothers m (hm ▸ Ne.symm hkey))
          simp [hkey, hother]
    rw [hsame, Db.insertedIntents, hout]
    exact h.log organization user
  placed row hrow _ _ _ hpay := (h.placed row (hout ▸ hrow) hpay).mono hk
  mail row hrow hkind := h.mail row (hout ▸ hrow) hkind
  ordered := hout ▸ h.ordered
  once := by
    rw [List.map_append, List.nodup_append]
    refine ⟨h.once, List.nodup_singleton _, ?_⟩
    intro k hk k' hk' he
    obtain ⟨f, hf, rfl⟩ := List.mem_map.1 hk
    obtain rfl := List.mem_singleton.1 hk'
    exact hfresh f hf he
  current f hf := by
    rcases List.mem_append.1 hf with hf | hf
    · exact ⟨(hothers _ (hfresh f hf)).2 (h.current f hf).1, (h.current f hf).2⟩
    · rw [List.mem_singleton.1 hf]
      exact ⟨hmem, hcur⟩

theorem Tracked.insert {new : Membership} (h : Tracked st.db st.afterRows) (hins : st.insertMembership new = .ok st') :
    Tracked st'.db st'.afterRows := by
  obtain ⟨st₁, memberships, hadj, hm, rfl⟩ := insertMembership_eq_ok hins
  have hcounted := recounted_of_adjustOwnerCount hadj
  have hnone : st.db.memberships.find? new.key = none := (Table.insertOr_eq_ok hm).1
  simp only [Statement.writeMembership, hcounted.afterRows]
  refine h.enqueue (fun f hf he => ?_) (isActiveMember_of_find?_none hnone).symm rfl
    ((Table.mem_of_insertOr hm).2 (.inr rfl)) (fun m hk => ?_) (by rw [hcounted.others]) hcounted.revisionsKept
  · exact Table.find?_eq_none.1 hnone _ (h.current f hf).1 he
  · refine (Table.mem_of_insertOr hm).trans (or_iff_left ?_)
    rintro rfl
    exact hk rfl

theorem Tracked.update {old new : Membership} (h : Tracked st.db st.afterRows) (hold : old ∈ st.db.memberships)
    (hkey : new.key = old.key) (hfresh : ∀ e ∈ st.afterRows, e.target.key ≠ new.key)
    (hupd : st.updateMembership old new = .ok st') : Tracked st'.db st'.afterRows := by
  obtain ⟨st₁, hadj, rfl⟩ := updateMembership_eq_ok hupd
  have hcounted := recounted_of_adjustOwnerCount hadj
  simp only [Statement.writeMembership, hcounted.afterRows]
  refine h.enqueue hfresh ?_ rfl (Table.mem_set.2 (.inr ⟨rfl, old, hold, hkey.symm⟩)) (fun m hk => ?_)
    (by rw [hcounted.others]) hcounted.revisionsKept
  · obtain ⟨horg, huser⟩ : new.organizationId = old.organizationId ∧ new.userId = old.userId := by
      simpa [Membership.key] using hkey
    simp only [RowEvent.previousActive, RowEvent.target, horg, huser, isActiveMember_of_mem hold]
  · refine Table.mem_set.trans ?_
    constructor
    · rintro (⟨hm, -⟩ | ⟨rfl, -⟩)
      · exact hm
      · exact absurd rfl hk
    · exact fun hm => .inl ⟨hm, hk⟩

/-- Every step of a statement keeps the log, with the queue it leaves. -/
theorem Tracked.step (h : Tracked st.db st.afterRows) (hs : Statement.Step clean st st') :
    Tracked st'.db st'.afterRows := by
  cases hs with
  | routine hr => exact h.of_quiet hr.quiet
  | create hn hins =>
    obtain ⟨_, _, _, ho, -, rfl⟩ := insertOrganization_eq_ok hins
    exact h.of_revisionsKept rfl rfl fun id o hfind => ⟨o, Table.find?_insertOr_of_some ho hfind, le_rfl⟩
  | insert _ hins => exact h.insert hins
  | update hupd hold hkey hfresh => exact h.update hold hkey hfresh hupd
  | propose _ hadj =>
    have hcounted := recounted_of_adjustOwnerCount hadj
    rw [hcounted.afterRows]
    exact h.of_revisionsKept hcounted.memberships (by rw [hcounted.others]) hcounted.revisionsKept

theorem Tracked.steps (h : Tracked st.db st.afterRows) (hs : ReflTransGen (Statement.Step clean) st st') :
    Tracked st'.db st'.afterRows := by
  induction hs with
  | refl => exact h
  | tail _ hstep ih => exact ih.step hstep

/-! ## The trigger records the event -/

theorem recordedActive_cons_self :
    recordedActive (e :: queue) e.target.organizationId e.target.userId db = e.previousActive := by
  simp [recordedActive, Membership.key]

theorem recordedActive_cons_ne
    (hne : e.target.key ≠ (organization, user)) :
    recordedActive (e :: queue) organization user db = recordedActive queue organization user db := by
  simp [recordedActive, hne]

/-- Once its event has left the queue, the log must have caught up with the row. -/
theorem Tracked.recordedActive_tail (h : Tracked db (e :: queue)) :
    recordedActive queue e.target.organizationId e.target.userId db = e.currentActive := by
  have hnone : queue.find? (fun f => decide (f.target.key = (e.target.organizationId, e.target.userId))) = none := by
    refine List.find?_eq_none.2 fun f hf he => (List.nodup_cons.1 h.once).1 ?_
    exact List.mem_map.2 ⟨f, hf, of_decide_eq_true he⟩
  obtain ⟨hmem, hcur⟩ := h.current e (by simp)
  rw [recordedActive, hnone, hcur]
  exact isActiveMember_of_mem hmem

/-- An event that does not change whether the membership is active leaves the queue without an intent. -/
theorem Tracked.dequeue (h : Tracked db (e :: queue)) (hsame : e.previousActive = e.currentActive) :
    Tracked db queue where
  log organization user := by
    have hlog := h.log organization user
    by_cases hkey : e.target.key = (organization, user)
    · obtain ⟨rfl, rfl⟩ : e.target.organizationId = organization ∧ e.target.userId = user := by
        simpa [Membership.key] using hkey
      rwa [recordedActive_cons_self, hsame, ← h.recordedActive_tail] at hlog
    · rwa [recordedActive_cons_ne hkey] at hlog
  placed := h.placed
  mail := h.mail
  ordered := h.ordered
  once := (List.nodup_cons.1 h.once).2
  current f hf := h.current f (by simp [hf])

theorem previousActive_of_unchanged (h : e.unchanged = true) : e.previousActive = e.currentActive := by
  cases e with
  | update old new =>
    have hstatus : old.status = new.status := by
      simp only [RowEvent.unchanged, decide_eq_true_eq] at h
      exact h.2
    simp only [RowEvent.previousActive, RowEvent.currentActive, Membership.isActive, hstatus]
  | insert | delete => cases h

theorem find?_bump {o : Organization} {id : Uuid} (ho : db.organizations.find? id = some o) (revision : Nat) :
    (db.setOrganization { o with authorizationRevision := revision }).organizations.find? id =
      some { o with authorizationRevision := revision } := by
  obtain ⟨hmem, rfl⟩ := Table.find?_eq_some.1 ho
  have hfind : db.organizations.find? o.organizationId = some o := Table.find?_of_mem hmem
  exact Table.find?_set_self (r := { o with authorizationRevision := revision }) hfind

/-- No intent of a later revision is stored yet. -/
theorem Tracked.key_free (h : Tracked db queue) {revision : Nat}
    (hr : ∀ o, db.organizations.find? organization = some o → o.authorizationRevision < revision)
    (operation : RelationshipOperation) :
    db.hasDeduplicationKey (intentKey organization user revision operation) = false := by
  refine List.any_eq_false.2 fun row hrow he => ?_
  have hkey : row.deduplicationKey = intentKey organization user revision operation := of_decide_eq_true he
  cases hpay : row.payload with
  | mail =>
    refine h.mail row hrow (by rw [hpay]; rfl) ?_
    rw [hkey]
    exact head?_intentKey organization user revision operation
  | relationship operation' tuple revision' =>
    obtain ⟨organization', user', o', -, hkey', ho', hle⟩ := h.placed row hrow hpay
    obtain ⟨rfl, -, rfl⟩ := intentKey_inj (hkey.symm.trans hkey')
    exact absurd hle (Nat.not_le.2 (hr o' ho'))

theorem insertOutboxOnce_of_free (hfree : db.hasDeduplicationKey row.deduplicationKey = false)
    (h : db.insertOutboxOnce row = .ok db') :
    ∃ outbox, db.outbox.insertOr SqlError.uniqueViolation row = .ok outbox ∧ db' = { db with outbox := outbox } := by
  simp only [Db.insertOutboxOnce, hfree, Bool.false_eq_true, if_false] at h
  obtain ⟨outbox, hins, h⟩ := bind_eq_ok.1 h
  cases h
  exact ⟨outbox, hins, rfl⟩

theorem insertedIntents_append (hrows : db'.outbox.rows = db.outbox.rows ++ [row])
    (organization user : Uuid) : db'.insertedIntents organization user =
      db.insertedIntents organization user ++ (row.intent? organization user).toList := by
  rw [Db.insertedIntents, hrows, List.filterMap_append]
  cases hi : row.intent? organization user <;> simp [Db.insertedIntents, hi]

theorem Tracked.revision_le (h : Tracked db queue) {i : Intent}
    (hi : i ∈ db.insertedIntents organization user) :
    ∃ o, db.organizations.find? organization = some o ∧ i.revision ≤ o.authorizationRevision := by
  obtain ⟨row, hrow, hpay⟩ := mem_insertedIntents.1 hi
  obtain ⟨organization', user', o, ht, -, ho, hle⟩ := h.placed row hrow hpay
  obtain ⟨rfl, -⟩ := membershipTuple_inj ht
  exact ⟨o, ho, hle⟩

/-- The recorded intent continues the log of its member. -/
theorem Tracked.log_record {o : Organization} (h : Tracked db (e :: queue))
    (hflip : e.previousActive ≠ e.currentActive)
    (ho : db.organizations.find? e.target.organizationId = some o)
    (hpay : row.payload = .relationship (if e.currentActive then .grant else .revoke)
      (membershipTuple e.target.organizationId e.target.userId) (o.authorizationRevision + 1))
    (hm : db'.memberships = db.memberships) (hrows : db'.outbox.rows = db.outbox.rows ++ [row])
    (organization user : Uuid) :
    Toggle.Log (recordedActive queue organization user db')
      ((db'.insertedIntents organization user).map Intent.entry) := by
  have hlog := h.log organization user
  rw [recordedActive_congr hm, insertedIntents_append hrows, List.map_append]
  by_cases hkey : e.target.key = (organization, user)
  · obtain ⟨rfl, rfl⟩ : e.target.organizationId = organization ∧ e.target.userId = user := by
      simpa [Membership.key] using hkey
    have hcur : e.currentActive = !e.previousActive := by
      revert hflip
      cases e.previousActive <;> cases e.currentActive <;> simp
    have hentry : (row.intent? e.target.organizationId e.target.userId).toList.map Intent.entry =
        [⟨!e.previousActive, o.authorizationRevision + 1⟩] := by
      rw [← hcur]
      cases hact : e.currentActive <;> simp [OutboxRow.intent?, hpay, hact, Intent.entry]
    rw [recordedActive_cons_self] at hlog
    rw [h.recordedActive_tail, hcur, hentry]
    refine hlog.flip fun entry hentry => ?_
    obtain ⟨i, hi, rfl⟩ := List.mem_map.1 hentry
    obtain ⟨o', ho', hle⟩ := h.revision_le hi
    obtain rfl : o' = o := Option.some.inj (ho'.symm.trans ho)
    exact Nat.lt_succ_of_le hle
  · have hnone : row.intent? organization user = none := by
      have hne : membershipTuple e.target.organizationId e.target.userId ≠ membershipTuple organization user := by
        intro ht
        obtain ⟨h₁, h₂⟩ := membershipTuple_inj ht
        exact hkey (Prod.ext h₁ h₂)
      simp [OutboxRow.intent?, hpay, hne]
    rw [recordedActive_cons_ne hkey] at hlog
    simpa [hnone] using hlog

theorem Tracked.ordered_record {o : Organization}
    {operation : RelationshipOperation} (h : Tracked db queue) (ho : db.organizations.find? organization = some o)
    (hpay : row.payload =
      .relationship operation (membershipTuple organization user) (o.authorizationRevision + 1))
    (hrows : db'.outbox.rows = db.outbox.rows ++ [row]) :
    db'.outbox.rows.Pairwise OutboxRow.BeforeInResource := by
  rw [hrows, List.pairwise_append]
  refine ⟨h.ordered, List.pairwise_singleton _ _, fun a ha b hb => ?_⟩
  rw [List.mem_singleton.1 hb]
  intro op t r op' t' r' hpa hpb _ hid
  rw [hpay] at hpb
  cases hpb
  obtain ⟨organization', user', o', rfl, -, ho', hle⟩ := h.placed a ha hpa
  obtain rfl : organization' = organization := Uuid.text_inj hid
  obtain rfl : o' = o := Option.some.inj (ho'.symm.trans ho)
  exact Nat.lt_succ_of_le hle

/-- **The trigger records the first queued event**: as an intent when it changes whether the membership is
active, otherwise by dropping it. -/
theorem Tracked.track {outboxId : Uuid} (h : Tracked db (e :: queue))
    (ht : db.trackMembershipAuthorization outboxId e = .ok db') : Tracked db' queue := by
  unfold Db.trackMembershipAuthorization at ht
  split at ht
  · rename_i hunchanged
    cases ht
    exact h.dequeue (previousActive_of_unchanged hunchanged)
  · split at ht
    · cases ht
    · rename_i o ho
      have hbump := (Routine.bumpOrganization ho).quiet.revisionsKept
      dsimp only at ht
      split at ht
      · rename_i hsame
        cases ht
        exact (h.dequeue hsame).of_revisionsKept rfl rfl hbump
      · rename_i hflip
        have hnext (o' : Organization) (ho' : db.organizations.find? e.target.organizationId = some o') :
            o'.authorizationRevision < o.authorizationRevision + 1 := by
          cases ho.symm.trans ho'
          exact Nat.lt_succ_self _
        obtain ⟨outbox, hins, rfl⟩ := insertOutboxOnce_of_free (h.key_free hnext _) ht
        have hrows := (Table.insertOr_eq_ok hins).2
        have hmem (row : OutboxRow) (hrow : row ∈ outbox) : row ∈ db.outbox ∨ row = _ :=
          (Table.mem_of_insertOr hins).1 hrow
        refine ⟨h.log_record hflip ho rfl rfl hrows, fun row hrow op tuple revision hpay => ?_,
          fun row hrow hkind => ?_, h.ordered_record ho rfl hrows, (List.nodup_cons.1 h.once).2,
          fun f hf => h.current f (by simp [hf])⟩
        · rcases hmem row hrow with hrow | rfl
          · exact (h.placed row hrow hpay).mono hbump
          · cases hpay
            exact ⟨_, _, _, rfl, rfl, find?_bump ho _, le_rfl⟩
        · rcases hmem row hrow with hrow | rfl
          · exact h.mail row hrow hkind
          · cases hkind

/-- Once the queue has fired, every change is recorded. -/
theorem Tracked.fire : ∀ {queue : List RowEvent} {uuids : Nat → Uuid} {db : Db}, Tracked db queue →
    db.fireAfterRows uuids queue = .ok db' → Tracked db' []
  | [], _, _, h, hf => by cases hf; exact h
  | _ :: _, _, _, h, hf => by
    obtain ⟨db₁, ht, hf⟩ := bind_eq_ok.1 hf
    exact (h.track ht).fire hf

/-! ## Every run -/

theorem Tracked.next {c : Command} (h : Tracked db []) (hn : postgres.next db c = some db') : Tracked db' [] := by
  rcases step_changes hn with (hr | ⟨hw, hcommit⟩) | ⟨-, hd⟩
  · exact h.of_quiet hr.quiet
  · have hqueued := Tracked.steps h hw
    exact hqueued.fire (commit_eq_ok hcommit).1
  · exact h.of_delivery hd

theorem tracked_empty : Tracked Db.empty [] where
  log _ _ := .nil
  placed row hrow := absurd hrow (Table.not_mem_empty row)
  mail row hrow := absurd hrow (Table.not_mem_empty row)
  ordered := List.Pairwise.nil
  once := List.nodup_nil
  current _ he := absurd he List.not_mem_nil

theorem tracked_of_reachable (h : Reachable postgres db) : Tracked db [] :=
  h.invariant (I := (Tracked · [])) tracked_empty fun hs _ hn => hs.next hn

theorem Tracked.pairwise (h : Tracked db queue) (organization user : Uuid) :
    (db.insertedIntents organization user).Pairwise fun a b => a.revision < b.revision := by
  have hpair := (h.log organization user).pairwise
  rwa [List.pairwise_map] at hpair

theorem Tracked.intents_eq (h : Tracked db queue) (organization user : Uuid) :
    db.intents organization user = db.insertedIntents organization user :=
  List.Pairwise.insertionSort_eq ((h.pairwise organization user).imp fun hlt => le_of_lt hlt)

theorem Tracked.ordered_or (h : Tracked db queue) {a b : OutboxRow} (ha : a ∈ db.outbox) (hb : b ∈ db.outbox)
    (hne : a ≠ b) : a.BeforeInResource b ∨ b.BeforeInResource a := by
  have hpair : db.outbox.rows.Pairwise fun a b => a.BeforeInResource b ∨ b.BeforeInResource a :=
    h.ordered.imp fun hab => .inl hab
  have : Std.Symm fun a b : OutboxRow => a.BeforeInResource b ∨ b.BeforeInResource a := ⟨fun _ _ hor => hor.symm⟩
  exact hpair.forall ha hb hne

theorem insertedIntents_eq_nil_of_grows (h : OutboxGrows db db')
    (hnil : db'.insertedIntents organization user = []) : db.insertedIntents organization user = [] := by
  obtain ⟨f, new, hrows, hf⟩ := h
  rw [Db.insertedIntents, hrows, List.filterMap_append, List.append_eq_nil_iff, List.filterMap_map] at hnil
  rw [Db.insertedIntents, ← hnil.1]
  exact List.filterMap_congr fun row _ => ((hf row).intent? organization user).symm

/-- **The intents follow the membership.** Ordered by revision they alternate, beginning with a grant; the
revisions are strictly increasing and reached by the organization; the last one is a grant exactly when the
membership is active; and a membership without intents has not been active at any earlier point of the run. -/
theorem intents_follow_membership (h : Reachable postgres db) (organization user : Uuid) :
    (∀ i intent, (db.intents organization user)[i]? = some intent →
        intent.operation = if i % 2 = 0 then .grant else .revoke) ∧
      (db.intents organization user).Pairwise (fun a b => a.revision < b.revision) ∧
      (∀ intent ∈ db.intents organization user, ∃ o, db.organizations.find? organization = some o ∧
        intent.revision ≤ o.authorizationRevision) ∧
      ((db.intents organization user).getLast?.map (·.operation) = some .grant ↔
        db.isActiveMember organization user = true) ∧
      (db.intents organization user = [] → ∀ earlier, Reachable postgres earlier →
        Steps postgres anyStep earlier db → earlier.isActiveMember organization user = false) := by
  have ht := tracked_of_reachable h
  have hlog := ht.log organization user
  rw [ht.intents_eq]
  refine ⟨fun i intent hi => ?_, ht.pairwise organization user, fun intent hi => ht.revision_le hi, ?_, ?_⟩
  · have hentry : decide (intent.operation = .grant) = decide (i % 2 = 0) :=
      hlog.alternates (e := intent.entry) (by simp [hi])
    by_cases heven : i % 2 = 0
    · simpa [heven] using hentry
    · cases hop : intent.operation <;> simp_all
  · have hlast := hlog.getLast?
    rw [List.getLast?_map] at hlast
    change _ = db.isActiveMember organization user at hlast
    rw [← hlast]
    cases (db.insertedIntents organization user).getLast? with
    | none => simp
    | some intent => simp [Intent.entry]
  · intro hnil earlier hearlier hrun
    have hlog' := (tracked_of_reachable hearlier).log organization user
    rw [insertedIntents_eq_nil_of_grows (.of_run hrun) hnil] at hlog'
    exact hlog'.getLast?.symm

/-- The second user leaves and accepts another invitation. -/
def rejoinAcme : List Command :=
  [.leaveOrganization { sessionId := ⟨12⟩, organizationId := ⟨3⟩, nowMs := 1, uuids := uuidsFrom 310 },
    inviteToAcme "b@example.com" "member" ⟨15⟩ ⟨113⟩ [13] 2,
    .acceptInvitation { sessionId := ⟨12⟩, tokenHash := [13], nowMs := 2, uuids := uuidsFrom 320 }]

theorem rejoined_intents : ∃ db, Reachable postgres db ∧
    db.intents ⟨3⟩ ⟨11⟩ = [⟨.grant, 3⟩, ⟨.revoke, 4⟩, ⟨.grant, 5⟩] ∧
    (db.intents ⟨3⟩ ⟨11⟩).Pairwise (fun a b => a.revision < b.revision) ∧ db.isActiveMember ⟨3⟩ ⟨11⟩ = true := by
  obtain ⟨db, hreach, htest⟩ := exists_reachable_of_run postgres (foundAcme ++ joinAcme ++ rejoinAcme)
    (fun db => decide (db.intents ⟨3⟩ ⟨11⟩ = [⟨.grant, 3⟩, ⟨.revoke, 4⟩, ⟨.grant, 5⟩])) (by decide +kernel)
  have hintents := of_decide_eq_true htest
  obtain ⟨-, hincreasing, -, hlast, -⟩ := intents_follow_membership hreach ⟨3⟩ ⟨11⟩
  exact ⟨db, hreach, hintents, hincreasing, hlast.1 (by rw [hintents]; rfl)⟩

end WasiAuth
