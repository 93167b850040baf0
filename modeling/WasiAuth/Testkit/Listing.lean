import WasiAuth.Testkit.Decisions

/-! # Listing the objects of a tenant

A check in a context with a tenant reads the tuples of that tenant and those without one (`check_of_agrees`).
`list_objects` takes its candidates from all tuples: a tuple of another tenant adds its object to the candidates, and
the check of that object can allow it through a condition, or fail. What it answers is then the same for every such
object (`check_of_strangers`). `listObjects_eq_iff` says when two tuple sets that agree on what the tenant may see are
listed the same.
-/

namespace WasiAuth.Testkit.Evaluator

open Relational

/-! ## Sets in order -/

section BTreeSet
variable {α : Type} [DecidableEq α] [LE α] [DecidableLE α] [Std.Total (α := α) (· ≤ ·)] [IsTrans α (· ≤ ·)]
  [Std.Antisymm (α := α) (· ≤ ·)]

theorem filter_btreeSet_eq_iff {p : α → Bool} {a b : List α} :
    (btreeSet a).filter p = (btreeSet b).filter p ↔ ∀ x, p x = true → (x ∈ a ↔ x ∈ b) := by
  have hmem : ∀ {l x}, x ∈ (btreeSet l).filter p ↔ x ∈ l ∧ p x = true := by simp [mem_btreeSet]
  have hnodup : ∀ l, ((btreeSet l).filter p).Nodup := fun l =>
    ((List.perm_insertionSort _ _).nodup_iff.2 (List.nodup_dedup l)).filter p
  have hsorted : ∀ l, ((btreeSet l).filter p).Pairwise (· ≤ ·) := fun l =>
    (List.pairwise_insertionSort _ _).filter p
  constructor
  · intro h x hx
    have hiff : x ∈ (btreeSet a).filter p ↔ x ∈ (btreeSet b).filter p := by rw [h]
    simpa only [hmem, hx, and_true] using hiff
  · intro h
    refine ((List.perm_ext_iff_of_nodup (hnodup a) (hnodup b)).2 fun x => ?_).eq_of_pairwise
      (fun _ _ _ _ => antisymm) (hsorted a) (hsorted b)
    rw [hmem, hmem]
    constructor
    · rintro ⟨hx, hp⟩
      exact ⟨(h x hp).1 hx, hp⟩
    · rintro ⟨hx, hp⟩
      exact ⟨(h x hp).2 hx, hp⟩

end BTreeSet

/-! ## A loop that keeps what passes -/

section FilterM
variable {ε α : Type} {f : α → Except ε Bool}

def firstError (f : α → Except ε Bool) : List α → Option ε
  | [] => none
  | a :: l =>
    match f a with
    | .error error => some error
    | .ok _ => firstError f l

def passes (f : α → Except ε Bool) (a : α) : Bool := (f a).toOption.any id

theorem filterAuxM_eq : ∀ (l acc : List α), l.filterAuxM f acc =
    match firstError f l with
    | some error => .error error
    | none => .ok ((l.filter (passes f)).reverse ++ acc)
  | [], acc => rfl
  | a :: l, acc => by
    have ih := fun b => filterAuxM_eq l (cond b (a :: acc) acc)
    rw [List.filterAuxM, firstError]
    rcases ha : f a with error | b
    · rfl
    · have hpasses : passes f a = b := by simp [passes, ha, Except.toOption]
      rw [List.filter_cons, hpasses, ok_bind]
      cases b with
      | false => exact ih false
      | true => simpa using ih true

theorem filterM_eq (l : List α) : l.filterM f =
    match firstError f l with
    | some error => .error error
    | none => .ok (l.filter (passes f)) := by
  rw [List.filterM, filterAuxM_eq]
  cases firstError f l with
  | some error => rfl
  | none => simp [pure, Except.pure, bind, Except.bind]

theorem passes_iff {a : α} : passes f a = true ↔ f a = .ok true := by
  rw [passes]
  rcases f a with _ | b
  · simp [Except.toOption]
  · simp [Except.toOption]

theorem exists_ok_of_firstError {l : List α} (h : firstError f l = none) : ∀ x ∈ l, ∃ b, f x = .ok b := by
  induction l with
  | nil => exact nofun
  | cons y l ih =>
    rw [firstError] at h
    rcases hy : f y with error | b
    · simp [hy] at h
    · rw [hy] at h
      exact List.forall_mem_cons.2 ⟨⟨b, hy⟩, ih h⟩

variable [LE α] {p q : α → Prop} {x y : α} {error : ε}

/-- The first of the elements at which the function fails. -/
structure FailsFirst (f : α → Except ε Bool) (p : α → Prop) (x : α) : Prop where
  mem : p x
  fails : ∃ error, f x = .error error
  first : ∀ y error, p y → f y = .error error → x ≤ y

/-- An element of the first set that is not in the second makes no difference: the function refuses it, or fails in the
second set anyway; and if it fails at the element itself, then before it in the second set or with the same error. -/
def Covered (f : α → Except ε Bool) (p q : α → Prop) : Prop :=
  ∀ x, p x → ¬q x → f x = .ok false ∨
    ∃ y, FailsFirst f q y ∧ ∀ error, f x = .error error → y ≤ x ∨ f y = f x

theorem not_failsFirst (hok : ∀ x, p x → ∃ b, f x = .ok b) : ¬FailsFirst f p x := by
  intro hx
  obtain ⟨error, hfx⟩ := hx.fails
  obtain ⟨b, hb⟩ := hok x hx.mem
  rw [hfx] at hb
  cases hb

/-- Only one of the sets fails. -/
theorem not_covered (hx : FailsFirst f p x) (hok : ∀ y, q y → ∃ b, f y = .ok b) : ¬Covered f p q := by
  intro hcovered
  obtain ⟨error, hfx⟩ := hx.fails
  have hnot : ¬q x := by
    intro hqx
    obtain ⟨b, hb⟩ := hok x hqx
    rw [hfx] at hb
    cases hb
  rcases hcovered x hx.mem hnot with hdenied | ⟨y, hy, -⟩
  · rw [hfx] at hdenied
    cases hdenied
  · exact not_failsFirst hok hy

/-- None of the sets fails. -/
theorem covered_iff (hp : ∀ x, p x → ∃ b, f x = .ok b) (hq : ∀ x, q x → ∃ b, f x = .ok b) :
    Covered f p q ↔ ∀ x, passes f x = true → p x → q x := by
  constructor
  · intro h x hpasses hx
    by_contra hnot
    rcases h x hx hnot with hdenied | ⟨y, hy, -⟩
    · rw [passes_iff.1 hpasses] at hdenied
      cases hdenied
    · exact not_failsFirst hq hy
  · intro h x hx hnot
    obtain ⟨passed, hb⟩ := hp x hx
    cases passed with
    | false => exact .inl hb
    | true => exact absurd (h x (passes_iff.2 hb) hx) hnot

theorem covered_of_same [IsTrans α (· ≤ ·)]
    (huniform : ∀ x y, ¬(p x ↔ q x) → ¬(p y ↔ q y) → f x = f y)
    (hx : FailsFirst f p x) (hy : FailsFirst f q y) (hsame : f x = f y) : Covered f p q := by
  intro z hz hnot
  refine .inr ⟨y, hy, fun error hfz => ?_⟩
  by_cases hqx : q x
  · obtain ⟨errorX, hfx⟩ := hx.fails
    exact .inl (IsTrans.trans _ _ _ (hy.first x errorX hqx hfx) (hx.first z error hz hfz))
  · exact .inr (hsame.symm.trans (huniform x z (by simp [hx.mem, hqx]) (by simp [hz, hnot])))

variable [Std.Antisymm (α := α) (· ≤ ·)]

theorem FailsFirst.unique (hx : FailsFirst f p x) (hy : FailsFirst f p y) : x = y := by
  obtain ⟨errorX, hfx⟩ := hx.fails
  obtain ⟨errorY, hfy⟩ := hy.fails
  exact antisymm (hx.first y errorY hy.mem hfy) (hy.first x errorX hx.mem hfx)

theorem firstError_eq_some_iff {l : List α} (hsorted : l.Pairwise (· ≤ ·)) [Std.Refl (α := α) (· ≤ ·)] :
    firstError f l = some error ↔ ∃ x, FailsFirst f (· ∈ l) x ∧ f x = .error error := by
  induction l with
  | nil => exact iff_of_false nofun fun ⟨x, hx, _⟩ => nomatch hx.mem
  | cons a l ih =>
    obtain ⟨hle, hsorted⟩ := List.pairwise_cons.1 hsorted
    rw [firstError]
    rcases ha : f a with errorA | b
    · have hfirst : FailsFirst f (· ∈ a :: l) a := by
        refine ⟨List.mem_cons_self, ⟨errorA, ha⟩, fun y error hy _ => ?_⟩
        rcases List.mem_cons.1 hy with rfl | hy
        · exact refl y
        · exact hle y hy
      constructor
      · intro h
        cases h
        exact ⟨a, hfirst, ha⟩
      · rintro ⟨x, hx, hfx⟩
        cases hx.unique hfirst
        rw [ha] at hfx
        cases hfx
        rfl
    · -- the head does not fail, so the first failure is one of the tail
      rw [ih hsorted]
      have hne : ∀ {y error}, f y = .error error → y ≠ a := by
        rintro y error hfy rfl
        rw [ha] at hfy
        cases hfy
      constructor
      · rintro ⟨x, hx, hfx⟩
        refine ⟨x, ⟨List.mem_cons_of_mem _ hx.mem, hx.fails, fun y error hy hfy => ?_⟩, hfx⟩
        exact hx.first y error ((List.mem_cons.1 hy).resolve_left (hne hfy)) hfy
      · rintro ⟨x, hx, hfx⟩
        refine ⟨x, ⟨(List.mem_cons.1 hx.mem).resolve_left (hne hfx), hx.fails, fun y error hy hfy => ?_⟩, hfx⟩
        exact hx.first y error (List.mem_cons_of_mem _ hy) hfy

theorem Covered.exists_failsFirst (huniform : ∀ x y, ¬(p x ↔ q x) → ¬(p y ↔ q y) → f x = f y)
    (hpq : Covered f p q) (hx : FailsFirst f p x) (hnot : ¬q x) : ∃ y, FailsFirst f q y ∧ f y = f x := by
  obtain ⟨error, hfx⟩ := hx.fails
  rcases hpq x hx.mem hnot with hdenied | ⟨y, hy, hbefore⟩
  · rw [hfx] at hdenied
    cases hdenied
  refine ⟨y, hy, ?_⟩
  rcases hbefore error hfx with hle | hsame
  · have hnotp : ¬p y := by
      intro hpy
      obtain ⟨errorY, hfy⟩ := hy.fails
      exact hnot (antisymm hle (hx.first y errorY hpy hfy) ▸ hy.mem)
    exact huniform y x (by simp [hy.mem, hnotp]) (by simp [hx.mem, hnot])
  · exact hsame

end FilterM

section Compare
variable {ε α : Type} {f : α → Except ε Bool} [DecidableEq α] [LE α] [DecidableLE α] [Std.Total (α := α) (· ≤ ·)]
  [IsTrans α (· ≤ ·)] [Std.Antisymm (α := α) (· ≤ ·)] {a b : List α}

theorem firstError_btreeSet {error : ε} :
    firstError f (btreeSet a) = some error ↔ ∃ x, FailsFirst f (· ∈ a) x ∧ f x = .error error := by
  have hsorted : (btreeSet a).Pairwise (· ≤ ·) := List.pairwise_insertionSort _ _
  rw [firstError_eq_some_iff hsorted]
  simp only [mem_btreeSet]

/-- Two sets are filtered alike exactly if what is in only one of them makes no difference, for a function that has one
value on all of that. -/
theorem filterM_btreeSet_eq_iff (huniform : ∀ x y, ¬(x ∈ a ↔ x ∈ b) → ¬(y ∈ a ↔ y ∈ b) → f x = f y) :
    (btreeSet a).filterM f = (btreeSet b).filterM f ↔ Covered f (· ∈ a) (· ∈ b) ∧ Covered f (· ∈ b) (· ∈ a) := by
  have huniform' : ∀ x y, ¬(x ∈ b ↔ x ∈ a) → ¬(y ∈ b ↔ y ∈ a) → f x = f y :=
    fun x y hx hy => huniform x y (fun h => hx h.symm) fun h => hy h.symm
  have hok : ∀ {l : List α}, firstError f (btreeSet l) = none → ∀ x ∈ l, ∃ b, f x = .ok b :=
    fun hl x hx => exists_ok_of_firstError hl x (mem_btreeSet.2 hx)
  rw [filterM_eq, filterM_eq]
  cases ha : firstError f (btreeSet a) with
  | none =>
    cases hb : firstError f (btreeSet b) with
    | none =>
      rw [Except.ok.injEq, filter_btreeSet_eq_iff, covered_iff (hok ha) (hok hb), covered_iff (hok hb) (hok ha)]
      exact ⟨fun h => ⟨fun x hx => (h x hx).1, fun x hx => (h x hx).2⟩, fun h x hx => ⟨h.1 x hx, h.2 x hx⟩⟩
    | some error =>
      obtain ⟨y, hy, -⟩ := firstError_btreeSet.1 hb
      exact iff_of_false nofun fun h => not_covered hy (hok ha) h.2
  | some error =>
    cases hb : firstError f (btreeSet b) with
    | none =>
      obtain ⟨x, hx, -⟩ := firstError_btreeSet.1 ha
      exact iff_of_false nofun fun h => not_covered hx (hok hb) h.1
    | some error' =>
      obtain ⟨x, hx, hfx⟩ := firstError_btreeSet.1 ha
      obtain ⟨y, hy, hfy⟩ := firstError_btreeSet.1 hb
      have hsame : (.error error : Except ε (List α)) = .error error' ↔ f x = f y := by simp [hfx, hfy]
      rw [hsame]
      constructor
      · intro h
        exact ⟨covered_of_same huniform hx hy h, covered_of_same huniform' hy hx h.symm⟩
      · rintro ⟨hab, hba⟩
        by_cases hxb : x ∈ b
        · by_cases hya : y ∈ a
          · rw [antisymm (hx.first y error' hya hfy) (hy.first x error hxb hfx)]
          · obtain ⟨x', hx', hsame⟩ := hba.exists_failsFirst huniform' hy hya
            rw [hx.unique hx', hsame]
        · obtain ⟨y', hy', hsame⟩ := hab.exists_failsFirst huniform hx hxb
          rw [hy.unique hy', hsame]

end Compare

/-! ## Checks -/

/-- The tuples that `all_tuples` keeps for the tenant. -/
def visible (tenant : TenantRef) (tuples : List RelationshipTuple) : List RelationshipTuple :=
  tuples.filter fun tuple => tuple.tenantId.all fun actual => decide (tenant = actual)

/-- Two tuple sets under one model and the same limits, with the same tuples of the tenant and without a tenant. -/
structure Agrees (e e' : Evaluator) (tenant : TenantRef) : Prop where
  model : e.model = e'.model
  maxDepth : e.maxDepth = e'.maxDepth
  maxNodes : e.maxNodes = e'.maxNodes
  tuples : visible tenant e.tuples = visible tenant e'.tuples

variable {e e' : Evaluator} {tenant : TenantRef} {context : AuthzContext} {subject : SubjectRef} {relation : Relation}

theorem tupleTenantMatches_eq (htenant : context.tenantId = some tenant) (tuple : RelationshipTuple) :
    tupleTenantMatches tuple context = tuple.tenantId.all fun actual => decide (tenant = actual) := by
  rw [tupleTenantMatches, htenant]
  cases tuple.tenantId <;> rfl

theorem Agrees.sameView (h : e.Agrees e' tenant) (htenant : context.tenantId = some tenant) :
    e.SameView e' context Eq := by
  refine ⟨h.model, fun ho => congrArg _ ho, ?_, fun _ _ _ _ _ _ => rfl⟩
  rintro object _ rfl relation
  have hvisible : ∀ tuples : List RelationshipTuple, (tuples.filter fun tuple =>
      decide (tuple.object = object) && decide (tuple.relation = relation) && tupleTenantMatches tuple context &&
        tupleConditionMatches tuple context) = (visible tenant tuples).filter fun tuple =>
      decide (tuple.object = object) && decide (tuple.relation = relation) && tupleConditionMatches tuple context := by
    intro tuples
    rw [visible, List.filter_filter]
    refine List.filter_congr fun tuple _ => ?_
    rw [tupleTenantMatches_eq htenant]
    ac_rfl
  rw [tuplesOf, tuplesOf, allTuples, allTuples, List.filter_append, List.filter_append, hvisible e.tuples,
    hvisible e'.tuples, h.tuples]

theorem check_of_agrees (h : e.Agrees e' tenant) (htenant : context.tenantId = some tenant) (object : ObjectRef) :
    e.check subject relation object context = e'.check subject relation object context := by
  have hrun : e.checkInner context subject relation object 0 = e'.checkInner context subject relation object 0 := by
    rw [checkInner, checkInner, h.maxDepth]
    exact checkWithin_congr (h.sameView htenant) h.maxDepth h.maxNodes (by have := h.maxDepth; omega)
      (by have := h.maxDepth; omega) relation object
  have hensure : e.ensureRelation object relation = e'.ensureRelation object relation := by
    rw [ensureRelation, ensureRelation, relationDefinition, relationDefinition, h.model]
  rw [check, check, hrun, hensure, h.model]

/-! ## Strangers

The check of an object that no tuple leads on from stays at that object, so what it answers depends on the type of the
object alone. -/

section Strangers
variable {o o' : ObjectRef}

/-- States of the two checks that differ in the object only. -/
structure Alike (subject : SubjectRef) (o o' : ObjectRef) (s s' : EvaluationState) : Prop where
  visited : s.visited = s'.visited
  stack : ∀ r, (⟨subject, r, o⟩ : EvalKey) ∈ s.stack ↔ (⟨subject, r, o'⟩ : EvalKey) ∈ s'.stack
  memo : ∀ r, s.memo.lookup ⟨subject, r, o⟩ = s'.memo.lookup ⟨subject, r, o'⟩

/-- Runs from alike states give the same and end in alike states. -/
def RunsAlike (subject : SubjectRef) (o o' : ObjectRef) (x y : Evaluation Bool) : Prop :=
  ∀ s s', Alike subject o o' s s' → (x.run s).1 = (y.run s').1 ∧ Alike subject o o' (x.run s).2 (y.run s').2

theorem lockstep_alike : Lockstep AuthzError (RunsAlike subject o o') where
  pure _ _ _ h := ⟨rfl, h⟩
  throw _ _ _ h := ⟨rfl, h⟩
  bind {x y f g} hxy hfg s s' h := by
    obtain ⟨hresult, hstate⟩ := hxy s s' h
    rw [Evaluation.run_bind, Evaluation.run_bind]
    rcases hx : x.run s with ⟨error | a, t⟩ <;> rcases hy : y.run s' with ⟨error' | a', t'⟩ <;>
      rw [hx, hy] at hresult hstate <;> cases hresult
    · exact ⟨rfl, hstate⟩
    · exact hfg a t t' hstate

theorem enter_alike {s s' : EvaluationState} (h : Alike subject o o' s s') (relation : Relation) (depth : Nat) :
    (∃ error, e.enter ⟨subject, relation, o⟩ s depth = .error error ∧
      e.enter ⟨subject, relation, o'⟩ s' depth = .error error) ∨
    ∃ t t', e.enter ⟨subject, relation, o⟩ s depth = .ok t ∧ e.enter ⟨subject, relation, o'⟩ s' depth = .ok t' ∧
      Alike subject o o' t t' := by
  simp only [enter, h.visited, h.stack relation]
  split
  · exact .inl ⟨_, rfl, rfl⟩
  split
  · exact .inl ⟨_, rfl, rfl⟩
  split
  · exact .inl ⟨_, rfl, rfl⟩
  · refine .inr ⟨_, _, rfl, rfl, rfl, fun r => ?_, h.memo⟩
    simp [h.stack r]

theorem checkStep_alike (hview : e.SameView e context fun a b => a = o ∧ b = o')
    {call : Relation → ObjectRef → Nat → Evaluation Bool}
    (hcall : ∀ r depth, RunsAlike subject o o' (call r o depth) (call r o' depth)) (relation : Relation) (depth : Nat) :
    RunsAlike subject o o' (e.checkStep context subject call relation o depth)
      (e.checkStep context subject call relation o' depth) := by
  intro s s' h
  cases hmemo : s.memo.lookup (⟨subject, relation, o⟩ : EvalKey) with
  | some allowed =>
    rw [checkStep_hit hmemo, checkStep_hit ((h.memo relation).symm.trans hmemo)]
    exact ⟨rfl, h⟩
  | none =>
    have hmemo' := (h.memo relation).symm.trans hmemo
    obtain ⟨error, henter, henter'⟩ | ⟨t, t', henter, henter', ht⟩ := enter_alike (e := e) h relation depth
    · rw [checkStep_refused hmemo henter, checkStep_refused hmemo' henter']
      exact ⟨rfl, h⟩
    · have hcalls : ∀ r {a b} k, a = o ∧ b = o' → 0 < k →
          RunsAlike subject o o' (call r a (depth + k)) (call r b (depth + k)) := by
        rintro r _ _ k ⟨rfl, rfl⟩ -
        exact hcall r (depth + k)
      obtain ⟨hresult, hstate⟩ := evalDefinition_lockstep lockstep_alike hview ⟨rfl, rfl⟩ hcalls t t' ht
      rw [checkStep_entered hmemo henter, checkStep_entered hmemo' henter']
      rcases hrun : (e.evalDefinition context call subject relation o depth).run t with ⟨error | a, u⟩ <;>
        rcases hrun' : (e.evalDefinition context call subject relation o' depth).run t' with ⟨error' | a', u'⟩ <;>
        rw [hrun, hrun'] at hresult hstate <;> cases hresult
      all_goals
        refine ⟨rfl, hstate.visited, fun r => ?_, fun r => ?_⟩
        · simp [EvaluationState.leave, hstate.stack r]
      · exact hstate.memo r
      · by_cases hr : r = relation
        · subst hr
          rw [List.lookup_cons_self, List.lookup_cons_self]
        · have hne : ∀ x : ObjectRef, (⟨subject, r, x⟩ : EvalKey) ≠ ⟨subject, relation, x⟩ := by simp [hr]
          rw [List.lookup_cons, List.lookup_cons, beq_false_of_ne (hne o), beq_false_of_ne (hne o')]
          exact hstate.memo r

theorem checkWithin_alike (hview : e.SameView e context fun a b => a = o ∧ b = o') : ∀ levels relation depth,
    RunsAlike subject o o' (e.checkWithin context subject levels relation o depth)
      (e.checkWithin context subject levels relation o' depth)
  | 0 => checkStep_alike hview fun _ _ => lockstep_alike.throw _
  | levels + 1 => checkStep_alike hview (checkWithin_alike hview levels)

theorem check_of_strangers (ho : ∀ r, e.tuplesOf context r o = []) (ho' : ∀ r, e.tuplesOf context r o' = [])
    (htype : o.typeName = o'.typeName) :
    e.check subject relation o context = e.check subject relation o' context := by
  have hview : e.SameView e context fun a b => a = o ∧ b = o' := by
    refine ⟨rfl, ?_, ?_, ?_⟩
    · rintro _ _ ⟨rfl, rfl⟩
      exact htype
    · rintro _ _ ⟨rfl, rfl⟩ r
      rw [ho, ho']
    · rintro _ _ ⟨rfl, rfl⟩ r tuple htuple
      rw [ho'] at htuple
      cases htuple
  have hnew : Alike subject o o' EvaluationState.new EvaluationState.new :=
    ⟨rfl, fun _ => iff_of_false nofun nofun, fun _ => rfl⟩
  obtain ⟨hresult, hstate⟩ := checkWithin_alike hview (e.maxDepth + 1 - 0) relation 0 _ _ hnew
  rw [check, check, ensureRelation, ensureRelation, hview.relationDefinition ⟨rfl, rfl⟩, checkInner, checkInner]
  rcases hx : (e.checkWithin context subject (e.maxDepth + 1 - 0) relation o 0).run EvaluationState.new with ⟨result, t⟩
  rcases hy : (e.checkWithin context subject (e.maxDepth + 1 - 0) relation o' 0).run EvaluationState.new with
    ⟨result', t'⟩
  rw [hx, hy] at hresult hstate
  cases hresult
  have hvisited : t.visited = t'.visited := hstate.visited
  simp only [hvisited]

end Strangers

/-! ## Listings -/

def checkAllowed (e : Evaluator) (subject : SubjectRef) (relation : Relation) (context : AuthzContext)
    (object : ObjectRef) : Except AuthzError Bool := do
  let decision ← e.check subject relation object context
  pure decision.allowed

/-- The relation `list_objects` looks up before it collects the candidates. -/
def listed (e : Evaluator) (relation : Relation) (objectType : String) : Except AuthzError RelationDefinition := do
  let objectDefinition ← okOr (.unknownObjectType objectType) (e.model.types.lookup objectType)
  okOr (.unknownRelation relation.value) (objectDefinition.relations.lookup relation.value)

theorem listObjects_eq (objectType : String) : e.listObjects subject relation objectType context =
    (e.listed relation objectType).bind fun _ =>
      (e.candidates objectType context).filterM (e.checkAllowed subject relation context) := by
  rw [listObjects, listed]
  rcases e.model.types.lookup objectType with _ | definition
  · rfl
  · rcases hrelation : definition.relations.lookup relation.value with _ | _
    · simp only [okOr, ok_bind, hrelation]
      rfl
    · simp only [okOr, ok_bind, hrelation]
      rfl

theorem Agrees.checkAllowed (h : e.Agrees e' tenant) (htenant : context.tenantId = some tenant) :
    e.checkAllowed subject relation context = e'.checkAllowed subject relation context := by
  funext object
  rw [Evaluator.checkAllowed, Evaluator.checkAllowed, check_of_agrees h htenant]

/-- An object of the type that a tuple names: a candidate. -/
def Names (e : Evaluator) (context : AuthzContext) (objectType : String) (object : ObjectRef) : Prop :=
  object.typeName = objectType ∧ ∃ tuple ∈ e.allTuples context, tuple.object = object

theorem mem_named_iff {objectType : String} {object : ObjectRef} :
    object ∈ ((e.allTuples context).map RelationshipTuple.object).filter
      (fun object => decide (object.typeName = objectType)) ↔ e.Names context objectType object := by
  simp [Names, and_comm]

/-- No tuple that the tenant may see is on an object only one of the tuple sets names. -/
theorem Agrees.stranger (h : e.Agrees e' tenant) (htenant : context.tenantId = some tenant) {objectType : String}
    {object : ObjectRef} (hone : ¬(e.Names context objectType object ↔ e'.Names context objectType object)) :
    object.typeName = objectType ∧ ∀ r, e.tuplesOf context r object = [] := by
  have htype : object.typeName = objectType := by
    by_contra hne
    exact hone (iff_of_false (fun h => hne h.1) fun h => hne h.1)
  refine ⟨htype, fun r => List.eq_nil_iff_forall_not_mem.2 fun tuple htuple => hone ?_⟩
  have htuple' := htuple
  rw [(h.sameView htenant).tuples rfl] at htuple'
  obtain ⟨hmem, hobject, -⟩ := mem_tuplesOf.1 htuple
  exact iff_of_true ⟨htype, tuple, hmem, hobject⟩ ⟨htype, tuple, (mem_tuplesOf.1 htuple').1, hobject⟩

/-- Two tuple sets that agree on what the tenant may see are listed the same exactly if the type has no such relation,
or the objects that only one of them names make no difference. -/
theorem listObjects_eq_iff (h : e.Agrees e' tenant) (context : AuthzContext) (htenant : context.tenantId = some tenant)
    (subject : SubjectRef) (relation : Relation) (objectType : String) :
    e.listObjects subject relation objectType context = e'.listObjects subject relation objectType context ↔
      (e.listed relation objectType).toBool = false ∨
      (let allowed := e.checkAllowed subject relation context
       Covered allowed (e.Names context objectType) (e'.Names context objectType) ∧
        Covered allowed (e'.Names context objectType) (e.Names context objectType)) := by
  have hlisted : e'.listed relation objectType = e.listed relation objectType := by rw [listed, listed, h.model]
  rw [listObjects_eq, listObjects_eq, hlisted, ← h.checkAllowed htenant]
  rcases e.listed relation objectType with error | definition
  · simp [Except.toBool, Except.bind]
  · simp only [Except.bind, Except.toBool, Bool.true_eq_false, false_or, candidates]
    rw [filterM_btreeSet_eq_iff]
    · simp only [mem_named_iff]
    · intro x y hx hy
      rw [mem_named_iff, mem_named_iff] at hx hy
      obtain ⟨htypeX, hx⟩ := h.stranger htenant hx
      obtain ⟨htypeY, hy⟩ := h.stranger htenant hy
      rw [Evaluator.checkAllowed, Evaluator.checkAllowed, check_of_strangers hx hy (htypeX.trans htypeY.symm)]

/-! ## An object of another tenant -/

def staffModel : AuthorizationModel := ⟨"model_1", [("project", ⟨[("viewer", ⟨.condition "staff"⟩)]⟩)]⟩

def staffContext : AuthzContext := ⟨some ⟨"tenant:a"⟩, [("staff", "true")], [], []⟩

def staffEvaluator (tuples : List RelationshipTuple) : Evaluator := ⟨staffModel, tuples, 32, 1024⟩

def foreignTuple : RelationshipTuple := ⟨⟨"user:bob"⟩, ⟨"viewer"⟩, ⟨"project:secret"⟩, none, some ⟨"tenant:b"⟩⟩

/-- The tuple is another tenant's, and its object is listed. -/
theorem exists_foreign_object_listed : ∃ (e e' : Evaluator) (tenant : TenantRef) (context : AuthzContext),
    e.Agrees e' tenant ∧ context.tenantId = some tenant ∧
    e.listObjects ⟨"user:alice"⟩ ⟨"viewer"⟩ "project" context = .ok [] ∧
    e'.listObjects ⟨"user:alice"⟩ ⟨"viewer"⟩ "project" context = .ok [⟨"project:secret"⟩] := by
  refine ⟨staffEvaluator [], staffEvaluator [foreignTuple], ⟨"tenant:a"⟩, staffContext, ⟨rfl, rfl, rfl, ?_⟩, rfl,
    ?_, ?_⟩
  · decide +kernel
  · decide +kernel
  · decide +kernel

/-- Another tenant's tuple on an object the tenant has changes nothing. -/
theorem listObjects_shared_object :
    let own : RelationshipTuple := ⟨⟨"user:alice"⟩, ⟨"viewer"⟩, ⟨"project:secret"⟩, none, some ⟨"tenant:a"⟩⟩
    (staffEvaluator [own, foreignTuple]).listObjects ⟨"user:alice"⟩ ⟨"viewer"⟩ "project" staffContext =
      (staffEvaluator [own]).listObjects ⟨"user:alice"⟩ ⟨"viewer"⟩ "project" staffContext := by
  intro own
  have hagrees : (staffEvaluator [own, foreignTuple]).Agrees (staffEvaluator [own]) ⟨"tenant:a"⟩ :=
    ⟨rfl, rfl, rfl, by decide +kernel⟩
  refine (listObjects_eq_iff hagrees staffContext rfl ⟨"user:alice"⟩ ⟨"viewer"⟩ "project").2
    (.inr ?_)
  have hnames : (staffEvaluator [own, foreignTuple]).Names staffContext "project" =
      (staffEvaluator [own]).Names staffContext "project" := by
    funext object
    simp [Names, allTuples, staffEvaluator, staffContext, own, foreignTuple]
  exact ⟨fun object hmem hnot => absurd (hnames ▸ hmem) hnot, fun object hmem hnot => absurd (hnames ▸ hmem) hnot⟩

end WasiAuth.Testkit.Evaluator
