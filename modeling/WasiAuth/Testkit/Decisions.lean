import WasiAuth.Base.Lockstep
import WasiAuth.Testkit.Evaluator

/-! # Decisions of the evaluator

`evaluate` is the plain recursion over the rewrites: no memo, no stack, no limit, cut off after `fuel` nested calls
(`none`). `Terminates` says that it ends with an answer.

A failure ends the whole check, so that the memo only holds answers of finished evaluations and no answer depends on
what was on the stack. `Sound` is that invariant of the state; every call keeps it (`checkWithin_sound`).
-/

namespace WasiAuth.Testkit.Evaluator

variable {relation : Relation} {object : ObjectRef}

/-! ## One induction over rewrites -/

theorem mem_tuplesOf {e : Evaluator} {context : AuthzContext}
    {tuple : RelationshipTuple} : tuple ∈ e.tuplesOf context relation object ↔
      tuple ∈ e.allTuples context ∧ tuple.object = object ∧ tuple.relation = relation ∧
        tupleTenantMatches tuple context = true ∧ tupleConditionMatches tuple context = true := by
  simp [tuplesOf, and_assoc]

theorem directMatch_iff {e : Evaluator} {context : AuthzContext} {subject : SubjectRef}
    : e.directMatch context subject relation object = true ↔
      ∃ tuple ∈ e.tuplesOf context relation object, tuple.subject = subject := by
  simp only [directMatch, List.any_eq_true, mem_tuplesOf, Bool.and_eq_true, decide_eq_true_eq]
  constructor
  · rintro ⟨tuple, hmem, ⟨⟨⟨hsubject, hrelation⟩, hobject⟩, htenant⟩, hcondition⟩
    exact ⟨tuple, ⟨hmem, hobject, hrelation, htenant, hcondition⟩, hsubject⟩
  · rintro ⟨tuple, ⟨hmem, hobject, hrelation, htenant, hcondition⟩, hsubject⟩
    exact ⟨tuple, hmem, ⟨⟨⟨hsubject, hrelation⟩, hobject⟩, htenant⟩, hcondition⟩

/-- Two evaluators that read the same definitions and, in this context and for objects that correspond, the same tuples;
the objects these lead to correspond to themselves. -/
structure SameView (e e' : Evaluator) (context : AuthzContext) (V : ObjectRef → ObjectRef → Prop) : Prop where
  model : e.model = e'.model
  typeName : ∀ {o o'}, V o o' → o.typeName = o'.typeName
  tuples : ∀ {o o'}, V o o' → ∀ relation, e.tuplesOf context relation o = e'.tuplesOf context relation o'
  related : ∀ {o o'}, V o o' → ∀ relation, ∀ tuple ∈ e'.tuplesOf context relation o', ∀ next,
    ObjectRef.new tuple.subject.value = .ok next → V next next

theorem SameView.refl (e : Evaluator) (context : AuthzContext) : e.SameView e context Eq where
  model := rfl
  typeName h := congrArg _ h
  tuples h _ := congrArg _ h
  related _ _ _ _ _ _ := rfl

section Lockstep
variable {m n : Type → Type} [Monad m] [Monad n] [MonadExceptOf AuthzError m] [MonadExceptOf AuthzError n]
  {R : m Bool → n Bool → Prop} {e e' : Evaluator} {context : AuthzContext}
  {c : Relation → ObjectRef → Nat → m Bool} {c' : Relation → ObjectRef → Nat → n Bool}
  {subject : SubjectRef} {relation : Relation} {V : ObjectRef → ObjectRef → Prop} {object object' : ObjectRef}

theorem SameView.directMatch (hview : e.SameView e' context V) (ho : V object object') :
    e.directMatch context subject relation object = e'.directMatch context subject relation object' := by
  rw [Bool.eq_iff_iff, directMatch_iff, directMatch_iff, hview.tuples ho]

theorem SameView.relationDefinition (hview : e.SameView e' context V) (ho : V object object') :
    e.relationDefinition object relation = e'.relationDefinition object' relation := by
  rw [Evaluator.relationDefinition, Evaluator.relationDefinition, hview.model, hview.typeName ho]

/-- The calls below these depths correspond. -/
abbrev CallsBelow (R : m Bool → n Bool → Prop) (V : ObjectRef → ObjectRef → Prop)
    (c : Relation → ObjectRef → Nat → m Bool) (c' : Relation → ObjectRef → Nat → n Bool) (depth depth' : Nat) : Prop :=
  ∀ r {o o'} k, V o o' → 0 < k → R (c r o (depth + k)) (c' r o' (depth' + k))

omit [Monad m] [Monad n] [MonadExceptOf AuthzError m] [MonadExceptOf AuthzError n] in
/-- What holds of the calls more than `depth` deep holds of those below a child. -/
theorem calls_succ {depth depth' : Nat} (hcalls : CallsBelow R V c c' depth depth') :
    CallsBelow R V c c' (depth + 1) (depth' + 1) := by
  intro r o o' k ho hk
  rw [Nat.add_assoc, Nat.add_assoc]
  exact hcalls r (1 + k) ho (by omega)

variable (hR : Lockstep AuthzError R)
include hR

mutual

theorem evalRewrite_lockstep (hview : e.SameView e' context V) (ho : V object object') :
    ∀ (rewrite : Rewrite) {depth depth' : Nat}, CallsBelow R V c c' depth depth' →
      R (e.evalRewrite context c subject relation object rewrite depth)
        (e'.evalRewrite context c' subject relation object' rewrite depth')
  | .direct, _, _, _ => by
    rw [evalRewrite, evalRewrite, hview.directMatch ho]
    exact hR.pure _
  | .computedUserset r, _, _, hcalls => by
    rw [evalRewrite, evalRewrite]
    exact hcalls r 1 ho Nat.one_pos
  | .tupleToUserset tupleset r, _, _, hcalls => by
    rw [evalRewrite, evalRewrite, hview.tuples ho]
    refine hR.anyM fun tuple htuple => ?_
    cases hnew : ObjectRef.new tuple.subject.value with
    | error error => exact hR.throw error
    | ok next => exact hcalls r 1 (hview.related ho tupleset tuple htuple next hnew) Nat.one_pos
  | .union children, _, _, hcalls => by
    rw [evalRewrite, evalRewrite]
    exact evalUnion_lockstep hview ho children (calls_succ hcalls)
  | .intersection children, _, _, hcalls => by
    rw [evalRewrite, evalRewrite]
    exact evalIntersection_lockstep hview ho children (calls_succ hcalls)
  | .exclusion base subtract, _, _, hcalls => by
    rw [evalRewrite, evalRewrite]
    refine hR.bind (evalRewrite_lockstep hview ho base (calls_succ hcalls)) fun allowed => ?_
    cases allowed with
    | false => exact hR.pure false
    | true => exact hR.bind (evalRewrite_lockstep hview ho subtract (calls_succ hcalls)) fun b => hR.pure !b
  | .condition _, _, _, _ => by
    rw [evalRewrite, evalRewrite]
    exact hR.pure _

theorem evalUnion_lockstep (hview : e.SameView e' context V) (ho : V object object') :
    ∀ (children : List Rewrite) {depth depth' : Nat}, CallsBelow R V c c' depth depth' →
        R (e.evalUnion context c subject relation object children depth)
          (e'.evalUnion context c' subject relation object' children depth')
  | [], _, _, _ => by
    rw [evalUnion, evalUnion]
    exact hR.pure false
  | child :: children, _, _, hcalls => by
    rw [evalUnion, evalUnion]
    refine hR.bind (evalRewrite_lockstep hview ho child hcalls) fun allowed => ?_
    cases allowed with
    | true => exact hR.pure true
    | false => exact evalUnion_lockstep hview ho children hcalls

theorem evalIntersection_lockstep (hview : e.SameView e' context V) (ho : V object object') :
    ∀ (children : List Rewrite) {depth depth' : Nat}, CallsBelow R V c c' depth depth' →
        R (e.evalIntersection context c subject relation object children depth)
          (e'.evalIntersection context c' subject relation object' children depth')
  | [], _, _, _ => by
    rw [evalIntersection, evalIntersection]
    exact hR.pure true
  | child :: children, _, _, hcalls => by
    rw [evalIntersection, evalIntersection]
    refine hR.bind (evalRewrite_lockstep hview ho child hcalls) fun allowed => ?_
    cases allowed with
    | true => exact evalIntersection_lockstep hview ho children hcalls
    | false => exact hR.pure false

end

theorem evalDefinition_lockstep (hview : e.SameView e' context V) (ho : V object object') {depth depth' : Nat}
    (hcalls : CallsBelow R V c c' depth depth') :
    R (e.evalDefinition context c subject relation object depth)
      (e'.evalDefinition context c' subject relation object' depth') := by
  rw [evalDefinition, evalDefinition, hview.relationDefinition ho]
  cases e'.relationDefinition object' relation with
  | error error => exact hR.throw error
  | ok definition => exact evalRewrite_lockstep hR hview ho definition.rewrite hcalls

end Lockstep

/-! ## The recursion is not cut off -/

theorem lockstep_eq {m : Type → Type} [Monad m] [MonadExceptOf AuthzError m] :
    Lockstep AuthzError (fun x y : m Bool => x = y) where
  pure _ := rfl
  throw _ := rfl
  bind hx hf := by rw [hx, funext hf]

variable {e e' : Evaluator} {context : AuthzContext} {subject : SubjectRef}

/-- Past `max_depth` no call is made. -/
theorem checkStep_congr (hview : e.SameView e' context Eq) (hdepth : e.maxDepth = e'.maxDepth)
    (hnodes : e.maxNodes = e'.maxNodes) {c c' : Relation → ObjectRef → Nat → Evaluation Bool} {depth : Nat}
    (hcalls : depth ≤ e.maxDepth → ∀ r o d, depth < d → c r o d = c' r o d) (relation : Relation)
    (object : ObjectRef) :
    e.checkStep context subject c relation object depth = e'.checkStep context subject c' relation object depth := by
  have henter : ∀ key state, e.enter key state depth = e'.enter key state depth := by
    intro key state
    rw [enter, enter, hdepth, hnodes]
  funext state
  simp only [checkStep, henter]
  by_cases hle : depth ≤ e.maxDepth
  · rw [evalDefinition_lockstep lockstep_eq hview rfl
      (by rintro r o _ k rfl hk; exact hcalls hle r o (depth + k) (by omega))]
  · have hrefused : ∀ key state, e'.enter key state depth = .error .maxDepthExceeded := by
      intro key state
      rw [enter, if_pos (by omega)]
    simp only [hrefused]

theorem checkWithin_congr (hview : e.SameView e' context Eq) (hdepth : e.maxDepth = e'.maxDepth)
    (hnodes : e.maxNodes = e'.maxNodes) : ∀ {levels levels' depth : Nat}, e.maxDepth < levels + depth →
      e.maxDepth < levels' + depth → ∀ relation object,
        e.checkWithin context subject levels relation object depth =
          e'.checkWithin context subject levels' relation object depth
  | 0, 0, _, h, _ => checkStep_congr hview hdepth hnodes fun hle => absurd hle (by omega)
  | 0, _ + 1, _, h, _ => checkStep_congr hview hdepth hnodes fun hle => absurd hle (by omega)
  | _ + 1, 0, _, _, h => checkStep_congr hview hdepth hnodes fun hle => absurd hle (by omega)
  | _ + 1, _ + 1, _, h, h' => checkStep_congr hview hdepth hnodes fun _ r o d hd =>
      checkWithin_congr hview hdepth hnodes (by omega) (by omega) r o

/-- `check_inner` calls itself. -/
theorem checkInner_eq (relation : Relation) (object : ObjectRef) (depth : Nat) :
    e.checkInner context subject relation object depth =
      e.checkStep context subject (e.checkInner context subject) relation object depth := by
  have hsame := SameView.refl e context
  have hone : e.checkInner context subject relation object depth =
      e.checkWithin context subject (e.maxDepth + 1 - depth + 1) relation object depth :=
    checkWithin_congr hsame rfl rfl (by omega) (by omega) relation object
  rw [hone]
  exact checkStep_congr hsame rfl rfl (fun _ r o d hd => checkWithin_congr hsame rfl rfl (by omega) (by omega) r o)
    relation object

/-! ## Plain evaluation -/

/-- The recursion over the rewrites with neither memo nor limits, for that many nested calls. -/
def evaluate (e : Evaluator) (context : AuthzContext) (subject : SubjectRef) :
    Nat → Relation → ObjectRef → ExceptT AuthzError Option Bool
  | 0, _, _ => ExceptT.mk none
  | fuel + 1, relation, object =>
    e.evalDefinition context (fun r o _ => e.evaluate context subject fuel r o) subject relation object 0

/-- The unbounded evaluation ends with `allowed`. -/
def Terminates (e : Evaluator) (context : AuthzContext) (subject : SubjectRef) (relation : Relation)
    (object : ObjectRef) (allowed : Bool) : Prop :=
  ∃ enough, ∀ fuel ≥ enough, e.evaluate context subject fuel relation object = ExceptT.mk (some (.ok allowed))

theorem Terminates.unique {a b : Bool}
    (ha : e.Terminates context subject relation object a) (hb : e.Terminates context subject relation object b) :
    a = b := by
  obtain ⟨k, ha⟩ := ha
  obtain ⟨l, hb⟩ := hb
  have heq := (ha (max k l) (le_max_left k l)).symm.trans (hb (max k l) (le_max_right k l))
  exact Except.ok.inj (Option.some.inj heq)

abbrev Fuelled := ReaderT Nat (ExceptT AuthzError Option)

/-- The computation ends with this answer once there is enough fuel. -/
def Settles (y : Fuelled Bool) (b : Bool) : Prop :=
  ∃ enough, ∀ fuel ≥ enough, y.run fuel = ExceptT.mk (some (.ok b))

theorem Settles.pure (b : Bool) : Settles (pure b) b := ⟨0, fun _ _ => rfl⟩

theorem Settles.bind {y : Fuelled Bool} {g : Bool → Fuelled Bool} {a b : Bool} (hy : Settles y a)
    (hg : Settles (g a) b) : Settles (y >>= g) b := by
  obtain ⟨k, hy⟩ := hy
  obtain ⟨l, hg⟩ := hg
  refine ⟨max k l, fun fuel hfuel => ?_⟩
  rw [ReaderT.run_bind, hy fuel ((le_max_left k l).trans hfuel)]
  exact hg fuel ((le_max_right k l).trans hfuel)

def evaluateCall (e : Evaluator) (context : AuthzContext) (subject : SubjectRef) :
    Relation → ObjectRef → Nat → Fuelled Bool :=
  fun relation object _ fuel => e.evaluate context subject fuel relation object

theorem lockstep_run (fuel : Nat) :
    Lockstep AuthzError (fun (x : Fuelled Bool) (y : ExceptT AuthzError Option Bool) => x.run fuel = y) where
  pure _ := rfl
  throw _ := rfl
  bind hx hf := by rw [ReaderT.run_bind, hx, funext hf]

theorem evaluate_succ (relation : Relation) (object : ObjectRef) (depth fuel : Nat) :
    e.evaluate context subject (fuel + 1) relation object =
      (e.evalDefinition context (e.evaluateCall context subject) subject relation object depth).run fuel :=
  (evalDefinition_lockstep (lockstep_run fuel) (SameView.refl e context) rfl (by rintro _ _ _ _ rfl _; rfl)).symm

theorem terminates_of_settles {depth : Nat} {b : Bool}
    (h : Settles (e.evalDefinition context (e.evaluateCall context subject) subject relation object depth) b) :
    e.Terminates context subject relation object b := by
  obtain ⟨enough, h⟩ := h
  refine ⟨enough + 1, fun fuel hfuel => ?_⟩
  obtain ⟨k, rfl⟩ : ∃ k, fuel = k + 1 := ⟨fuel - 1, by omega⟩
  rw [evaluate_succ relation object depth]
  exact h k (by omega)

/-! ## The state of a check -/

/-- What is memoized is what the unbounded evaluation says. -/
structure Sound (e : Evaluator) (context : AuthzContext) (subject : SubjectRef) (state : EvaluationState) : Prop where
  visited : state.visited ≤ e.maxNodes
  memo : ∀ relation object b, state.memo.lookup ⟨subject, relation, object⟩ = some b →
    e.Terminates context subject relation object b

/-- A computation of the check keeps the invariant, and its answer is that of the plain one. -/
def Follows (e : Evaluator) (context : AuthzContext) (subject : SubjectRef) (x : Evaluation Bool) (y : Fuelled Bool) :
    Prop :=
  ∀ state, e.Sound context subject state → e.Sound context subject (x.run state).2 ∧
    ∀ b, (x.run state).1 = .ok b → Settles y b

theorem lockstep_follows : Lockstep AuthzError (e.Follows context subject) where
  pure b state hs := ⟨hs, fun b' h => by cases h; exact Settles.pure b⟩
  throw _ state hs := ⟨hs, fun b' h => by cases h⟩
  bind {x y f g} hx hf state hs := by
    obtain ⟨hkept, hsettles⟩ := hx state hs
    rw [Evaluation.run_bind]
    rcases hrun : x.run state with ⟨_ | a, next⟩
    · rw [hrun] at hkept
      exact ⟨hkept, fun b h => by cases h⟩
    · rw [hrun] at hkept hsettles
      obtain ⟨hkept', hsettles'⟩ := hf a next hkept
      exact ⟨hkept', fun b h => (hsettles a rfl).bind (hsettles' b h)⟩

/-- A call keeps the invariant, and its answer is that of the plain evaluation. -/
def SoundCall (e : Evaluator) (context : AuthzContext) (subject : SubjectRef)
    (call : Relation → ObjectRef → Nat → Evaluation Bool) : Prop :=
  ∀ relation object depth, e.Follows context subject (call relation object depth)
    (e.evaluateCall context subject relation object depth)

theorem enter_eq_ok {key : EvalKey} {state next : EvaluationState} {depth : Nat} :
    e.enter key state depth = .ok next ↔
      depth ≤ e.maxDepth ∧ state.visited < e.maxNodes ∧ key ∉ state.stack ∧
        { state with visited := state.visited + 1, stack := key :: state.stack } = next := by
  unfold enter
  by_cases hdepth : depth > e.maxDepth
  · rw [if_pos hdepth]
    exact ⟨nofun, fun h => absurd h.1 (by omega)⟩
  by_cases hnodes : state.visited ≥ e.maxNodes
  · rw [if_neg hdepth, if_pos hnodes]
    exact ⟨nofun, fun h => absurd h.2.1 (by omega)⟩
  by_cases hcycle : key ∈ state.stack
  · rw [if_neg hdepth, if_neg hnodes, if_pos hcycle]
    exact ⟨nofun, fun h => absurd hcycle h.2.2.1⟩
  · rw [if_neg hdepth, if_neg hnodes, if_neg hcycle]
    exact ⟨fun h => ⟨by omega, by omega, hcycle, Except.ok.inj h⟩, fun h => congrArg Except.ok h.2.2.2⟩

section CheckStep
variable {call : Relation → ObjectRef → Nat → Evaluation Bool} {relation : Relation} {object : ObjectRef} {depth : Nat}
  {state : EvaluationState}

theorem checkStep_hit {allowed : Bool} (hmemo : state.memo.lookup ⟨subject, relation, object⟩ = some allowed) :
    (e.checkStep context subject call relation object depth).run state = (.ok allowed, state) := by
  simp only [checkStep, ExceptT.run, hmemo]

theorem checkStep_refused (hmemo : state.memo.lookup ⟨subject, relation, object⟩ = none) {error : AuthzError}
    (henter : e.enter ⟨subject, relation, object⟩ state depth = .error error) :
    (e.checkStep context subject call relation object depth).run state = (.error error, state) := by
  simp only [checkStep, ExceptT.run, hmemo, henter]

theorem checkStep_entered (hmemo : state.memo.lookup ⟨subject, relation, object⟩ = none) {entered : EvaluationState}
    (henter : e.enter ⟨subject, relation, object⟩ state depth = .ok entered) :
    (e.checkStep context subject call relation object depth).run state =
      match (e.evalDefinition context call subject relation object depth).run entered with
      | (.error error, left) => (.error error, left.leave ⟨subject, relation, object⟩)
      | (.ok allowed, left) =>
        (.ok allowed, { left.leave ⟨subject, relation, object⟩ with
          memo := (⟨subject, relation, object⟩, allowed) :: left.memo }) := by
  simp only [checkStep, ExceptT.run, hmemo, henter]
  rcases (e.evalDefinition context call subject relation object depth) entered with ⟨_ | _, _⟩ <;> rfl

end CheckStep

theorem checkStep_sound {call : Relation → ObjectRef → Nat → Evaluation Bool}
    (hcall : e.SoundCall context subject call) : e.SoundCall context subject (e.checkStep context subject call) := by
  intro relation object depth state hs
  cases hmemo : state.memo.lookup (⟨subject, relation, object⟩ : EvalKey) with
  | some allowed =>
    rw [checkStep_hit hmemo]
    refine ⟨hs, fun b h => ?_⟩
    cases h
    exact hs.memo relation object allowed hmemo
  | none =>
    cases henter : e.enter ⟨subject, relation, object⟩ state depth with
    | error error =>
      rw [checkStep_refused hmemo henter]
      exact ⟨hs, nofun⟩
    | ok entered =>
      have hentered : e.Sound context subject entered := by
        obtain ⟨-, hvisited, -, rfl⟩ := enter_eq_ok.1 henter
        exact ⟨hvisited, hs.memo⟩
      obtain ⟨hkept, hsettles⟩ := evalDefinition_lockstep lockstep_follows (SameView.refl e context) rfl
        (by rintro r o _ k rfl _; exact hcall r o (depth + k)) entered hentered
      rw [checkStep_entered hmemo henter]
      rcases hrun : (e.evalDefinition context call subject relation object depth).run entered with ⟨_ | allowed, left⟩
      · rw [hrun] at hkept
        exact ⟨⟨hkept.visited, hkept.memo⟩, nofun⟩
      · rw [hrun] at hkept hsettles
        have hends := terminates_of_settles (hsettles allowed rfl)
        refine ⟨⟨hkept.visited, fun r o b h => ?_⟩, fun b h => ?_⟩
        · by_cases hkey : (⟨subject, r, o⟩ : EvalKey) = ⟨subject, relation, object⟩
          · cases hkey
            rw [List.lookup_cons_self] at h
            exact Option.some.inj h ▸ hends
          · rw [List.lookup_cons, beq_false_of_ne hkey] at h
            exact hkept.memo r o b h
        · cases h
          exact hends

theorem checkWithin_sound : ∀ levels, e.SoundCall context subject (e.checkWithin context subject levels)
  | 0 => checkStep_sound fun _ _ _ _ hs => ⟨hs, nofun⟩
  | levels + 1 => checkStep_sound (checkWithin_sound levels)

/-- The call `check` makes. -/
theorem checkInner_sound (e : Evaluator) (context : AuthzContext) (subject : SubjectRef) (relation : Relation)
    (object : ObjectRef) :
    e.Sound context subject ((e.checkInner context subject relation object 0).run EvaluationState.new).2 ∧
      ∀ b, ((e.checkInner context subject relation object 0).run EvaluationState.new).1 = .ok b →
        e.Terminates context subject relation object b := by
  have hnew : e.Sound context subject EvaluationState.new := ⟨Nat.zero_le _, nofun⟩
  exact checkWithin_sound (e.maxDepth + 1 - 0) relation object 0 EvaluationState.new hnew

theorem check_eq_ok {decision : Decision} :
    e.check subject relation object context = .ok decision ↔
      (∃ definition, e.relationDefinition object relation = .ok definition) ∧
        ((e.checkInner context subject relation object 0).run EvaluationState.new).1 = .ok decision.allowed ∧
        decision.modelId = e.model.modelId ∧
        decision.reason = (if decision.allowed then none else some "no matching relationship path") ∧
        decision.visited = ((e.checkInner context subject relation object 0).run EvaluationState.new).2.visited := by
  unfold check ensureRelation
  rcases e.relationDefinition object relation with _ | definition
  · simp [Except.map, bind, Except.bind]
  · rcases hrun : (e.checkInner context subject relation object 0).run EvaluationState.new with ⟨_ | allowed, state⟩
    · simp [Except.map, bind, Except.bind]
    · rcases decision with ⟨allowed', modelId, reason, visited⟩
      cases allowed <;> cases allowed' <;> simp [Except.map, bind, Except.bind, pure, Except.pure, eq_comm]

/-- A decision is the answer of the plain evaluation. A check always ends: its recursion is total, and going on for more
nested calls than the depth limit changes nothing. It enters at most `max_nodes` keys, whatever it returns. -/
theorem check_evaluates (e : Evaluator) (context : AuthzContext) (subject : SubjectRef) (relation : Relation)
    (object : ObjectRef) :
    (∀ decision, e.check subject relation object context = .ok decision →
      e.Terminates context subject relation object decision.allowed) ∧
    (∀ r o depth, e.checkInner context subject r o depth =
      e.checkStep context subject (e.checkInner context subject) r o depth) ∧
    (∀ levels > e.maxDepth, e.checkWithin context subject levels relation object 0 =
      e.checkInner context subject relation object 0) ∧
    ((e.checkInner context subject relation object 0).run EvaluationState.new).2.visited ≤ e.maxNodes := by
  have ⟨hsound, hanswer⟩ := e.checkInner_sound context subject relation object
  refine ⟨fun decision h => ?_, checkInner_eq, fun levels hlevels => ?_, hsound.visited⟩
  · exact hanswer decision.allowed (check_eq_ok.1 h).2.1
  · exact checkWithin_congr (SameView.refl e context) rfl rfl hlevels (by omega) relation object

/-- Viewers are named directly, or are viewers, and are not banned. -/
def cyclicModel : AuthorizationModel :=
  ⟨"model_1", [("doc", ⟨[("viewer", ⟨.exclusion (.union [.direct, .computedUserset ⟨"viewer"⟩])
    (.computedUserset ⟨"banned"⟩)⟩), ("banned", ⟨.direct⟩)]⟩)]⟩

def emptyContext : AuthzContext := ⟨none, [], [], []⟩

/-- The cycle is not entered for someone named directly, and is detected for everyone else. -/
theorem check_evaluates_viewer :
    let e : Evaluator := ⟨cyclicModel, [⟨⟨"user:alice"⟩, ⟨"viewer"⟩, ⟨"doc:1"⟩, none, none⟩], 32, 1024⟩
    e.check ⟨"user:bob"⟩ ⟨"viewer"⟩ ⟨"doc:1"⟩ emptyContext = .error .cycleDetected ∧
    e.check ⟨"user:alice"⟩ ⟨"viewer"⟩ ⟨"doc:1"⟩ emptyContext = .ok ⟨true, "model_1", none, 2⟩ ∧
    e.Terminates emptyContext ⟨"user:alice"⟩ ⟨"viewer"⟩ ⟨"doc:1"⟩ true := by
  refine ⟨by decide +kernel, by decide +kernel, ?_⟩
  exact (check_evaluates _ emptyContext ⟨"user:alice"⟩ ⟨"viewer"⟩ ⟨"doc:1"⟩).1 ⟨true, "model_1", none, 2⟩
    (by decide +kernel)

end WasiAuth.Testkit.Evaluator
