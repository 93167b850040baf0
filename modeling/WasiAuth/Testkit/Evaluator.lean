import WasiAuth.Base.Text
import WasiAuth.Identity.Context
import WasiAuth.Identity.Values

/-! # The relationship evaluator of the testkit

`check_inner` and `eval_rewrite` call each other. Here `evalRewrite` takes the calls to `check_inner` as an argument and
recurses over the rewrite, and `checkWithin` ties the knot for a number of nested calls. A call more than `max_depth`
deep fails in `enter`, so that `maxDepth + 1 - depth` further levels are all there are: `checkInner_eq` is the recursion
of the source with nothing cut off. `expand_inner` is treated in the same way.
-/

namespace WasiAuth.Testkit

/-- error.rs:5 -/
inductive AuthzError
  | validation (message : String)
  | unknownModel
  | unknownObjectType (objectType : String)
  | unknownRelation (relation : String)
  | maxDepthExceeded
  | maxNodesExceeded
  | cycleDetected
deriving DecidableEq

/-- types.rs:39; `unchecked` is public, so that it holds any text. -/
structure SubjectRef where
  value : String
deriving DecidableEq

/-- types.rs:40 -/
structure ObjectRef where
  value : String
deriving DecidableEq

/-- types.rs:41 -/
structure TenantRef where
  value : String
deriving DecidableEq

/-- types.rs:46 -/
structure Relation where
  value : String
deriving DecidableEq

/-- `validate_ref`. -/
def validateRef (label value : String) : Except AuthzError Unit :=
  match Text.splitOnce ':' value.toList with
  | none => .error (.validation (label ++ " must use type:id syntax"))
  | some (type, id) =>
    if trim (String.ofList type) = "" ∨ trim (String.ofList id) = "" then
      .error (.validation (label ++ " must use non-empty type and id"))
    else .ok ()

/-- `ObjectRef::new`. -/
def ObjectRef.new (value : String) : Except AuthzError ObjectRef :=
  (validateRef "ObjectRef" value).map fun _ => ⟨value⟩

def ObjectRef.typeName (object : ObjectRef) : String :=
  match Text.splitOnce ':' object.value.toList with
  | none => ""
  | some (type, _) => String.ofList type

/-- The derived order of a reference is that of its text. -/
instance : LE ObjectRef := ⟨fun a b => a.value ≤ b.value⟩

instance : DecidableLE ObjectRef := fun a b => inferInstanceAs (Decidable (a.value ≤ b.value))

instance : Std.Total (α := ObjectRef) (· ≤ ·) := ⟨fun a b => String.le_total a.value b.value⟩

instance : IsTrans ObjectRef (· ≤ ·) := ⟨fun _ _ _ => String.le_trans⟩

instance : Std.Antisymm (α := ObjectRef) (· ≤ ·) :=
  ⟨fun a b hab hba => by cases a; cases b; exact congrArg ObjectRef.mk (String.le_antisymm hab hba)⟩

instance : LE SubjectRef := ⟨fun a b => a.value ≤ b.value⟩

instance : DecidableLE SubjectRef := fun a b => inferInstanceAs (Decidable (a.value ≤ b.value))

/-- model.rs:168 -/
inductive Rewrite
  | direct
  | computedUserset (relation : Relation)
  | tupleToUserset (tuplesetRelation computedRelation : Relation)
  | union (children : List Rewrite)
  | intersection (children : List Rewrite)
  | exclusion (base subtract : Rewrite)
  | condition (name : String)

/-- `rewrite_name`. -/
def Rewrite.name : Rewrite → String
  | .direct => "direct"
  | .computedUserset _ => "computed_userset"
  | .tupleToUserset _ _ => "tuple_to_userset"
  | .union _ => "union"
  | .intersection _ => "intersection"
  | .exclusion _ _ => "exclusion"
  | .condition _ => "condition"

/-- model.rs:111 -/
structure RelationDefinition where
  rewrite : Rewrite

/-- model.rs:89, the map as an association list. -/
structure ObjectType where
  relations : List (String × RelationDefinition)

/-- model.rs:6 -/
structure AuthorizationModel where
  modelId : String
  types : List (String × ObjectType)

/-- tuple.rs:5 -/
structure RelationshipTuple where
  subject : SubjectRef
  relation : Relation
  object : ObjectRef
  condition : Option String
  tenantId : Option TenantRef
deriving DecidableEq

/-- engine.rs:9 -/
structure AuthzContext where
  tenantId : Option TenantRef
  attributes : List (String × String)
  tokenClaims : List (String × String)
  contextualTuples : List RelationshipTuple

/-- engine.rs:18 -/
structure Decision where
  allowed : Bool
  modelId : String
  reason : Option String
  visited : Nat
deriving DecidableEq

/-- engine.rs:47 -/
inductive ExpansionNode
  | mk (object : ObjectRef) (relation : Relation) (rewrite : String) (subjects : List SubjectRef)
    (children : List ExpansionNode) (visited : Nat)

/-- engine.rs:503 -/
structure EvalKey where
  subject : SubjectRef
  relation : Relation
  object : ObjectRef
deriving DecidableEq

/-- engine.rs:520 -/
structure EvaluationState where
  visited : Nat
  stack : List EvalKey
  memo : List (EvalKey × Bool)

/-- `EvaluationState::default`. -/
def EvaluationState.new : EvaluationState := ⟨0, [], []⟩

/-- `state.stack.remove(&key)`. -/
def EvaluationState.leave (state : EvaluationState) (key : EvalKey) : EvaluationState :=
  { state with stack := state.stack.filter fun k => decide (k ≠ key) }

/-- What a fallible function with `&mut EvaluationState` does. -/
abbrev Evaluation := ExceptT AuthzError (StateM EvaluationState)

theorem Evaluation.run_bind {α β : Type} (x : Evaluation α) (f : α → Evaluation β) (state : EvaluationState) :
    (x >>= f).run state =
      match x.run state with
      | (.ok a, state) => (f a).run state
      | (.error error, state) => (.error error, state) := by
  show (x.run >>= ExceptT.bindCont f) state = _
  show ExceptT.bindCont f (x.run state).1 (x.run state).2 = _
  rcases x.run state with ⟨_ | a, _⟩ <;> rfl

theorem Evaluation.run_bind_eq_ok {α β : Type} {x : Evaluation α} {f : α → Evaluation β} {s t : EvaluationState}
    {b : β} : (x >>= f).run s = (.ok b, t) ↔ ∃ a u, x.run s = (.ok a, u) ∧ (f a).run u = (.ok b, t) := by
  rw [run_bind]
  rcases x.run s with ⟨error | a, u⟩
  · constructor
    · intro h
      cases h
    · rintro ⟨_, _, h, _⟩
      cases h
  · constructor
    · intro h
      exact ⟨a, u, rfl, h⟩
    · rintro ⟨_, _, h, hf⟩
      cases h
      exact hf

/-- `condition_matches`. -/
def conditionMatches (name : String) (context : AuthzContext) : Bool :=
  match Text.splitOnce '=' name.toList with
  | some (key, expected) =>
    ((context.attributes.lookup (String.ofList key)).or (context.tokenClaims.lookup (String.ofList key))).any
      fun actual => decide (actual = String.ofList expected)
  | none =>
    ((context.attributes.lookup name).or (context.tokenClaims.lookup name)).any
      fun actual => decide (actual = "true" ∨ actual = "1" ∨ actual = "yes")

/-- `tuple_tenant_matches`. -/
def tupleTenantMatches (tuple : RelationshipTuple) (context : AuthzContext) : Bool :=
  match context.tenantId, tuple.tenantId with
  | some expected, some actual => decide (expected = actual)
  | some _, none => true
  | none, _ => true

/-- `tuple_condition_matches`. -/
def tupleConditionMatches (tuple : RelationshipTuple) (context : AuthzContext) : Bool :=
  tuple.condition.all fun condition => conditionMatches condition context

/-- engine.rs:57 -/
structure Evaluator where
  model : AuthorizationModel
  tuples : List RelationshipTuple
  maxDepth : Nat
  maxNodes : Nat

namespace Evaluator

/-- engine.rs:355 -/
def allTuples (e : Evaluator) (context : AuthzContext) : List RelationshipTuple := e.tuples ++ context.contextualTuples

/-- The tuples both `eval_rewrite` and `expand_rewrite` follow from an object over a relation. -/
def tuplesOf (e : Evaluator) (context : AuthzContext) (relation : Relation) (object : ObjectRef) :
    List RelationshipTuple :=
  (e.allTuples context).filter fun tuple =>
    decide (tuple.object = object) && decide (tuple.relation = relation) && tupleTenantMatches tuple context &&
      tupleConditionMatches tuple context

/-- engine.rs:298 -/
def directMatch (e : Evaluator) (context : AuthzContext) (subject : SubjectRef) (relation : Relation)
    (object : ObjectRef) : Bool :=
  (e.allTuples context).any fun tuple =>
    decide (tuple.subject = subject) && decide (tuple.relation = relation) && decide (tuple.object = object) &&
      tupleTenantMatches tuple context && tupleConditionMatches tuple context

/-- engine.rs:330 -/
def relationDefinition (e : Evaluator) (object : ObjectRef) (relation : Relation) :
    Except AuthzError RelationDefinition := do
  let definitionType ← okOr (.unknownObjectType object.typeName) (e.model.types.lookup object.typeName)
  okOr (.unknownRelation relation.value) (definitionType.relations.lookup relation.value)

/-- engine.rs:351 -/
def ensureRelation (e : Evaluator) (object : ObjectRef) (relation : Relation) : Except AuthzError Unit :=
  (e.relationDefinition object relation).map fun _ => ()

/-- engine.rs:362 -/
def enter (e : Evaluator) (key : EvalKey) (state : EvaluationState) (depth : Nat) :
    Except AuthzError EvaluationState :=
  if depth > e.maxDepth then .error .maxDepthExceeded
  else if state.visited ≥ e.maxNodes then .error .maxNodesExceeded
  else if key ∈ state.stack then .error .cycleDetected
  else .ok { state with visited := state.visited + 1, stack := key :: state.stack }

/-! ## Checks -/

section EvalRewrite
variable {m : Type → Type} [Monad m] [MonadExceptOf AuthzError m] (e : Evaluator) (context : AuthzContext)
  (checkInner : Relation → ObjectRef → Nat → m Bool) (subject : SubjectRef) (relation : Relation) (object : ObjectRef)

mutual

/-- engine.rs:199 -/
def evalRewrite : Rewrite → Nat → m Bool
  | .direct, _ => pure (e.directMatch context subject relation object)
  | .computedUserset computedRelation, depth => checkInner computedRelation object (depth + 1)
  | .tupleToUserset tuplesetRelation computedRelation, depth =>
    (e.tuplesOf context tuplesetRelation object).anyM fun tuple =>
      match ObjectRef.new tuple.subject.value with
      | .error error => throw error
      | .ok relatedObject => checkInner computedRelation relatedObject (depth + 1)
  | .union children, depth => evalUnion children (depth + 1)
  | .intersection children, depth => evalIntersection children (depth + 1)
  | .exclusion base subtract, depth => do
    let baseAllowed ← evalRewrite base (depth + 1)
    if !baseAllowed then pure false
    else do
      let subtractAllowed ← evalRewrite subtract (depth + 1)
      pure !subtractAllowed
  | .condition name, _ => pure (conditionMatches name context)

def evalUnion : List Rewrite → Nat → m Bool
  | [], _ => pure false
  | child :: children, depth => do
    let allowed ← evalRewrite child depth
    if allowed then pure true else evalUnion children depth

def evalIntersection : List Rewrite → Nat → m Bool
  | [], _ => pure true
  | child :: children, depth => do
    let allowed ← evalRewrite child depth
    if !allowed then pure false else evalIntersection children depth

end

end EvalRewrite

/-- The closure in `check_inner`. -/
def evalDefinition {m : Type → Type} [Monad m] [MonadExceptOf AuthzError m] (e : Evaluator) (context : AuthzContext)
    (checkInner : Relation → ObjectRef → Nat → m Bool) (subject : SubjectRef) (relation : Relation)
    (object : ObjectRef) (depth : Nat) : m Bool :=
  match e.relationDefinition object relation with
  | .error error => throw error
  | .ok definition => e.evalRewrite context checkInner subject relation object definition.rewrite depth

/-- `check_inner`, over the calls it makes to itself. -/
def checkStep (e : Evaluator) (context : AuthzContext) (subject : SubjectRef)
    (checkInner : Relation → ObjectRef → Nat → Evaluation Bool) (relation : Relation) (object : ObjectRef)
    (depth : Nat) : Evaluation Bool := fun state =>
  let key : EvalKey := ⟨subject, relation, object⟩
  match state.memo.lookup key with
  | some allowed => (.ok allowed, state)
  | none =>
    match e.enter key state depth with
    | .error error => (.error error, state)
    | .ok state =>
      let (result, state) := (e.evalDefinition context checkInner subject relation object depth).run state
      let state := state.leave key
      match result with
      | .error error => (.error error, state)
      | .ok allowed => (.ok allowed, { state with memo := (key, allowed) :: state.memo })

/-- `check_inner` with that many nested calls. -/
def checkWithin (e : Evaluator) (context : AuthzContext) (subject : SubjectRef) :
    Nat → Relation → ObjectRef → Nat → Evaluation Bool
  | 0 => e.checkStep context subject fun _ _ _ => throw .maxDepthExceeded
  | levels + 1 => e.checkStep context subject (e.checkWithin context subject levels)

/-- engine.rs:164 -/
def checkInner (e : Evaluator) (context : AuthzContext) (subject : SubjectRef) (relation : Relation)
    (object : ObjectRef) (depth : Nat) : Evaluation Bool :=
  e.checkWithin context subject (e.maxDepth + 1 - depth) relation object depth

/-- engine.rs:84 -/
def check (e : Evaluator) (subject : SubjectRef) (relation : Relation) (object : ObjectRef) (context : AuthzContext) :
    Except AuthzError Decision := do
  e.ensureRelation object relation
  let (result, state) := (e.checkInner context subject relation object 0).run EvaluationState.new
  let allowed ← result
  if allowed then pure ⟨true, e.model.modelId, none, state.visited⟩
  else pure ⟨false, e.model.modelId, some "no matching relationship path", state.visited⟩

/-- The objects of the tuples, in the order of the `BTreeSet` they are collected in. -/
def candidates (e : Evaluator) (objectType : String) (context : AuthzContext) : List ObjectRef :=
  btreeSet (((e.allTuples context).map RelationshipTuple.object).filter fun object =>
    decide (object.typeName = objectType))

/-- engine.rs:117 -/
def listObjects (e : Evaluator) (subject : SubjectRef) (relation : Relation) (objectType : String)
    (context : AuthzContext) : Except AuthzError (List ObjectRef) := do
  let objectDefinition ← okOr (.unknownObjectType objectType) (e.model.types.lookup objectType)
  let _ ← okOr (.unknownRelation relation.value) (objectDefinition.relations.lookup relation.value)
  (e.candidates objectType context).filterM fun object => do
    let decision ← e.check subject relation object context
    pure decision.allowed

/-! ## Expansions -/

section ExpandRewrite
variable (e : Evaluator) (context : AuthzContext) (expandInner : Relation → ObjectRef → Nat → Evaluation ExpansionNode)
  (relation : Relation) (object : ObjectRef)

/-- The node of a rewrite, with the number of keys visited when it is complete. -/
def expansionNode (rewrite : Rewrite) (subjects : List SubjectRef) (children : List ExpansionNode) :
    Evaluation ExpansionNode := do
  let state ← get
  pure (.mk object relation rewrite.name subjects children state.visited)

mutual

/-- engine.rs:403 -/
def expandRewrite : Rewrite → Nat → Evaluation ExpansionNode
  | .direct, _ =>
    expansionNode relation object .direct
      (btreeSet ((e.tuplesOf context relation object).map RelationshipTuple.subject)) []
  | .computedUserset computedRelation, depth => do
    let child ← expandInner computedRelation object (depth + 1)
    expansionNode relation object (.computedUserset computedRelation) [] [child]
  | .tupleToUserset tuplesetRelation computedRelation, depth => do
    let children ← (e.tuplesOf context tuplesetRelation object).mapM fun tuple => do
      let relatedObject ← ObjectRef.new tuple.subject.value
      expandInner computedRelation relatedObject (depth + 1)
    expansionNode relation object (.tupleToUserset tuplesetRelation computedRelation) [] children
  | .union rewrites, depth => do
    let children ← expandChildren rewrites (depth + 1)
    expansionNode relation object (.union rewrites) [] children
  | .intersection rewrites, depth => do
    let children ← expandChildren rewrites (depth + 1)
    expansionNode relation object (.intersection rewrites) [] children
  | .exclusion base subtract, depth => do
    let first ← expandRewrite base (depth + 1)
    let second ← expandRewrite subtract (depth + 1)
    expansionNode relation object (.exclusion base subtract) [] [first, second]
  | .condition name, _ => expansionNode relation object (.condition name) [] []

def expandChildren : List Rewrite → Nat → Evaluation (List ExpansionNode)
  | [], _ => pure []
  | rewrite :: rewrites, depth => do
    let child ← expandRewrite rewrite depth
    let children ← expandChildren rewrites depth
    pure (child :: children)

end

end ExpandRewrite

/-- `expand_inner`, over the calls it makes to itself. -/
def expandStep (e : Evaluator) (context : AuthzContext)
    (expandInner : Relation → ObjectRef → Nat → Evaluation ExpansionNode) (relation : Relation) (object : ObjectRef)
    (depth : Nat) : Evaluation ExpansionNode := fun state =>
  let key : EvalKey := ⟨⟨"__expand__:subject"⟩, relation, object⟩
  match e.enter key state depth with
  | .error error => (.error error, state)
  | .ok state =>
    match e.relationDefinition object relation with
    | .error error => (.error error, state.leave key)
    | .ok definition =>
      let (result, state) := (e.expandRewrite context expandInner relation object definition.rewrite depth).run state
      (result, state.leave key)

/-- `expand_inner` with that many nested calls. -/
def expandWithin (e : Evaluator) (context : AuthzContext) :
    Nat → Relation → ObjectRef → Nat → Evaluation ExpansionNode
  | 0 => e.expandStep context fun _ _ _ => throw .maxDepthExceeded
  | levels + 1 => e.expandStep context (e.expandWithin context levels)

/-- engine.rs:382 -/
def expandInner (e : Evaluator) (context : AuthzContext) (relation : Relation) (object : ObjectRef) (depth : Nat) :
    Evaluation ExpansionNode :=
  e.expandWithin context (e.maxDepth + 1 - depth) relation object depth

/-- engine.rs:153 -/
def expand (e : Evaluator) (relation : Relation) (object : ObjectRef) (context : AuthzContext) :
    Except AuthzError ExpansionNode := do
  e.ensureRelation object relation
  ((e.expandInner context relation object 0).run EvaluationState.new).1

end Evaluator

end WasiAuth.Testkit
