import Mathlib.Data.List.Basic
import Mathlib.Tactic.Common

/-! # Permit and forbid

The fragment of Cedar without entity hierarchies: a request names a principal, an action and a resource and carries a
context; a rule has a scope and a condition over attributes. A request is allowed when some permit is satisfied and no
forbid is. A condition can fail to evaluate; its rule is then not satisfied, and the failure is reported.

`Expr.Tests` says what a condition evaluates to, one rule for each connective, with the short cuts of `&&` and `||`.
-/

namespace Policy

structure Uid where
  type : String
  id : String
deriving DecidableEq

inductive Value
  | bool (b : Bool)
  | string (s : String)
  | set (elements : List String)
deriving DecidableEq

abbrev Record := List (String × Value)

structure Entity where
  uid : Uid
  attributes : Record

structure Request where
  principal : Uid
  action : Uid
  resource : Uid
  context : Record

theorem lookup_cons_ne {β : Type} {name name' : String} (h : name ≠ name') (b : β) (l : List (String × β)) :
    List.lookup name ((name', b) :: l) = List.lookup name l := by
  rw [List.lookup_cons, beq_false_of_ne h]

/-! ## Conditions -/

inductive Var
  | principal | resource | context

inductive Expr
  | string (s : String)
  | attr (x : Var) (name : String)
  | has (x : Var) (name : String)
  | contains (set element : Expr)
  | eq (a b : Expr)
  | not (a : Expr)
  | and (a b : Expr)
  | or (a b : Expr)

inductive EvalError
  | noEntity | noAttribute | typeError
deriving DecidableEq

/-- Sets are compared as sets. -/
def Value.equal : Value → Value → Bool
  | .bool a, .bool b => a == b
  | .string a, .string b => a == b
  | .set a, .set b => a.all b.contains && b.all a.contains
  | _, _ => false

def Value.holds : Value → Except EvalError Bool
  | .bool b => .ok b
  | _ => .error .typeError

section Semantics
variable (request : Request) (entities : List Entity)

/-- The attributes of the variable; none, if the entity is unknown. -/
def Var.attributes : Var → Option Record
  | .principal => (entities.find? fun e => decide (e.uid = request.principal)).map Entity.attributes
  | .resource => (entities.find? fun e => decide (e.uid = request.resource)).map Entity.attributes
  | .context => some request.context

def Expr.eval : Expr → Except EvalError Value
  | .string s => .ok (.string s)
  | .attr x name =>
    match x.attributes request entities with
    | none => .error .noEntity
    | some record =>
      match record.lookup name with
      | none => .error .noAttribute
      | some value => .ok value
  | .has x name => .ok (.bool ((x.attributes request entities).any fun record => (record.lookup name).isSome))
  | .contains set element =>
    match set.eval, element.eval with
    | .ok (.set elements), .ok value => .ok (.bool (elements.any fun s => Value.equal (.string s) value))
    | .ok _, .ok _ => .error .typeError
    | .error e, _ | _, .error e => .error e
  | .eq a b =>
    match a.eval, b.eval with
    | .ok x, .ok y => .ok (.bool (x.equal y))
    | .error e, _ | _, .error e => .error e
  | .not a => do
    let x ← a.eval
    let x ← x.holds
    pure (.bool !x)
  | .and a b => do
    let x ← a.eval
    let x ← x.holds
    if x then
      let y ← b.eval
      let y ← y.holds
      pure (.bool y)
    else pure (.bool false)
  | .or a b => do
    let x ← a.eval
    let x ← x.holds
    if x then pure (.bool true)
    else
      let y ← b.eval
      let y ← y.holds
      pure (.bool y)

/-- The condition evaluates to the truth value. -/
def Expr.Tests (e : Expr) (b : Bool) : Prop := e.eval request entities = .ok (.bool b)

end Semantics

section Rules
variable {request : Request} {entities : List Entity} {a b : Expr} {x y : Bool}

theorem Expr.eval_attr {v : Var} {name : String} {record : Record} {value : Value}
    (hrecord : v.attributes request entities = some record) (hvalue : record.lookup name = some value) :
    (Expr.attr v name).eval request entities = .ok value := by
  simp only [eval, hrecord, hvalue]

theorem Expr.Tests.attr {v : Var} {name : String} {record : Record}
    (hrecord : v.attributes request entities = some record) (hvalue : record.lookup name = some (.bool x)) :
    (Expr.attr v name).Tests request entities x := eval_attr hrecord hvalue

theorem Expr.Tests.has {v : Var} {record : Record} (hrecord : v.attributes request entities = some record)
    (name : String) : (Expr.has v name).Tests request entities (record.lookup name).isSome := by
  simp only [Tests, eval, hrecord, Option.any_some]

theorem Expr.Tests.contains {elements : List String} {s : String} (ha : a.eval request entities = .ok (.set elements))
    (hb : b.eval request entities = .ok (.string s)) :
    (Expr.contains a b).Tests request entities (decide (s ∈ elements)) := by
  simp only [Tests, eval, ha, hb, Except.ok.injEq, Value.bool.injEq]
  rw [Bool.eq_iff_iff]
  simp [Value.equal]

theorem Expr.Tests.eq {s t : String} (ha : a.eval request entities = .ok (.string s))
    (hb : b.eval request entities = .ok (.string t)) : (Expr.eq a b).Tests request entities (decide (s = t)) := by
  simp only [Tests, eval, ha, hb, Except.ok.injEq, Value.bool.injEq, Value.equal]
  rfl

theorem Expr.Tests.not (ha : a.Tests request entities x) : (Expr.not a).Tests request entities (!x) := by
  simp only [Tests, eval] at ha ⊢
  rw [ha]
  rfl

/-- The second condition is evaluated only if the first holds. -/
theorem Expr.Tests.and (ha : a.Tests request entities x) (hb : x = true → b.Tests request entities y) :
    (Expr.and a b).Tests request entities (x && y) := by
  simp only [Tests, eval] at ha hb ⊢
  rw [ha]
  cases x with
  | false => rfl
  | true =>
    rw [hb rfl]
    rfl

theorem Expr.Tests.or (ha : a.Tests request entities x) (hb : x = false → b.Tests request entities y) :
    (Expr.or a b).Tests request entities (x || y) := by
  simp only [Tests, eval] at ha hb ⊢
  rw [ha]
  cases x with
  | true => rfl
  | false =>
    rw [hb rfl]
    rfl

end Rules

/-! ## Rules and their answer -/

inductive Effect
  | permit | forbid
deriving DecidableEq

inductive Scope
  | any
  | is (type : String)
  | eq (uid : Uid)

def Scope.covers : Scope → Uid → Bool
  | .any, _ => true
  | .is type, uid => decide (uid.type = type)
  | .eq expected, uid => decide (uid = expected)

structure Rule where
  effect : Effect
  principal : Scope
  action : Scope
  resource : Scope
  condition : Expr

structure Response where
  allowed : Bool
  errors : List EvalError

section Answer
variable (request : Request) (entities : List Entity)

def Rule.eval (rule : Rule) : Except EvalError Bool :=
  if rule.principal.covers request.principal && rule.action.covers request.action &&
      rule.resource.covers request.resource then do
    let value ← rule.condition.eval request entities
    value.holds
  else .ok false

def Rule.satisfied (rule : Rule) : Bool :=
  match rule.eval request entities with
  | .ok b => b
  | .error _ => false

def Rule.failure (rule : Rule) : Option EvalError :=
  match rule.eval request entities with
  | .ok _ => none
  | .error e => some e

def isAuthorized (rules : List Rule) : Response where
  allowed :=
    (rules.any fun rule => decide (rule.effect = .permit) && rule.satisfied request entities) &&
      !rules.any fun rule => decide (rule.effect = .forbid) && rule.satisfied request entities
  errors := rules.filterMap (Rule.failure request entities)

variable {request entities}

theorem Rule.eval_of_tests {rule : Rule} {b : Bool} (hprincipal : rule.principal.covers request.principal = true)
    (haction : rule.action.covers request.action = true) (hresource : rule.resource.covers request.resource = true)
    (hcondition : rule.condition.Tests request entities b) : rule.eval request entities = .ok b := by
  rw [Rule.eval, hprincipal, haction, hresource, Bool.and_self, Bool.and_self, if_pos rfl, hcondition]
  rfl

/-- One permit decides alone. -/
theorem isAuthorized_permit {rule : Rule} {b : Bool} (heffect : rule.effect = .permit)
    (heval : rule.eval request entities = .ok b) : isAuthorized request entities [rule] = ⟨b, []⟩ := by
  simp [isAuthorized, heffect, Rule.satisfied, Rule.failure, heval]

end Answer

/-! ## Schemas -/

inductive AttributeType
  | string | boolean | set

def Value.hasType : Value → AttributeType → Bool
  | .string _, .string | .bool _, .boolean | .set _, .set => true
  | _, _ => false

structure Attribute where
  name : String
  type : AttributeType
  required : Bool

abbrev RecordType := List Attribute

/-- Every value is declared and of its type, and nothing required is missing. -/
def Record.conforms (record : Record) (type : RecordType) : Bool :=
  (record.all fun (name, value) => type.any fun a => decide (a.name = name) && value.hasType a.type) &&
    type.all fun a => !a.required || (record.lookup a.name).isSome

structure ActionType where
  id : String
  principalTypes : List String
  resourceTypes : List String
  context : RecordType

structure Schema where
  entityTypes : List (String × RecordType)
  actions : List ActionType

def Schema.entityConforms (schema : Schema) (entity : Entity) : Bool :=
  (schema.entityTypes.lookup entity.uid.type).any fun type => Record.conforms entity.attributes type

/-- The action of the request, if the schema has it. -/
def Schema.actionType (schema : Schema) (action : Uid) : Option ActionType :=
  schema.actions.find? fun type => decide (action = ⟨"Action", type.id⟩)

def Schema.contextConforms (schema : Schema) (action : Uid) (context : Record) : Bool :=
  (schema.actionType action).any fun type => Record.conforms context type.context

def Schema.requestConforms (schema : Schema) (request : Request) : Bool :=
  (schema.actionType request.action).any fun type =>
    type.principalTypes.contains request.principal.type && type.resourceTypes.contains request.resource.type &&
      Record.conforms request.context type.context

end Policy
