import Mathlib.Data.List.Destutter
import WasiAuth.Identity.Values
import WasiAuth.Postgres.Management

/-! # The organization access model

`upsert_role` does not send the requested permissions to the database as they are: it sorts them, removes
duplicates, adds the permissions they depend on (access_model.rs:131-165) and refuses any that a custom role may not
have (access_model.rs:175-190). Only `ownership.transfer` is such a permission, and the SQL statement does not look
at the list, so these checks are what keeps it with the built-in owner (`upsertRoleParameters_not_transfer`).

The loop of `expand_with_dependencies` takes a permission from the queue and queues those of its dependencies that
are not in the set yet. Every permission queued leaves the part of the catalog that is not in the set, so the loop
ends after at most `pending` rounds.
-/

namespace WasiAuth

open Relational

/-- A permission definition, without the columns of the admin user interface. -/
structure PermissionDefinition where
  id : String
  dependencies : List String
  customRoleEligible : Bool
deriving DecidableEq

/-- access_model.rs:56 -/
inductive AccessModelError
  | unknownPermission
  | restrictedPermission
  | incompleteDependencies
deriving DecidableEq

/-- access_model.rs:83 -/
structure OrganizationAccessModel where
  definitions : List PermissionDefinition

/-- `PRODUCT_DEFINITIONS`. -/
def productDefinitions : List PermissionDefinition :=
  [⟨"audit.view", [], true⟩,
   ⟨"counter.change", ["counter.view"], true⟩,
   ⟨"counter.reset", ["counter.view"], true⟩,
   ⟨"counter.view", [], true⟩,
   ⟨"dashboard.manage", ["dashboard.view"], true⟩,
   ⟨"dashboard.view", [], true⟩,
   ⟨"member.invite", ["member.view"], true⟩,
   ⟨"member.manage", ["member.view"], true⟩,
   ⟨"member.view", [], true⟩,
   ⟨"organization.update", ["organization.view"], true⟩,
   ⟨"organization.view", [], true⟩,
   ⟨"ownership.transfer", [], false⟩,
   ⟨"query.execute", ["query.view"], true⟩,
   ⟨"query.execute_mutation", ["query.execute"], true⟩,
   ⟨"query.manage", ["query.view"], true⟩,
   ⟨"query.view", [], true⟩,
   ⟨"resource.manage", ["resource.view"], true⟩,
   ⟨"resource.view", [], true⟩,
   ⟨"role.manage", ["role.view"], true⟩,
   ⟨"role.view", [], true⟩,
   ⟨"vault.manage", ["vault.view"], true⟩,
   ⟨"vault.reveal", ["vault.view"], true⟩,
   ⟨"vault.view", [], true⟩]

namespace OrganizationAccessModel

/-- access_model.rs:90 -/
def productDefault : OrganizationAccessModel := ⟨productDefinitions⟩

/-- access_model.rs:110 -/
def definition (model : OrganizationAccessModel) (permission : String) : Option PermissionDefinition :=
  model.definitions.find? fun item => decide (item.id = permission)

/-- `index`, a map in which a later definition of an id replaces an earlier one. -/
def index (model : OrganizationAccessModel) (permission : String) : Option PermissionDefinition :=
  model.definitions.reverse.find? fun item => decide (item.id = permission)

/-- The set `expanded` and the `queue` of `expand_with_dependencies`. -/
structure Expansion where
  expanded : List String
  queue : List String

/-- `if expanded.insert(permission) { queue.push_back(permission) }`. -/
def Expansion.insert (permission : String) (s : Expansion) : Expansion :=
  if permission ∈ s.expanded then s else ⟨s.expanded ++ [permission], s.queue ++ [permission]⟩

/-- The two loops that insert permissions differ in the error for an unknown one. -/
def insertAll (model : OrganizationAccessModel) (unknown : AccessModelError) :
    List String → Expansion → Except AccessModelError Expansion
  | [], s => .ok s
  | permission :: permissions, s =>
    if (model.index permission).isSome then insertAll model unknown permissions (s.insert permission)
    else .error unknown

/-- What a turn of the loop decreases. -/
def pending (model : OrganizationAccessModel) (s : Expansion) : Nat :=
  (model.definitions.countP fun item => decide (item.id ∉ s.expanded)) + s.queue.length

section Pending
variable {model : OrganizationAccessModel} {unknown : AccessModelError} {s s' : Expansion} {permission : String}

theorem exists_definition_of_index (h : (model.index permission).isSome) :
    ∃ item ∈ model.definitions, item.id = permission := by
  obtain ⟨item, hitem⟩ := Option.isSome_iff_exists.1 h
  refine ⟨item, List.mem_reverse.1 (List.mem_of_find?_eq_some hitem), ?_⟩
  simpa using List.find?_some hitem

theorem countP_lt_countP {α : Type} {p q : α → Bool} {x : α} : ∀ {l : List α}, (∀ y, p y = true → q y = true) →
    x ∈ l → p x = false → q x = true → l.countP p < l.countP q
  | y :: l, hpq, hx, hp, hq => by
    rw [List.countP_cons, List.countP_cons]
    rcases List.mem_cons.1 hx with rfl | hx
    · have hle : l.countP p ≤ l.countP q := List.countP_mono_left fun y _ => hpq y
      simp only [hp, hq, if_true, Bool.false_eq_true, if_false]
      omega
    · have hlt := countP_lt_countP hpq hx hp hq
      by_cases hy : p y = true
      · simp only [hy, hpq y hy, if_true]
        omega
      · rw [if_neg hy]
        omega

theorem pending_insert_le (h : (model.index permission).isSome) :
    model.pending (s.insert permission) ≤ model.pending s := by
  unfold Expansion.insert
  split
  · exact le_rfl
  · rename_i hnew
    obtain ⟨item, hitem, hid⟩ := exists_definition_of_index h
    have hlt : (model.definitions.countP fun d => decide (d.id ∉ s.expanded ++ [permission])) <
        model.definitions.countP fun d => decide (d.id ∉ s.expanded) := by
      refine countP_lt_countP (x := item) (fun d hd => ?_) hitem ?_ ?_
      · simp only [List.mem_append, not_or, decide_eq_true_eq] at hd ⊢
        exact hd.1
      · simp [hid]
      · simpa [hid] using hnew
    simp only [pending, List.length_append, List.length_singleton]
    omega

theorem pending_insertAll_le : ∀ {permissions : List String} {s : Expansion},
    model.insertAll unknown permissions s = .ok s' → model.pending s' ≤ model.pending s
  | [], _, h => by cases h; exact le_rfl
  | permission :: permissions, s, h => by
    unfold insertAll at h
    split at h
    · rename_i hknown
      exact (pending_insertAll_le h).trans (pending_insert_le hknown)
    · cases h

end Pending

/-- The `while` loop; a `BTreeSet` is read in order. -/
def expandLoop (model : OrganizationAccessModel) : Expansion → Except AccessModelError (List String)
  | ⟨expanded, []⟩ => .ok (expanded.insertionSort (· ≤ ·))
  | ⟨expanded, current :: queue⟩ =>
    match model.index current with
    | none => .error .incompleteDependencies
    | some item =>
      match _hinsert : model.insertAll .incompleteDependencies item.dependencies ⟨expanded, queue⟩ with
      | .error e => .error e
      | .ok s => expandLoop model s
termination_by s => model.pending s
decreasing_by
  have hle := pending_insertAll_le _hinsert
  simp only [pending, List.length_cons] at hle ⊢
  omega

/-- access_model.rs:131 -/
def expandWithDependencies (model : OrganizationAccessModel) (permissions : List String) :
    Except AccessModelError (List String) := do
  let s ← model.insertAll .unknownPermission permissions ⟨[], []⟩
  model.expandLoop s

/-- access_model.rs:175 -/
def validateCustomRolePermissions (model : OrganizationAccessModel) : List String → Except AccessModelError Unit
  | [] => .ok ()
  | permission :: permissions =>
    match model.definition permission with
    | none => .error .unknownPermission
    | some item =>
      if item.customRoleEligible then validateCustomRolePermissions model permissions
      else .error .restrictedPermission

/-! ## What an expansion returns -/

section Expand
variable {model : OrganizationAccessModel} {unknown : AccessModelError} {s s' : Expansion}

def Expansion.Closed (model : OrganizationAccessModel) (s : Expansion) (permission : String) : Prop :=
  ∃ item, model.index permission = some item ∧ ∀ dependency ∈ item.dependencies, dependency ∈ s.expanded

/-- Every permission of the set is queued, excused or has its dependencies in the set. -/
def Expansion.Closing (model : OrganizationAccessModel) (excused : String → Prop) (s : Expansion) : Prop :=
  (∀ permission ∈ s.queue, permission ∈ s.expanded) ∧
  ∀ permission ∈ s.expanded, permission ∈ s.queue ∨ excused permission ∨ s.Closed model permission

theorem mem_insert {s : Expansion} {permission x : String} :
    x ∈ (s.insert permission).expanded ↔ x = permission ∨ x ∈ s.expanded := by
  unfold Expansion.insert
  split
  · exact ⟨.inr, fun h => h.elim (fun heq => heq ▸ ‹_›) id⟩
  · simp [or_comm]

theorem Expansion.Closing.insert {excused : String → Prop} (h : s.Closing model excused) (permission : String) :
    (s.insert permission).Closing model excused := by
  have hgrow : ∀ x ∈ s.expanded, x ∈ (s.insert permission).expanded := fun x hx => mem_insert.2 (.inr hx)
  have hclosed : ∀ {x}, s.Closed model x → (s.insert permission).Closed model x :=
    fun ⟨item, hitem, hdeps⟩ => ⟨item, hitem, fun d hd => hgrow d (hdeps d hd)⟩
  have hqueue : ∀ x, x ∈ (s.insert permission).queue ↔ x ∈ s.queue ∨ x = permission ∧ permission ∉ s.expanded := by
    intro x
    unfold Expansion.insert
    split <;> simp [*]
  constructor
  · intro x hx
    rcases (hqueue x).1 hx with hx | ⟨rfl, -⟩
    · exact hgrow x (h.1 x hx)
    · exact mem_insert.2 (.inl rfl)
  · intro x hx
    by_cases hold : x ∈ s.expanded
    · exact (h.2 x hold).imp (fun hx => (hqueue x).2 (.inl hx)) (Or.imp_right hclosed)
    · obtain rfl := (mem_insert.1 hx).resolve_right hold
      exact .inl ((hqueue x).2 (.inr ⟨rfl, hold⟩))

theorem insertAll_eq_ok (excused : String → Prop) : ∀ {permissions : List String} {s : Expansion},
    model.insertAll unknown permissions s = .ok s' → (s.Closing model excused → s'.Closing model excused) ∧
      ∀ x, x ∈ s'.expanded ↔ x ∈ permissions ∨ x ∈ s.expanded
  | [], _, h => by cases h; exact ⟨id, by simp⟩
  | permission :: permissions, s, h => by
    unfold insertAll at h
    split at h
    · obtain ⟨hclosing, hmem⟩ := insertAll_eq_ok excused h
      refine ⟨fun hs => hclosing (hs.insert permission), fun x => ?_⟩
      rw [hmem, mem_insert, List.mem_cons]
      tauto
    · cases h

theorem expandLoop_cons {expanded queue : List String} {current : String} :
    model.expandLoop ⟨expanded, current :: queue⟩ = (do
      let item ← okOr .incompleteDependencies (model.index current)
      let s ← model.insertAll .incompleteDependencies item.dependencies ⟨expanded, queue⟩
      model.expandLoop s) := by
  rw [expandLoop]
  cases model.index current with
  | none => rfl
  | some item =>
    dsimp only [okOr, ok_bind]
    split <;> rename_i h <;> rw [h] <;> rfl

/-- The set that is returned contains the one the loop starts from and is closed under dependencies. -/
theorem expandLoop_eq_ok (s : Expansion) {permissions : List String} (h : model.expandLoop s = .ok permissions)
    (hs : s.Closing model fun _ => False) : (∀ x ∈ s.expanded, x ∈ permissions) ∧
      ∀ x ∈ permissions, ∃ item, model.index x = some item ∧ ∀ d ∈ item.dependencies, d ∈ permissions := by
  match s with
  | ⟨expanded, []⟩ =>
    rw [expandLoop] at h
    cases h
    simp only [List.mem_insertionSort]
    refine ⟨fun _ => id, fun x hx => ?_⟩
    rcases hs.2 x hx with hqueue | hexcused | hclosed
    · cases hqueue
    · cases hexcused
    · exact hclosed
  | ⟨expanded, current :: queue⟩ =>
    rw [expandLoop_cons] at h
    obtain ⟨item, hitem, h⟩ := bind_eq_ok.1 h
    obtain ⟨s', hinsert, h⟩ := bind_eq_ok.1 h
    have hle := pending_insertAll_le hinsert
    obtain ⟨hclosing, hmem⟩ := insertAll_eq_ok (fun x => x = current) hinsert
    have hs' : s'.Closing model fun x => x = current := by
      refine hclosing ⟨fun x hx => hs.1 x (.tail _ hx), fun x hx => ?_⟩
      rcases hs.2 x hx with hqueue | hexcused | hclosed
      · rcases List.mem_cons.1 hqueue with rfl | hqueue
        · exact .inr (.inl rfl)
        · exact .inl hqueue
      · cases hexcused
      · exact .inr (.inr hclosed)
    -- the permission that was taken from the queue has its dependencies now
    have hcurrent : s'.Closed model current := by
      cases hindex : model.index current with
      | none => rw [hindex] at hitem; cases hitem
      | some item' =>
        rw [hindex] at hitem
        cases hitem
        exact ⟨item, hindex, fun d hd => (hmem d).2 (.inl hd)⟩
    obtain ⟨hsub, hclosed⟩ := expandLoop_eq_ok s' h ⟨hs'.1, fun x hx =>
      (hs'.2 x hx).imp_right fun hx => .inr (hx.elim (fun heq => heq ▸ hcurrent) id)⟩
    exact ⟨fun x hx => hsub x ((hmem x).2 (.inr hx)), hclosed⟩
termination_by model.pending s
decreasing_by
  simp only [pending, List.length_cons] at hle ⊢
  omega

theorem expandWithDependencies_eq_ok {permissions expanded : List String}
    (h : model.expandWithDependencies permissions = .ok expanded) : (∀ x ∈ permissions, x ∈ expanded) ∧
      ∀ x ∈ expanded, ∃ item, model.index x = some item ∧ ∀ d ∈ item.dependencies, d ∈ expanded := by
  obtain ⟨s, hs, h⟩ := bind_eq_ok.1 h
  obtain ⟨hclosing, hmem⟩ := insertAll_eq_ok (fun _ => False) hs
  obtain ⟨hsub, hclosed⟩ := expandLoop_eq_ok s h (hclosing ⟨by simp, by simp⟩)
  exact ⟨fun x hx => hsub x ((hmem x).2 (.inl hx)), hclosed⟩

example : productDefault.expandWithDependencies ["query.execute_mutation"] =
    .ok ["query.execute", "query.execute_mutation", "query.view"] := by decide +kernel

theorem validateCustomRolePermissions_eq_ok : ∀ {permissions : List String},
    model.validateCustomRolePermissions permissions = .ok () →
      ∀ x ∈ permissions, ∃ item, model.definition x = some item ∧ item.customRoleEligible = true
  | [], _, _, hx => by cases hx
  | permission :: permissions, h, x, hx => by
    unfold validateCustomRolePermissions at h
    split at h
    · cases h
    · rename_i item hitem
      split at h
      · rename_i heligible
        rcases List.mem_cons.1 hx with rfl | hx
        · exact ⟨item, hitem, heligible⟩
        · exact validateCustomRolePermissions_eq_ok h x hx
      · cases h

end Expand

end OrganizationAccessModel

/-! ## The request -/

/-- management.rs:1315 -/
inductive ManagementError
  | invalidRequest
  | restrictedPermission
  | notAuthorized
  | transport
deriving DecidableEq

/-- management.rs:158 -/
structure UpsertRoleRequest where
  sessionId : Uuid
  organizationId : String
  roleId : String
  name : String
  permissions : List String

def isRoleIdByte (b : UInt8) : Bool :=
  let c := Char.ofNat b.toNat
  c.isAlphanum || decide (c ∈ ['.', '_', '-'])

/-- management.rs:1245 -/
def validateRoleId (value : String) (allowBuiltIn : Bool) : Except ManagementError Unit :=
  let builtIn := decide (value ∈ ["owner", "admin", "member", "viewer"])
  if value = "" ∨ 128 < value.utf8ByteSize ∨ (!allowBuiltIn && builtIn) = true ∨
      ¬ (utf8Bytes value).all isRoleIdByte = true then .error .invalidRequest
  else .ok ()

/-- management.rs:1233 -/
def boundedName (value : String) (max : Nat) : Except ManagementError String :=
  let value := trim value
  if value = "" ∨ max < value.utf8ByteSize ∨ value.toList.any isControl = true then .error .invalidRequest
  else .ok value

/-- management.rs:1112 -/
def mapAccessModelError : AccessModelError → ManagementError
  | .unknownPermission | .restrictedPermission => .restrictedPermission
  | .incompleteDependencies => .invalidRequest

/-- `upsert_role` up to its query: the parameters it sends. `parseUuid` is `Uuid::parse_str`. -/
def upsertRoleParameters (parseUuid : String → Option Uuid) (request : UpsertRoleRequest) (nowMs : Int) :
    Except ManagementError UpsertRole := do
  let organizationId ← okOr .invalidRequest (parseUuid request.organizationId)
  validateRoleId request.roleId false
  let name ← boundedName request.name 80
  if 100 < request.permissions.length then throw .invalidRequest
  let permissions := (request.permissions.insertionSort (· ≤ ·)).destutter (· ≠ ·)
  let model := OrganizationAccessModel.productDefault
  let permissions ← (model.expandWithDependencies permissions).mapError mapAccessModelError
  (model.validateCustomRolePermissions permissions).mapError mapAccessModelError
  pure { sessionId := request.sessionId, organizationId := organizationId, roleId := request.roleId, name := name
         permissions := permissions, nowMs := nowMs }

section Request
variable {parseUuid : String → Option Uuid} {request : UpsertRoleRequest} {nowMs : Int} {p : UpsertRole}

theorem not_eligible_transfer {item : PermissionDefinition}
    (h : OrganizationAccessModel.productDefault.definition "ownership.transfer" = some item) :
    item.customRoleEligible = false := by
  have hitem : OrganizationAccessModel.productDefault.definition "ownership.transfer" =
      some ⟨"ownership.transfer", [], false⟩ := by decide +kernel
  cases hitem.symm.trans h
  rfl

/-- What reaches the database is a custom role without `ownership.transfer`. -/
theorem upsertRoleParameters_not_transfer (h : upsertRoleParameters parseUuid request nowMs = .ok p) :
    p.roleId ≠ "owner" ∧ "ownership.transfer" ∉ p.permissions := by
  obtain ⟨organizationId, -, h⟩ := bind_eq_ok.1 h
  obtain ⟨_, hrole, h⟩ := bind_eq_ok.1 h
  obtain ⟨name, -, h⟩ := bind_eq_ok.1 h
  split at h
  · cases h
  · obtain ⟨permissions, -, h⟩ := bind_eq_ok.1 h
    obtain ⟨_, hvalid, h⟩ := bind_eq_ok.1 h
    cases h
    constructor
    · intro howner
      simp only at howner
      rw [howner] at hrole
      simp [validateRoleId] at hrole
    · intro hmem
      obtain ⟨item, hitem, heligible⟩ :=
        OrganizationAccessModel.validateCustomRolePermissions_eq_ok (mapError_eq_ok.1 hvalid) _ hmem
      rw [not_eligible_transfer hitem] at heligible
      cases heligible

end Request

end WasiAuth
