import Mathlib.Logic.Relation
import WasiAuth.Management.AccessModel

/-! # Permission dependencies

`expand_with_dependencies` (131-164) is modelled in `Management.AccessModel`, with its termination. The loop never
queues a permission that the request does not reach, and at the end nothing it has not added is a dependency of what it
has; so the result is the smallest closed set around the request, also where dependencies form a cycle.
-/

namespace WasiAuth.OrganizationAccessModel

open Relational

/-- access_model.rs:197 -/
def ensureDependenciesPresent (model : OrganizationAccessModel) (permissions : List String) :
    Except AccessModelError Unit :=
  permissions.forM fun permission => do
    let item ← okOr .unknownPermission (model.definition permission)
    item.dependencies.forM fun dependency =>
      if dependency ∈ permissions then .ok () else .error .incompleteDependencies

/-! ## The dependency graph -/

def Known (model : OrganizationAccessModel) (permission : String) : Prop :=
  ∃ item ∈ model.definitions, item.id = permission

/-- `permission` declares `dependency`. -/
def Depends (model : OrganizationAccessModel) (permission dependency : String) : Prop :=
  ∃ item ∈ model.definitions, item.id = permission ∧ dependency ∈ item.dependencies

/-- The permission is requested, or a dependency of what is. -/
def Reaches (model : OrganizationAccessModel) (permissions : List String) (permission : String) : Prop :=
  ∃ requested ∈ permissions, Relation.ReflTransGen model.Depends requested permission

/-- With a permission its dependencies. -/
def DependencyClosed (model : OrganizationAccessModel) (permissions : List String) : Prop :=
  ∀ permission ∈ permissions, ∀ dependency, model.Depends permission dependency → dependency ∈ permissions

def DistinctIds (model : OrganizationAccessModel) : Prop := (model.definitions.map PermissionDefinition.id).Nodup

section Graph
variable {model : OrganizationAccessModel} {permissions : List String} {permission dependency : String}

theorem reaches_of_mem (h : permission ∈ permissions) : model.Reaches permissions permission :=
  ⟨permission, h, .refl⟩

theorem Reaches.tail (h : model.Reaches permissions permission) (hdepends : model.Depends permission dependency) :
    model.Reaches permissions dependency := by
  obtain ⟨requested, hrequested, hpath⟩ := h
  exact ⟨requested, hrequested, hpath.tail hdepends⟩

theorem DependencyClosed.mem_of_reaches {closed : List String} (hclosed : model.DependencyClosed closed)
    (hsubset : permissions ⊆ closed) (h : model.Reaches permissions permission) : permission ∈ closed := by
  obtain ⟨requested, hrequested, hpath⟩ := h
  induction hpath with
  | refl => exact hsubset hrequested
  | tail _ hdepends ih => exact hclosed _ ih _ hdepends

theorem index_eq_some (hdistinct : model.DistinctIds) {item : PermissionDefinition} :
    model.index permission = some item ↔ item ∈ model.definitions ∧ item.id = permission := by
  have hnodup : (model.definitions.reverse.map PermissionDefinition.id).Nodup := by
    rw [List.map_reverse]
    exact List.nodup_reverse.2 hdistinct
  rw [← List.mem_reverse]
  exact Table.find?_eq_some (t := (⟨model.definitions.reverse, hnodup⟩ : Table PermissionDefinition.id))

theorem definition_eq_some (hdistinct : model.DistinctIds) {item : PermissionDefinition} :
    model.definition permission = some item ↔ item ∈ model.definitions ∧ item.id = permission :=
  Table.find?_eq_some (t := (⟨model.definitions, hdistinct⟩ : Table PermissionDefinition.id))

theorem not_known_of_index (hdistinct : model.DistinctIds) (h : model.index permission = none) :
    ¬ model.Known permission := by
  rintro ⟨item, hitem, hid⟩
  rw [(index_eq_some hdistinct).2 ⟨hitem, hid⟩] at h
  cases h

end Graph

/-! ## The loop stays within reach -/

/-- What has been added so far: without duplicates, and only what the request reaches. -/
structure Expansion.Reached (model : OrganizationAccessModel) (permissions : List String) (s : Expansion) : Prop where
  nodup : s.expanded.Nodup
  reached : ∀ permission ∈ s.expanded, model.Reaches permissions permission
  queued : ∀ permission ∈ s.queue, model.Reaches permissions permission

section Loop
variable {model : OrganizationAccessModel} {permissions : List String} {s : Expansion}

theorem Expansion.Reached.insert {permission : String} (h : s.Reached model permissions)
    (hpermission : model.Reaches permissions permission) : (s.insert permission).Reached model permissions := by
  unfold Expansion.insert
  split
  · exact h
  next hnew =>
    refine ⟨List.nodup_append.2 ⟨h.nodup, List.nodup_singleton _, ?_⟩, ?_, ?_⟩
    · intro a ha b hb hab
      exact hnew (List.mem_singleton.1 hb ▸ hab ▸ ha)
    · intro x hx
      rcases List.mem_append.1 hx with hx | hx
      · exact h.reached x hx
      · exact List.mem_singleton.1 hx ▸ hpermission
    · intro x hx
      rcases List.mem_append.1 hx with hx | hx
      · exact h.queued x hx
      · exact List.mem_singleton.1 hx ▸ hpermission

/-- Adding what the request reaches stays within reach, or fails at something unknown that it reaches. -/
theorem insertAll_reached (hdistinct : model.DistinctIds) (unknown : AccessModelError) :
    ∀ {added : List String} {s : Expansion},
    (∀ x ∈ added, model.Reaches permissions x) → s.Reached model permissions →
      (∀ s', model.insertAll unknown added s = .ok s' → s'.Reached model permissions) ∧
      ∀ e, model.insertAll unknown added s = .error e → ∃ x, model.Reaches permissions x ∧ ¬ model.Known x
  | [], _, _, hs => by
    refine ⟨fun s' h => ?_, fun e h => ?_⟩ <;> cases h
    exact hs
  | permission :: added, s, hadded, hs => by
    obtain ⟨hpermission, hadded⟩ := List.forall_mem_cons.1 hadded
    unfold insertAll
    cases hindex : model.index permission with
    | none =>
      refine ⟨fun s' h => ?_, fun e _ => ⟨permission, hpermission, not_known_of_index hdistinct hindex⟩⟩
      simp at h
    | some item => simpa using insertAll_reached hdistinct unknown hadded (hs.insert hpermission)

/-- The loop returns what it has reached in order and without duplicates, or fails at something unknown. -/
theorem expandLoop_reached (hdistinct : model.DistinctIds) (s : Expansion) (hs : s.Reached model permissions) :
    (∀ expanded, model.expandLoop s = .ok expanded → expanded.Pairwise (· ≤ ·) ∧ expanded.Nodup ∧
      ∀ x ∈ expanded, model.Reaches permissions x) ∧
    ∀ e, model.expandLoop s = .error e → ∃ x, model.Reaches permissions x ∧ ¬ model.Known x := by
  match s with
  | ⟨expanded, []⟩ =>
    rw [expandLoop]
    refine ⟨fun sorted h => ?_, fun e h => ?_⟩ <;> cases h
    refine ⟨List.pairwise_insertionSort _ _, (List.perm_insertionSort _ _).nodup_iff.2 hs.nodup, fun x hx => ?_⟩
    exact hs.reached x ((List.mem_insertionSort _).1 hx)
  | ⟨expanded, current :: queue⟩ =>
    obtain ⟨hcurrent, hqueue⟩ := List.forall_mem_cons.1 hs.queued
    rw [expandLoop_cons]
    cases hindex : model.index current with
    | none =>
      refine ⟨fun expanded h => ?_, fun e _ => ⟨current, hcurrent, not_known_of_index hdistinct hindex⟩⟩
      cases h
    | some item =>
      obtain ⟨hitem, hid⟩ := (index_eq_some hdistinct).1 hindex
      have hadded : ∀ x ∈ item.dependencies, model.Reaches permissions x := fun x hx =>
        hcurrent.tail ⟨item, hitem, hid, hx⟩
      have hrest : Expansion.Reached model permissions ⟨expanded, queue⟩ := ⟨hs.nodup, hs.reached, hqueue⟩
      obtain ⟨hok, herror⟩ := insertAll_reached hdistinct .incompleteDependencies hadded hrest
      simp only [okOr, ok_bind]
      cases hinsert : model.insertAll .incompleteDependencies item.dependencies ⟨expanded, queue⟩ with
      | error e =>
        refine ⟨fun expanded h => ?_, fun _ _ => herror e hinsert⟩
        cases h
      | ok s' =>
        have hle := pending_insertAll_le hinsert
        exact expandLoop_reached hdistinct s' (hok s' hinsert)
termination_by model.pending s
decreasing_by
  simp only [pending, List.length_cons] at hle ⊢
  omega

theorem expandWithDependencies_reached (hdistinct : model.DistinctIds) (permissions : List String) :
    (∀ expanded, model.expandWithDependencies permissions = .ok expanded → expanded.Pairwise (· ≤ ·) ∧ expanded.Nodup ∧
      ∀ x ∈ expanded, model.Reaches permissions x) ∧
    ∀ e, model.expandWithDependencies permissions = .error e → ∃ x, model.Reaches permissions x ∧ ¬ model.Known x := by
  have hrequested : ∀ x ∈ permissions, model.Reaches permissions x := fun x hx => reaches_of_mem hx
  have hnone : Expansion.Reached model permissions ⟨[], []⟩ := ⟨List.nodup_nil, nofun, nofun⟩
  obtain ⟨hok, herror⟩ := insertAll_reached hdistinct .unknownPermission hrequested hnone
  unfold expandWithDependencies
  cases hinsert : model.insertAll .unknownPermission permissions ⟨[], []⟩ with
  | error e =>
    refine ⟨fun expanded h => ?_, fun _ _ => herror e hinsert⟩
    cases h
  | ok s => exact expandLoop_reached hdistinct s (hok s hinsert)

end Loop

/-! ## The smallest closed set -/

section Least
variable {model : OrganizationAccessModel}

theorem ensureDependenciesPresent_of_closed (hdistinct : model.DistinctIds) {permissions : List String}
    (hknown : ∀ x ∈ permissions, model.Known x) (hclosed : model.DependencyClosed permissions) :
    model.ensureDependenciesPresent permissions = .ok () := by
  refine forM_eq_ok.2 fun permission hpermission => ?_
  obtain ⟨item, hitem, hid⟩ := hknown permission hpermission
  rw [(definition_eq_some hdistinct).2 ⟨hitem, hid⟩]
  refine forM_eq_ok.2 fun dependency hdependency => if_pos ?_
  exact hclosed permission hpermission dependency ⟨item, hitem, hid, hdependency⟩

/-- Over any catalog with distinct ids: an expansion is sorted and has no duplicates, it is the smallest closed set
around the request and passes `ensure_dependencies_present`; and there is none exactly if the request reaches an unknown
permission. -/
theorem expansion_is_least_closed (model : OrganizationAccessModel) (hdistinct : model.DistinctIds)
    (permissions : List String) :
    (∀ expanded, model.expandWithDependencies permissions = .ok expanded →
      expanded.Pairwise (· ≤ ·) ∧ expanded.Nodup ∧ permissions ⊆ expanded ∧ model.DependencyClosed expanded ∧
      (∀ closed, permissions ⊆ closed → model.DependencyClosed closed → expanded ⊆ closed) ∧
      model.ensureDependenciesPresent expanded = .ok ()) ∧
    ((∃ e, model.expandWithDependencies permissions = .error e) ↔
      ∃ permission, model.Reaches permissions permission ∧ ¬ model.Known permission) := by
  obtain ⟨hreached, hunknown⟩ := expandWithDependencies_reached hdistinct permissions
  have hexpanded : ∀ expanded, model.expandWithDependencies permissions = .ok expanded →
      permissions ⊆ expanded ∧ model.DependencyClosed expanded ∧ ∀ x ∈ expanded, model.Known x := by
    intro expanded h
    obtain ⟨hsubset, hclosed⟩ := expandWithDependencies_eq_ok h
    refine ⟨hsubset, fun x hx dependency hdepends => ?_, fun x hx => ?_⟩
    · obtain ⟨item, hitem, hid, hmem⟩ := hdepends
      obtain ⟨item', hindex, hdependencies⟩ := hclosed x hx
      cases (((index_eq_some hdistinct).2 ⟨hitem, hid⟩).symm.trans hindex)
      exact hdependencies dependency hmem
    · obtain ⟨item, hindex, -⟩ := hclosed x hx
      exact ⟨item, (index_eq_some hdistinct).1 hindex⟩
  refine ⟨fun expanded h => ?_, fun ⟨e, he⟩ => hunknown e he, fun ⟨permission, hpermission, hnot⟩ => ?_⟩
  · obtain ⟨hsorted, hnodup, hreach⟩ := hreached expanded h
    obtain ⟨hsubset, hclosed, hknown⟩ := hexpanded expanded h
    exact ⟨hsorted, hnodup, hsubset, hclosed, fun closed hsub hcl x hx => hcl.mem_of_reaches hsub (hreach x hx),
      ensureDependenciesPresent_of_closed hdistinct hknown hclosed⟩
  · cases h : model.expandWithDependencies permissions with
    | error e => exact ⟨e, rfl⟩
    | ok expanded =>
      obtain ⟨hsubset, hclosed, hknown⟩ := hexpanded expanded h
      exact absurd (hknown permission (hclosed.mem_of_reaches hsubset hpermission)) hnot

def cyclicModel : OrganizationAccessModel := ⟨[⟨"b", ["a"], true⟩, ⟨"a", ["b"], true⟩]⟩

theorem cyclic_expansion : cyclicModel.ensureDependenciesPresent ["a", "b"] = .ok () :=
  ((expansion_is_least_closed cyclicModel (by unfold DistinctIds; decide) ["b"]).1 ["a", "b"]
    (by decide +kernel)).2.2.2.2.2

end Least

end WasiAuth.OrganizationAccessModel
