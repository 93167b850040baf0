import Mathlib.Data.List.Nodup
import Mathlib.Data.List.Perm.Subperm
import WasiAuth.Identity.Values

/-! # The migration plan

A history of applied migrations is accepted in any order, if it is the first migrations of the catalog with their
checksums; what is left to apply is the rest of the catalog. The plan ends in a slice of the catalog from the length of
the history on, which would panic beyond its end: `planAgainst` is `none` there.

The digest and the texts of the documents are parameters.
-/

namespace WasiAuth

open Relational

/-- schema.rs:21 -/
inductive SchemaMigrationMode
  | transactional | autocommit
deriving DecidableEq

/-- schema.rs:13 -/
structure SchemaMigration where
  version : String
  sql : String
  mode : SchemaMigrationMode
deriving DecidableEq

/-- schema.rs:59 -/
structure AppliedSchemaMigration where
  version : String
  checksum : String
deriving DecidableEq

/-- schema.rs:220 -/
inductive SchemaPlanError
  | unknownVersion (version : String)
  | checksumDrift (version : String)
  | gap (version : String)
  | duplicateVersion (version : String)
deriving DecidableEq

/-- The migration with the document that is embedded under its version. -/
def embedded (documents : String → String) (version : String) (mode : SchemaMigrationMode) : SchemaMigration :=
  ⟨version, documents version, mode⟩

/-- schema.rs:166 -/
def schemaMigrations (documents : String → String) : List SchemaMigration := [
  embedded documents "0001_relational_kernel" .transactional,
  embedded documents "0002_outbox_delivery_id" .transactional,
  embedded documents "0003_management_integrity" .transactional,
  embedded documents "0004_owner_invariant" .transactional,
  embedded documents "0005_owner_trigger_revision" .transactional,
  embedded documents "0006_oauth_provider_defaults" .transactional,
  embedded documents "0007_signing_key_references" .transactional,
  embedded documents "0008_fullstack_redirects" .transactional,
  embedded documents "0009_context_invalidation" .transactional,
  embedded documents "0010_typed_relationship_outbox" .transactional,
  embedded documents "0011_organization_slug_expand" .transactional,
  embedded documents "0012_organization_slug_unique_index" .autocommit,
  embedded documents "0013_fullstack_permissions" .transactional,
  embedded documents "0014_totp_last_consumed_step" .transactional]

section Plan
variable (sha256 : Bytes → Bytes)

/-- schema.rs:49 -/
def SchemaMigration.checksumHex (self : SchemaMigration) : String :=
  String.ofList ((sha256 (utf8Bytes self.sql)).flatMap fun byte => Text.hexDigits 2 byte.toNat)

/-- The migration map; a later entry of a version replaces an earlier one. -/
def knownMigration (catalog : List SchemaMigration) (version : String) : Option SchemaMigration :=
  catalog.reverse.find? fun migration => migration.version = version

/-- One round of the loop over the history, with the versions seen so far. -/
def checkApplied (catalog : List SchemaMigration) (seen : List String) (migration : AppliedSchemaMigration) :
    Except SchemaPlanError (List String) :=
  if migration.version ∈ seen then .error (.duplicateVersion migration.version)
  else
    match knownMigration catalog migration.version with
    | none => .error (.unknownVersion migration.version)
    | some expected =>
      if migration.checksum ≠ expected.checksumHex sha256 then .error (.checksumDrift migration.version)
      else .ok (migration.version :: seen)

def checkGap (seen : List String) (expected : SchemaMigration) : Except SchemaPlanError Unit :=
  if expected.version ∉ seen then .error (.gap expected.version) else .ok ()

/-- `&list[start..]`. -/
def sliceFrom {α : Type} (list : List α) (start : Nat) : Option (List α) :=
  if start ≤ list.length then some (list.drop start) else none

/-- The plan against a catalog; `none` if the slice panics. -/
def planAgainst (catalog : List SchemaMigration) (applied : List AppliedSchemaMigration) :
    Option (Except SchemaPlanError (List SchemaMigration)) :=
  match applied.foldlM (checkApplied sha256 catalog) [] with
  | .error e => some (.error e)
  | .ok seen =>
    match (catalog.take applied.length).forM (checkGap seen) with
    | .error e => some (.error e)
    | .ok () => (sliceFrom catalog applied.length).map .ok

/-- schema.rs:190 -/
def planSchema (documents : String → String) (applied : List AppliedSchemaMigration) :
    Option (Except SchemaPlanError (List SchemaMigration)) :=
  planAgainst sha256 (schemaMigrations documents) applied

def SchemaMigration.applied (self : SchemaMigration) : AppliedSchemaMigration :=
  ⟨self.version, self.checksumHex sha256⟩

/-! ## The loop over the history -/

variable {sha256} {catalog : List SchemaMigration} {applied : List AppliedSchemaMigration}

def DistinctVersions (catalog : List SchemaMigration) : Prop := (catalog.map SchemaMigration.version).Nodup

section
variable (hcatalog : DistinctVersions catalog)
include hcatalog

theorem eq_of_version_eq {a b : SchemaMigration} (ha : a ∈ catalog)
    (hb : b ∈ catalog) (h : a.version = b.version) : a = b :=
  List.inj_on_of_nodup_map hcatalog ha hb h

theorem knownMigration_eq_some {version : String} {expected : SchemaMigration} :
    knownMigration catalog version = some expected ↔ expected ∈ catalog ∧ expected.version = version := by
  have hnodup : (catalog.reverse.map SchemaMigration.version).Nodup := by
    rw [List.map_reverse]
    exact List.nodup_reverse.2 hcatalog
  rw [← List.mem_reverse]
  exact Table.find?_eq_some (t := (⟨catalog.reverse, hnodup⟩ : Table SchemaMigration.version))

/-- A row passes if it is new, in the catalog and has the migration's checksum. -/
theorem checkApplied_eq_ok {seen seen' : List String} {row : AppliedSchemaMigration} :
    checkApplied sha256 catalog seen row = .ok seen' ↔
      row.version ∉ seen ∧ row ∈ catalog.map (SchemaMigration.applied sha256) ∧ row.version :: seen = seen' := by
  have hknown : row ∈ catalog.map (SchemaMigration.applied sha256) ↔
      ∃ expected, knownMigration catalog row.version = some expected ∧
        row.checksum = expected.checksumHex sha256 := by
    simp only [List.mem_map, knownMigration_eq_some hcatalog]
    constructor
    · rintro ⟨expected, hmem, rfl⟩
      exact ⟨expected, ⟨hmem, rfl⟩, rfl⟩
    · rintro ⟨expected, ⟨hmem, hversion⟩, hchecksum⟩
      refine ⟨expected, hmem, ?_⟩
      rw [SchemaMigration.applied, hversion, ← hchecksum]
  rw [hknown]
  unfold checkApplied
  by_cases hseen : row.version ∈ seen
  · simp [hseen]
  · cases hexpected : knownMigration catalog row.version with
    | none => simp [hseen]
    | some expected =>
      by_cases hchecksum : row.checksum = expected.checksumHex sha256 <;> simp [hseen, hchecksum]

/-- The loop passes exactly for rows of the catalog with distinct versions, and has then seen all of these. -/
theorem foldlM_checkApplied_eq_ok {seen seen' : List String} (hseen : seen.Nodup) :
    applied.foldlM (checkApplied sha256 catalog) seen = .ok seen' ↔
      seen' = (applied.map AppliedSchemaMigration.version).reverse ++ seen ∧ seen'.Nodup ∧
        applied ⊆ catalog.map (SchemaMigration.applied sha256) := by
  induction applied generalizing seen with
  | nil =>
    rw [List.foldlM_nil]
    constructor
    · rintro ⟨⟩
      exact ⟨rfl, hseen, List.nil_subset _⟩
    · rintro ⟨rfl, -, -⟩
      rfl
  | cons row applied ih =>
    rw [List.foldlM_cons, bind_eq_ok, List.map_cons, List.reverse_cons, List.append_assoc, List.singleton_append,
      List.cons_subset]
    simp only [checkApplied_eq_ok hcatalog]
    constructor
    · rintro ⟨_, ⟨hnew, hrow, rfl⟩, h⟩
      obtain ⟨hseen', hnodup, hsubset⟩ := (ih (List.nodup_cons.2 ⟨hnew, hseen⟩)).1 h
      exact ⟨hseen', hnodup, hrow, hsubset⟩
    · rintro ⟨rfl, hnodup, hrow, hsubset⟩
      have hcons : (row.version :: seen).Nodup := (List.nodup_append.1 hnodup).2.1
      exact ⟨_, ⟨(List.nodup_cons.1 hcons).1, hrow, rfl⟩, (ih hcons).2 ⟨rfl, hnodup, hsubset⟩⟩

omit hcatalog in
/-- No version is missing. -/
theorem forM_checkGap_eq_ok {seen : List String} {expected : List SchemaMigration} :
    expected.forM (checkGap seen) = .ok () ↔ expected.map SchemaMigration.version ⊆ seen := by
  rw [forM_eq_ok, List.subset_def, List.forall_mem_map]
  refine forall₂_congr fun migration _ => ?_
  unfold checkGap
  by_cases h : migration.version ∈ seen <;> simp [h]

/-! ## The plan -/

/-- The history passes both loops: its rows are in the catalog, no version stands twice in it, and as many versions as
it has rows are in it from the start of the catalog. -/
structure Passes (sha256 : Bytes → Bytes) (catalog : List SchemaMigration) (applied : List AppliedSchemaMigration) :
    Prop where
  distinct : (applied.map AppliedSchemaMigration.version).Nodup
  known : applied ⊆ catalog.map (SchemaMigration.applied sha256)
  gapless : (catalog.take applied.length).map SchemaMigration.version ⊆ applied.map AppliedSchemaMigration.version

omit hcatalog in
theorem Passes.length_le (h : Passes sha256 catalog applied) :
    applied.length ≤ catalog.length := by
  have hsubperm := List.subperm_of_subset (List.Nodup.of_map _ h.distinct) h.known
  have hlength := hsubperm.length_le
  rwa [List.length_map] at hlength

/-- A history that passes is the first migrations in some order: both lists are as long and have no duplicates. -/
theorem Passes.perm (h : Passes sha256 catalog applied) :
    applied.Perm ((catalog.take applied.length).map (SchemaMigration.applied sha256)) := by
  have hsubset : (catalog.take applied.length).map (SchemaMigration.applied sha256) ⊆ applied := by
    intro row hrow
    obtain ⟨expected, hexpected, rfl⟩ := List.mem_map.1 hrow
    obtain ⟨row, hrow, hversion⟩ := List.mem_map.1 (h.gapless (List.mem_map_of_mem hexpected))
    obtain ⟨found, hfound, rfl⟩ := List.mem_map.1 (h.known hrow)
    rwa [← eq_of_version_eq hcatalog hfound (List.mem_of_mem_take hexpected) hversion]
  have hnodup : ((catalog.take applied.length).map (SchemaMigration.applied sha256)).Nodup := by
    refine List.Nodup.of_map AppliedSchemaMigration.version ?_
    rw [List.map_map]
    exact (hcatalog.sublist ((List.take_sublist _ _).map _))
  have hsubperm := List.subperm_of_subset hnodup hsubset
  refine (hsubperm.perm_of_length_le ?_).symm
  rw [List.length_map, List.length_take, min_eq_left h.length_le]

theorem Passes.of_perm {done : List SchemaMigration} (hdone : done <+: catalog)
    (h : applied.Perm (done.map (SchemaMigration.applied sha256))) : Passes sha256 catalog applied := by
  have hversions : (applied.map AppliedSchemaMigration.version).Perm (done.map SchemaMigration.version) := by
    have hmap := h.map AppliedSchemaMigration.version
    rwa [List.map_map] at hmap
  have hlength : applied.length = done.length := by rw [h.length_eq, List.length_map]
  refine ⟨hversions.nodup_iff.2 (hcatalog.sublist (hdone.sublist.map _)), ?_, ?_⟩
  · exact fun row hrow => List.map_subset _ hdone.subset (h.subset hrow)
  · rw [hlength, ← List.prefix_iff_eq_take.1 hdone]
    exact hversions.symm.subset

/-- The plan is the rest of the catalog. -/
theorem planAgainst_of_passes (h : Passes sha256 catalog applied) :
    planAgainst sha256 catalog applied = some (.ok (catalog.drop applied.length)) := by
  have hloop : applied.foldlM (checkApplied sha256 catalog) [] =
      .ok (applied.map AppliedSchemaMigration.version).reverse := by
    rw [foldlM_checkApplied_eq_ok hcatalog List.nodup_nil]
    exact ⟨(List.append_nil _).symm, List.nodup_reverse.2 h.distinct, h.known⟩
  have hgap : (catalog.take applied.length).forM
      (checkGap (applied.map AppliedSchemaMigration.version).reverse) = .ok () :=
    forM_checkGap_eq_ok.2 fun version hversion => List.mem_reverse.2 (h.gapless hversion)
  simp only [planAgainst, hloop, hgap, sliceFrom, if_pos h.length_le, Option.map_some]

theorem exists_error_of_not_passes (h : ¬ Passes sha256 catalog applied) :
    ∃ e, planAgainst sha256 catalog applied = some (.error e) := by
  unfold planAgainst
  cases hloop : applied.foldlM (checkApplied sha256 catalog) [] with
  | error e => exact ⟨e, rfl⟩
  | ok seen =>
    cases hgap : (catalog.take applied.length).forM (checkGap seen) with
    | error e => exact ⟨e, by simp only [hgap]⟩
    | ok _ =>
      obtain ⟨rfl, hnodup, hknown⟩ := (foldlM_checkApplied_eq_ok hcatalog List.nodup_nil).1 hloop
      rw [List.append_nil] at hnodup hgap
      refine absurd ⟨List.nodup_reverse.1 hnodup, hknown, fun version hversion => ?_⟩ h
      exact List.mem_reverse.1 (forM_checkGap_eq_ok.1 hgap hversion)

end

variable (sha256)

theorem distinctVersions_schemaMigrations (documents : String → String) :
    DistinctVersions (schemaMigrations documents) := by
  have hversions : (schemaMigrations documents).map SchemaMigration.version =
      (schemaMigrations fun _ => "").map SchemaMigration.version := rfl
  rw [DistinctVersions, hversions]
  decide +kernel

/-- The plan never panics, and it is the rest of the catalog exactly if the history is the migrations before it, with
their checksums and in any order. -/
theorem planSchema_pending_iff (documents : String → String) (applied : List AppliedSchemaMigration) :
    planSchema sha256 documents applied ≠ none ∧
      ∀ pending, planSchema sha256 documents applied = some (.ok pending) ↔
        ∃ done, done ++ pending = schemaMigrations documents ∧
          applied.Perm (done.map (SchemaMigration.applied sha256)) := by
  have hcatalog := distinctVersions_schemaMigrations documents
  by_cases h : Passes sha256 (schemaMigrations documents) applied
  · rw [planSchema, planAgainst_of_passes hcatalog h]
    refine ⟨Option.some_ne_none _, fun pending => ⟨?_, ?_⟩⟩
    · rintro ⟨⟩
      exact ⟨_, List.take_append_drop applied.length _, h.perm hcatalog⟩
    · rintro ⟨done, hdone, hperm⟩
      have hlength : applied.length = done.length := by rw [hperm.length_eq, List.length_map]
      rw [← hdone, hlength, List.drop_left]
  · obtain ⟨e, he⟩ := exists_error_of_not_passes hcatalog h
    rw [planSchema, he]
    refine ⟨Option.some_ne_none _, fun pending => ⟨nofun, ?_⟩⟩
    rintro ⟨done, hdone, hperm⟩
    exact absurd (Passes.of_perm hcatalog ⟨pending, hdone⟩ hperm) h

-- the first two migrations in the other order leave the other twelve
example : (planSchema id id (((schemaMigrations id).take 2).map (SchemaMigration.applied id)).reverse).map
    (fun plan => plan.toOption.map List.length) = some (some 12) := by
  decide +kernel

end Plan

end WasiAuth
