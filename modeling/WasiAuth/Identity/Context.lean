import Mathlib.Data.List.Dedup
import Mathlib.Data.List.Sort
import Mathlib.Data.String.Basic
import WasiAuth.Base.Table

/-! # Identifiers and the verified request context

`src/context.rs`. The source keeps its fields private and validates in the constructors; here the record
carries the fact the constructor checked, so a value that was not validated cannot be built.
-/

namespace WasiAuth

open Relational

/-- context.rs:15 -/
inductive ContextError
  | emptyIdentifier | identifierTooLong | invalidIdentifier | invalidIssuer | invalidLifetime
deriving DecidableEq

/-- `char::is_control`: the category `Cc`. -/
def isControl (c : Char) : Bool := decide (c.val < 0x20) || (decide (0x7f ≤ c.val) && decide (c.val < 0xa0))

/-- `char::is_whitespace`: the property `White_Space`. -/
def isWhitespace (c : Char) : Bool :=
  (decide (0x09 ≤ c.val) && decide (c.val ≤ 0x0d)) || (decide (0x2000 ≤ c.val) && decide (c.val ≤ 0x200a)) ||
    [0x20, 0x85, 0xa0, 0x1680, 0x2028, 0x2029, 0x202f, 0x205f, 0x3000].contains c.val

theorem isControl_of_bounds {c : Char} (h : 0x21 ≤ c.toNat ∧ c.toNat ≤ 0x7e) : isControl c = false := by
  simp only [isControl, Bool.or_eq_false_iff, Bool.and_eq_false_iff, decide_eq_false_iff_not,
    UInt32.lt_iff_toNat_lt, UInt32.le_iff_toNat_le]
  simp
  omega

theorem isWhitespace_of_bounds {c : Char} (h : 0x21 ≤ c.toNat ∧ c.toNat ≤ 0x7e) : isWhitespace c = false := by
  simp only [isWhitespace, Bool.or_eq_false_iff, Bool.and_eq_false_iff, decide_eq_false_iff_not,
    UInt32.le_iff_toNat_le, List.contains_eq_mem, List.mem_cons, List.not_mem_nil, or_false, not_or, ← UInt32.toNat_inj]
  simp
  omega

/-- `validate_identifier`. -/
def validateIdentifier (value : String) : Except ContextError Unit :=
  if value = "" then .error .emptyIdentifier
  else if 256 < value.utf8ByteSize then .error .identifierTooLong
  else if value.toList.any fun c => isControl c || isWhitespace c then .error .invalidIdentifier
  else .ok ()

/-- What `bounded_identifier!` generates. -/
structure Identifier where
  value : String
  valid : validateIdentifier value = .ok ()
deriving DecidableEq

/-- context.rs:82 -/
abbrev UserId := Identifier
/-- context.rs:86 -/
abbrev OrganizationId := Identifier
/-- context.rs:90 -/
abbrev SessionId := Identifier
/-- context.rs:94 -/
abbrev RequestId := Identifier
/-- context.rs:98 -/
abbrev DecisionId := Identifier
/-- context.rs:102 -/
abbrev PolicyRevision := Identifier
/-- context.rs:114 -/
abbrev RoleId := Identifier

/-- context.rs:47 -/
def Identifier.new (value : String) : Except ContextError Identifier :=
  match h : validateIdentifier value with
  | .ok () => .ok ⟨value, h⟩
  | .error e => .error e

theorem Identifier.value_of_new {value : String} {id : Identifier} (h : Identifier.new value = .ok id) :
    id.value = value := by
  unfold Identifier.new at h
  split at h <;> cases h
  rfl

theorem Identifier.new_value (id : Identifier) : Identifier.new id.value = .ok id := by
  unfold Identifier.new
  split
  · rfl
  · rename_i he
    rw [id.valid] at he
    cases he

theorem Identifier.value_injective : Function.Injective Identifier.value := by
  rintro ⟨value, _⟩ ⟨_, _⟩ rfl
  rfl

theorem mapM_new_value : ∀ ids : List Identifier, (ids.map Identifier.value).mapM Identifier.new = .ok ids
  | [] => rfl
  | id :: ids => by rw [List.map_cons, List.mapM_cons, Identifier.new_value, mapM_new_value ids]; rfl

/-- `Option::map(new).transpose()`. -/
def Identifier.newOption : Option String → Except ContextError (Option Identifier)
  | none => .ok none
  | some value => (Identifier.new value).map some

theorem Identifier.value_of_newOption {value : Option String} {id : Option Identifier}
    (h : Identifier.newOption value = .ok id) : id.map Identifier.value = value := by
  cases value with
  | none => cases h; rfl
  | some value =>
    cases hnew : Identifier.new value with
    | error e => simp [newOption, hnew, Except.map] at h
    | ok id' =>
      simp only [newOption, hnew, Except.map, Except.ok.injEq] at h
      rw [← h, Option.map_some, value_of_new hnew]

theorem Identifier.newOption_value (id : Option Identifier) :
    Identifier.newOption (id.map Identifier.value) = .ok id := by
  cases id with
  | none => rfl
  | some id => simp [newOption, new_value, Except.map]

/-- `AuthenticationAssurance`. -/
inductive AuthenticationAssurance
  | aal1 | aal2
deriving DecidableEq

/-- The check of `Principal::new`. -/
def validIssuer (issuer : String) : Bool :=
  decide (issuer ≠ "") && decide (issuer.utf8ByteSize ≤ 512) && !issuer.toList.any isControl

/-- context.rs:143 -/
structure Principal where
  userId : UserId
  issuer : String
  systemAdministrator : Bool
  issuerValid : validIssuer issuer = true
deriving DecidableEq

/-- context.rs:156 -/
def Principal.new (userId : UserId) (issuer : String) (systemAdministrator : Bool) : Except ContextError Principal :=
  if h : validIssuer issuer = true then .ok ⟨userId, issuer, systemAdministrator, h⟩ else .error .invalidIssuer

theorem Principal.new_eq_ok {userId : UserId} {issuer : String} {systemAdministrator : Bool} {principal : Principal}
    (h : Principal.new userId issuer systemAdministrator = .ok principal) :
    principal.userId = userId ∧ principal.systemAdministrator = systemAdministrator := by
  unfold Principal.new at h
  split at h <;> cases h
  exact ⟨rfl, rfl⟩

theorem Principal.new_of (principal : Principal) :
    Principal.new principal.userId principal.issuer principal.systemAdministrator = .ok principal :=
  dif_pos principal.issuerValid

/-- context.rs:410 -/
structure ValidatedContextParts where
  principal : Principal
  organizationId : Option OrganizationId
  sessionId : SessionId
  requestId : RequestId
  assurance : AuthenticationAssurance
  issuedAtUnixSeconds : Nat
  expiresAtUnixSeconds : Nat
  decisionId : Option DecisionId
  policyRevision : Option PolicyRevision
deriving DecidableEq

/-- context.rs:200 -/
structure VerifiedAuthContext extends ValidatedContextParts where
  lifetime : issuedAtUnixSeconds < expiresAtUnixSeconds
deriving DecidableEq

/-- `VerifiedAuthContext::from_validated`. -/
def VerifiedAuthContext.fromValidated (parts : ValidatedContextParts) : Except ContextError VerifiedAuthContext :=
  if h : parts.issuedAtUnixSeconds < parts.expiresAtUnixSeconds then .ok ⟨parts, h⟩ else .error .invalidLifetime

theorem VerifiedAuthContext.fromValidated_eq_ok {parts : ValidatedContextParts} {auth : VerifiedAuthContext} :
    VerifiedAuthContext.fromValidated parts = .ok auth ↔
      ∃ h : parts.issuedAtUnixSeconds < parts.expiresAtUnixSeconds, ⟨parts, h⟩ = auth := by
  unfold VerifiedAuthContext.fromValidated
  split <;> simp_all

/-- The derived order of an identifier is that of its text. -/
instance : LE Identifier := ⟨fun a b => a.value ≤ b.value⟩

instance : DecidableLE Identifier := fun a b => inferInstanceAs (Decidable (a.value ≤ b.value))

instance : Std.Total (α := Identifier) (· ≤ ·) := ⟨fun a b => String.le_total a.value b.value⟩

instance : IsTrans Identifier (· ≤ ·) := ⟨fun _ _ _ => String.le_trans⟩

section BTreeSet
variable {α : Type} [DecidableEq α] [LE α] [DecidableLE α]

/-- A `BTreeSet` collected from the values, in the order it iterates. -/
def btreeSet (values : List α) : List α := values.dedup.insertionSort (· ≤ ·)

theorem mem_btreeSet {values : List α} {a : α} : a ∈ btreeSet values ↔ a ∈ values := by
  rw [btreeSet, List.mem_insertionSort, List.mem_dedup]

theorem length_btreeSet_le (values : List α) : (btreeSet values).length ≤ values.length := by
  rw [btreeSet, List.length_insertionSort]
  exact (List.dedup_sublist values).length_le

theorem btreeSet_toList (o : Option α) : btreeSet o.toList = o.toList := by
  cases o <;> rfl

theorem btreeSet_btreeSet [Std.Total (α := α) (· ≤ ·)] [IsTrans α (· ≤ ·)] (values : List α) :
    btreeSet (btreeSet values) = btreeSet values := by
  have hnodup : (btreeSet values).Nodup := (List.perm_insertionSort _ _).nodup_iff.2 (List.nodup_dedup _)
  rw [btreeSet, hnodup.dedup]
  exact (List.pairwise_insertionSort _ _).insertionSort_eq

end BTreeSet

/-- The check of `AuthorizationSnapshot::new`. -/
def validConsistencyToken (token : String) : Bool :=
  decide (token ≠ "") && decide (token.utf8ByteSize ≤ 4096) && !token.toList.any isControl

/-- context.rs:218 -/
structure AuthorizationSnapshot where
  permissions : List String
  roleIds : List RoleId
  policyRevision : Option PolicyRevision
  consistencyToken : Option String
  permissionsValid : permissions.forM validateIdentifier = .ok ()
  permissionsSet : btreeSet permissions = permissions
  roleIdsSet : btreeSet roleIds = roleIds
  tokenValid : consistencyToken.all validConsistencyToken = true
deriving DecidableEq

theorem permissionsValid_of_forM {permissions : List String} (h : permissions.forM validateIdentifier = .ok ()) :
    (btreeSet permissions).forM validateIdentifier = .ok () :=
  forM_eq_ok.2 fun p hp => forM_eq_ok.1 h p (mem_btreeSet.1 hp)

/-- context.rs:232 -/
def AuthorizationSnapshot.new (permissions : List String) (roleIds : List RoleId)
    (policyRevision : Option PolicyRevision) (consistencyToken : Option String) :
    Except ContextError AuthorizationSnapshot :=
  match hp : permissions.forM validateIdentifier with
  | .error e => .error e
  | .ok () =>
    if ht : consistencyToken.all validConsistencyToken = true then
      .ok ⟨btreeSet permissions, btreeSet roleIds, policyRevision, consistencyToken, permissionsValid_of_forM hp,
        btreeSet_btreeSet permissions, btreeSet_btreeSet roleIds, ht⟩
    else .error .invalidIdentifier

theorem AuthorizationSnapshot.new_eq_ok {permissions : List String} {roleIds : List RoleId}
    {policyRevision : Option PolicyRevision} {consistencyToken : Option String} {snapshot : AuthorizationSnapshot}
    (h : AuthorizationSnapshot.new permissions roleIds policyRevision consistencyToken = .ok snapshot) :
    snapshot.permissions = btreeSet permissions ∧ snapshot.roleIds = btreeSet roleIds ∧
      snapshot.policyRevision = policyRevision ∧ snapshot.consistencyToken = consistencyToken := by
  unfold AuthorizationSnapshot.new at h
  split at h
  · cases h
  · split at h <;> cases h
    exact ⟨rfl, rfl, rfl, rfl⟩

theorem AuthorizationSnapshot.exists_new {permissions : List String} (roleIds : List RoleId)
    (policyRevision : Option PolicyRevision) (consistencyToken : Option String)
    (hpermissions : permissions.forM validateIdentifier = .ok ())
    (htoken : consistencyToken.all validConsistencyToken = true) :
    ∃ snapshot, AuthorizationSnapshot.new permissions roleIds policyRevision consistencyToken = .ok snapshot := by
  unfold AuthorizationSnapshot.new
  split
  next e he =>
    rw [hpermissions] at he
    cases he
  · exact ⟨_, dif_pos htoken⟩

theorem AuthorizationSnapshot.new_of (snapshot : AuthorizationSnapshot) :
    AuthorizationSnapshot.new snapshot.permissions snapshot.roleIds snapshot.policyRevision
      snapshot.consistencyToken = .ok snapshot := by
  obtain ⟨permissions, roleIds, policyRevision, token, hvalid, hset, hroles, htoken⟩ := snapshot
  unfold AuthorizationSnapshot.new
  split
  next e he =>
    rw [hvalid] at he
    cases he
  · rw [dif_pos htoken]
    simp only [hset, hroles]

/-- context.rs:293 -/
structure VerifiedRequestContext where
  auth : VerifiedAuthContext
  authorization : AuthorizationSnapshot
deriving DecidableEq

end WasiAuth
