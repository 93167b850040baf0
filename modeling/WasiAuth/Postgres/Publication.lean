import WasiAuth.Base.Json
import WasiAuth.Base.Utf8
import WasiAuth.Ingress.Decisions
import WasiAuth.Ingress.TokenCache
import WasiAuth.Relationships.Wire

/-! # Identities by their bytes

Three places join fields with a NUL byte and keep only an encoding or a digest of the result: the subject of a SpiceDB
check (`canonical_subject_id`), the principal of a Cedar request (`canonical_principal_id`), and the checksum under
which a policy bundle is published. The fields before a NUL must not hold one. For issuers the constructor of
`Principal` sees to it, for the schema and the policy of a bundle only PostgreSQL does, which refuses NUL in a text
parameter.
-/

namespace WasiAuth

open Relational Transition

/-! ## Publishing -/

def maxPolicyBytes : Nat := 1024 * 1024
def maxEntityBytes : Nat := 4 * 1024 * 1024

/-- What `publish` calls: `serde_json::to_string` (`to_vec` are its bytes), `Value::is_array`, SHA-256, and whether
`CedarProvider::new_validated` accepts policy, schema and entities. -/
structure PolicyLibrary (Value : Type) where
  toJson : Value → Option String
  isArray : Value → Bool
  sha256 : Bytes → Bytes
  validated : (cedarPolicy cedarSchema entities revision : String) → Bool

def PolicyLibrary.ReadsBack {Value : Type} (lib : PolicyLibrary Value) : Prop :=
  ∀ v w source, lib.toJson v = some source → lib.toJson w = some source → v = w

inductive PolicyTransportError where
  | nulInText
  | invalidUuid
  | sql (error : SqlError)
deriving DecidableEq

/-- policy.rs:283 -/
inductive PolicyBundleServiceError where
  | invalidInput
  | invalidAdminSession
  | randomnessUnavailable
  | invalidRow
  | transport (error : PolicyTransportError)
deriving DecidableEq

/-- policy.rs:25 -/
structure PolicyBundleRecord where
  policyRevision : String
  checksumHex : String
  status : BundleStatus
  createdBy : Uuid
  createdAtMs : Nat
  activatedAtMs : Option Nat
deriving DecidableEq

/-- One call of `publish`, with what the clock and the random source answer and the order PostgreSQL runs the CTEs of
the statement in. -/
structure PublishCall (Value : Type) where
  sessionId : SessionId
  cedarSchema : String
  cedarPolicy : String
  entities : Value
  requestId : RequestId
  nowUnixSeconds : Nat
  random : Option (BitVec 80)
  retireFirst : Bool

/-- `hex`. -/
def hexOfBytes (value : Bytes) : String := String.ofList (value.flatMap fun byte => Text.hexDigits 2 byte.toNat)

/-- The column is a `bigint`, the record's field a `u64`. -/
def u64OfI64 (value : Int) : Except PolicyBundleServiceError Nat :=
  if 0 ≤ value then .ok value.toNat else .error .invalidRow

/-- policy.rs:208 -/
def policyFromRow (row : PolicyBundle) : Except PolicyBundleServiceError PolicyBundleRecord := do
  let createdAtMs ← u64OfI64 row.createdAtMs
  let activatedAtMs ← row.activatedAtMs.mapM u64OfI64
  pure ⟨row.policyRevision, hexOfBytes row.checksum, row.status, row.createdBy, createdAtMs, activatedAtMs⟩

/-- What the server refuses in a text parameter. -/
def holdsNul (text : String) : Bool := text.toList.contains '\x00'

/-- What `digest` is fed with (policy.rs:162-167). -/
def PublishCall.hashed {Value : Type} (call : PublishCall Value) (entityBytes : Bytes) : Bytes :=
  utf8Bytes call.cedarSchema ++ [0] ++ utf8Bytes call.cedarPolicy ++ [0] ++ entityBytes

section Publish
variable {Value : Type} (lib : PolicyLibrary Value) (parseUuid : String → Option Uuid)

/-- The statement with the parameters the service binds; the text encoding and the cast to `uuid` are checked first. -/
def queryPublish (call : PublishCall Value) (policyRevision entitySource : String) (checksum : Bytes) (nowMs : Nat)
    (auditId : Uuid) (db : Db) : Except PolicyTransportError (Option PolicyBundle × Db) :=
  if [call.sessionId.value, policyRevision, call.cedarSchema, call.cedarPolicy, auditId.text,
      call.requestId.value].any holdsNul then .error .nulInText
  else match parseUuid call.sessionId.value with
    | none => .error .invalidUuid
    | some sessionId =>
      (publishPolicyBundle ⟨sessionId, policyRevision, call.cedarSchema, call.cedarPolicy, entitySource, checksum,
        u64ToI64 nowMs, call.retireFirst⟩ db).mapError .sql

/-- policy.rs:134 -/
def publish (call : PublishCall Value) (db : Db) : Except PolicyBundleServiceError (PolicyBundleRecord × Db) := do
  let entitySource ← okOr .invalidInput (lib.toJson call.entities)
  let entityBytes := utf8Bytes entitySource
  if call.cedarSchema = "" ∨ call.cedarSchema.utf8ByteSize > maxPolicyBytes ∨ call.cedarPolicy = "" ∨
      call.cedarPolicy.utf8ByteSize > maxPolicyBytes ∨ entityBytes.length > maxEntityBytes ∨
      lib.isArray call.entities = false then
    .error .invalidInput
  else if lib.validated call.cedarPolicy call.cedarSchema entitySource "publication-candidate" = false then
    .error .invalidInput
  else
    let checksum := lib.sha256 (call.hashed entityBytes)
    let policyRevision := "sha256:" ++ hexOfBytes checksum
    let nowMs := saturatingMs call.nowUnixSeconds
    let random ← okOr .randomnessUnavailable call.random
    let (row, db) ← (queryPublish parseUuid call policyRevision entitySource checksum nowMs (uuidV7 nowMs random)
      db).mapError .transport
    let row ← okOr .invalidAdminSession row
    let record ← policyFromRow row
    pure (record, db)

variable {lib parseUuid}

theorem exists_of_publish {call : PublishCall Value} {db : Db} {published : PolicyBundleRecord × Db}
    (h : publish lib parseUuid call db = .ok published) :
    ∃ entitySource, lib.toJson call.entities = some entitySource ∧ holdsNul call.cedarSchema = false ∧
      holdsNul call.cedarPolicy = false := by
  obtain ⟨entitySource, hjson, h⟩ := bind_eq_ok.1 h
  dsimp only at h
  split at h
  · cases h
  · split at h
    · cases h
    · obtain ⟨random, -, h⟩ := bind_eq_ok.1 h
      obtain ⟨answer, hquery, -⟩ := bind_eq_ok.1 h
      rw [mapError_eq_ok, queryPublish] at hquery
      split at hquery
      · cases hquery
      next htexts =>
        simp only [List.any_cons, Bool.or_eq_true, not_or, Bool.not_eq_true] at htexts
        exact ⟨entitySource, okOr_eq_ok.1 hjson, htexts.2.2.1, htexts.2.2.2.1⟩

end Publish

/-! ## Separators -/

theorem nul_not_mem_utf8Bytes {text : String} (h : '\x00' ∉ text.toList) : 0 ∉ utf8Bytes text := by
  intro hmem
  rw [utf8Bytes_eq] at hmem
  exact h ((Utf8.ascii_mem_encode_iff (by decide)).1 hmem)

/-- A NUL ends a text that holds none. -/
theorem utf8Bytes_nul_inj {a b : String} (ha : '\x00' ∉ a.toList) (hb : '\x00' ∉ b.toList) {rest rest' : Bytes}
    (h : utf8Bytes a ++ [0] ++ rest = utf8Bytes b ++ [0] ++ rest') : a = b ∧ rest = rest' := by
  simp only [List.append_assoc, List.singleton_append] at h
  have hsplit := congrArg (List.splitOn 0) h
  rw [List.splitOn_append_cons_self_of_not_mem (nul_not_mem_utf8Bytes ha),
    List.splitOn_append_cons_self_of_not_mem (nul_not_mem_utf8Bytes hb)] at hsplit
  obtain rfl := utf8Bytes_injective (List.cons.inj hsplit).1
  exact ⟨rfl, (List.cons.inj (List.append_cancel_left h)).2⟩

theorem Principal.nul_not_mem_issuer (principal : Principal) : '\x00' ∉ principal.issuer.toList := by
  have hvalid := principal.issuerValid
  simp only [validIssuer, Bool.and_eq_true, Bool.not_eq_true', List.any_eq_false] at hvalid
  exact fun hmem => hvalid.2 _ hmem (by decide)

theorem identity_inj {p q : Principal} (h : utf8Bytes p.issuer ++ [0] ++ utf8Bytes p.userId.value =
    utf8Bytes q.issuer ++ [0] ++ utf8Bytes q.userId.value) : p.issuer = q.issuer ∧ p.userId = q.userId := by
  obtain ⟨hissuer, hbytes⟩ := utf8Bytes_nul_inj p.nul_not_mem_issuer q.nul_not_mem_issuer h
  exact ⟨hissuer, Identifier.value_injective (utf8Bytes_injective hbytes)⟩

/-- The hashed bytes tell the schema, the policy and the entities. -/
theorem hashed_inj {Value : Type} {a b : PublishCall Value} {entitiesA entitiesB : Bytes}
    (ha : holdsNul a.cedarSchema = false ∧ holdsNul a.cedarPolicy = false)
    (hb : holdsNul b.cedarSchema = false ∧ holdsNul b.cedarPolicy = false)
    (h : a.hashed entitiesA = b.hashed entitiesB) :
    a.cedarSchema = b.cedarSchema ∧ a.cedarPolicy = b.cedarPolicy ∧ entitiesA = entitiesB := by
  have hnul : ∀ {text : String}, holdsNul text = false → '\x00' ∉ text.toList := by
    intro text htext hmem
    rw [holdsNul, List.contains_iff_mem.2 hmem] at htext
    cases htext
  simp only [PublishCall.hashed, List.append_assoc] at h
  rw [← List.append_assoc, ← List.append_assoc (utf8Bytes b.cedarSchema)] at h
  obtain ⟨hschema, hrest⟩ := utf8Bytes_nul_inj (hnul ha.1) (hnul hb.1) h
  rw [← List.append_assoc, ← List.append_assoc (utf8Bytes b.cedarPolicy)] at hrest
  obtain ⟨hpolicy, hentities⟩ := utf8Bytes_nul_inj (hnul ha.2) (hnul hb.2) hrest
  exact ⟨hschema, hpolicy, hentities⟩

/-- Encoded identities and hashed bundles determine what they were made of. -/
theorem canonical_bytes_injective (base64 : Bytes → String) (hbase64 : base64.Injective) :
    (∀ p q : Principal, canonicalSubjectId base64 p = canonicalSubjectId base64 q →
      p.issuer = q.issuer ∧ p.userId = q.userId) ∧
    (∀ p q : Principal, canonicalPrincipalId base64 p = canonicalPrincipalId base64 q →
      p.issuer = q.issuer ∧ p.userId = q.userId) ∧
    ∀ {Value : Type} (lib : PolicyLibrary Value) (parseUuid : String → Option Uuid) (a b : PublishCall Value)
      (dbA dbB : Db) (publishedA publishedB : PolicyBundleRecord × Db),
      publish lib parseUuid a dbA = .ok publishedA → publish lib parseUuid b dbB = .ok publishedB →
      ∃ sourceA sourceB, lib.toJson a.entities = some sourceA ∧ lib.toJson b.entities = some sourceB ∧
        (a.hashed (utf8Bytes sourceA) = b.hashed (utf8Bytes sourceB) →
          a.cedarSchema = b.cedarSchema ∧ a.cedarPolicy = b.cedarPolicy ∧ sourceA = sourceB ∧
          (lib.ReadsBack → a.entities = b.entities)) := by
  have hmark : ∀ {s t : String}, "v1_" ++ s = "v1_" ++ t → s = t := fun h => by
    have hlist := congrArg String.toList h
    rw [String.toList_append, String.toList_append] at hlist
    exact String.toList_inj.1 (List.append_cancel_left hlist)
  refine ⟨fun p q h => identity_inj (hbase64 (hmark h)), fun p q h => identity_inj (hbase64 (hmark h)), ?_⟩
  intro Value lib parseUuid a b dbA dbB publishedA publishedB ha hb
  obtain ⟨sourceA, hjsonA, hnulA⟩ := exists_of_publish ha
  obtain ⟨sourceB, hjsonB, hnulB⟩ := exists_of_publish hb
  refine ⟨sourceA, sourceB, hjsonA, hjsonB, fun h => ?_⟩
  obtain ⟨hschema, hpolicy, hbytes⟩ := hashed_inj hnulA hnulB h
  have hsource := utf8Bytes_injective hbytes
  exact ⟨hschema, hpolicy, hsource, fun hread => hread _ _ _ hjsonA (hsource ▸ hjsonB)⟩

def base64Text (bytes : Bytes) : String := String.ofList (urlSafeNoPad bytes)

/-- Entities as documents, every bundle valid, and the bytes themselves for their digest. -/
def samplePolicies : PolicyLibrary Json where
  toJson value := some value.compact
  isArray
    | .array _ => true
    | _ => false
  sha256 bytes := bytes
  validated _ _ _ _ := true

theorem acmePolicies_sessionId : validateIdentifier "00000000-0000-0000-0000-000000000002" = .ok () := by
  decide +kernel

def acmePolicies (cedarSchema cedarPolicy : String) : PublishCall Json where
  sessionId := ⟨"00000000-0000-0000-0000-000000000002", acmePolicies_sessionId⟩
  cedarSchema := cedarSchema
  cedarPolicy := cedarPolicy
  entities := .array []
  requestId := ⟨"publish-1", by decide +kernel⟩
  nowUnixSeconds := 0
  random := some 0
  retireFirst := true

/-- Moving a character from the user to the issuer gives another identity, and moving one from the policy to the schema
other bytes under the checksum, for two bundles published one after the other. -/
theorem shifted_identities_differ :
    (∃ p q : Principal, p.issuer ++ p.userId.value = q.issuer ++ q.userId.value ∧
      canonicalSubjectId base64Text p ≠ canonicalSubjectId base64Text q ∧
      canonicalPrincipalId base64Text p ≠ canonicalPrincipalId base64Text q) ∧
    ∃ db first second, Reachable postgres db ∧
      publish samplePolicies Uuid.ofText? (acmePolicies "schema 1" "2 policy") db = .ok first ∧
      publish samplePolicies Uuid.ofText? (acmePolicies "schema 12" " policy") first.2 = .ok second ∧
      (acmePolicies "schema 1" "2 policy").hashed (utf8Bytes "[]") ≠
        (acmePolicies "schema 12" " policy").hashed (utf8Bytes "[]") := by
  have hbase64 : base64Text.Injective := fun _ _ h => urlSafeNoPad_inj (String.ofList_injective h)
  obtain ⟨hsubject, hprincipal, hpublish⟩ := canonical_bytes_injective base64Text hbase64
  refine ⟨⟨⟨⟨"2", by decide⟩, "idp-1", false, by decide⟩, ⟨⟨"12", by decide⟩, "idp-", false, by decide⟩, by decide,
    fun h => absurd (hsubject _ _ h).1 (by decide), fun h => absurd (hprincipal _ _ h).1 (by decide)⟩, ?_⟩
  obtain ⟨db, hreach, htest⟩ := exists_reachable_of_run postgres foundAcme
    (fun db => (publish samplePolicies Uuid.ofText? (acmePolicies "schema 1" "2 policy") db).toOption.any fun first =>
      (publish samplePolicies Uuid.ofText? (acmePolicies "schema 12" " policy") first.2).toOption.isSome)
    (by decide +kernel)
  obtain ⟨first, hfirst, hsecond⟩ := exists_ok_of_any htest
  obtain ⟨second, hsecond, -⟩ := exists_ok_of_any (p := fun _ => true) (by simpa using hsecond)
  obtain ⟨sourceA, sourceB, hA, hB, hinj⟩ := hpublish _ _ _ _ _ _ _ _ hfirst hsecond
  refine ⟨db, first, second, hreach, hfirst, hsecond, fun h => ?_⟩
  obtain ⟨rfl, rfl⟩ : sourceA = "[]" ∧ sourceB = "[]" := by
    have hempty : Json.compact (.array []) = "[]" := by decide +kernel
    exact ⟨Option.some.inj (hA.symm.trans (congrArg some hempty)),
      Option.some.inj (hB.symm.trans (congrArg some hempty))⟩
  exact absurd (hinj h).1 (by decide)

end WasiAuth
