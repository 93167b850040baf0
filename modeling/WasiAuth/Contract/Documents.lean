import WasiAuth.Base.Json
import WasiAuth.Identity.Context
import WasiAuth.Identity.Values

/-! # The AuthZEN contract

The bounded request and decision types of `wasi-authz-contract/src/lib.rs`, here without their `V1`, and their
constructors. Every type carries what its constructors check. The derived and the hand-written `Serialize` and
`Deserialize` are functions to and from a JSON tree (`Base.Json`); the text of the tree is `serde_json`'s.

| source | model |
|---|---|
| `#[serde(skip_serializing_if)]`, `default` | `Json.build`, `Json.optional`, `Json.defaulted` |
| `#[serde(deny_unknown_fields)]` | `Json.struct _ true` |
| `#[serde(tag)]` | `Json.tagged` |
| `sort_unstable` and `dedup` of texts | `btreeSet` |
-/

namespace WasiAuth.Contract

open Relational

/-- lib.rs:24 -/
def maxDocumentBytes : Nat := 64 * 1024
/-- lib.rs:26 -/
def maxAttributes : Nat := 32
/-- lib.rs:28 -/
def maxAttributeListValues : Nat := 32
/-- lib.rs:30 -/
def maxAttributeValueLen : Nat := 2 * 1024
/-- lib.rs:32 -/
def maxEntityIdLen : Nat := 512
/-- lib.rs:34 -/
def maxEntityTypeLen : Nat := 128
/-- lib.rs:36 -/
def maxActionNameLen : Nat := 128
/-- lib.rs:38 -/
def maxAttributeNameLen : Nat := 128
/-- lib.rs:40 -/
def maxCorrelationIdLen : Nat := 256
/-- lib.rs:42 -/
def maxRevisionLen : Nat := 512

/-- lib.rs:49 -/
inductive ContractError where
  | invalidText (field : String) (maxLen : Nat)
  | invalidIdentifier (field : String) (maxLen : Nat)
  | sensitiveAttributeName
  | tooManyAttributes
  | duplicateAttribute (name : String)
  | tooManyAttributeValues
  | documentTooLarge
  | invalidJson
  | obligationsUnsupported
  | invalidDecisionContext
deriving DecidableEq, Repr

/-! ## Bounded texts -/

/-- The check of `validate_text` (lib.rs:1270). -/
def validText (value : String) (maxLen : Nat) : Bool :=
  decide (value ≠ "") && decide (value.utf8ByteSize ≤ maxLen) && decide (trim value = value) &&
    !value.toList.any isControl

/-- The bytes of a character outside ASCII are not in the alphabet either. -/
def validIdentifier (value : String) (maxLen : Nat) : Bool :=
  decide (value ≠ "") && decide (value.utf8ByteSize ≤ maxLen) &&
    value.toList.all fun c => c.isAlphanum || "-_.:/".toList.contains c

/-- `bounded_text_type!` (lib.rs:92) -/
structure BoundedText (maxLen : Nat) (field : String) where
  value : String
  valid : validText value maxLen = true
deriving DecidableEq

/-- `bounded_identifier_type!` (lib.rs:142) -/
structure BoundedIdentifier (maxLen : Nat) (field : String) where
  value : String
  valid : validIdentifier value maxLen = true
deriving DecidableEq

/-- lib.rs:112 -/
def BoundedText.new {maxLen : Nat} {field : String} (value : String) :
    Except ContractError (BoundedText maxLen field) :=
  if h : validText value maxLen = true then .ok ⟨value, h⟩ else .error (.invalidText field maxLen)

/-- lib.rs:162 -/
def BoundedIdentifier.new {maxLen : Nat} {field : String} (value : String) :
    Except ContractError (BoundedIdentifier maxLen field) :=
  if h : validIdentifier value maxLen = true then .ok ⟨value, h⟩ else .error (.invalidIdentifier field maxLen)

/-- lib.rs:192 -/
abbrev EntityType := BoundedIdentifier maxEntityTypeLen "entity type"
/-- lib.rs:198 -/
abbrev EntityId := BoundedText maxEntityIdLen "entity identifier"
/-- lib.rs:204 -/
abbrev ActionName := BoundedIdentifier maxActionNameLen "action name"
/-- lib.rs:256 -/
abbrev Issuer := BoundedText maxEntityIdLen "identity issuer"
/-- lib.rs:262 -/
abbrev Scope := BoundedIdentifier maxAttributeNameLen "scope"
/-- lib.rs:268 -/
abbrev TenantId := BoundedText maxEntityIdLen "tenant identifier"
/-- lib.rs:274 -/
abbrev RequestId := BoundedText maxCorrelationIdLen "request identifier"
/-- lib.rs:280 -/
abbrev DecisionId := BoundedText maxCorrelationIdLen "decision identifier"
/-- lib.rs:286 -/
abbrev PolicyRevision := BoundedText maxRevisionLen "policy revision"
/-- lib.rs:292 -/
abbrev ModelName := BoundedIdentifier maxEntityTypeLen "model name"
/-- lib.rs:298 -/
abbrev ModelVersion := BoundedText maxRevisionLen "model version"
/-- lib.rs:304 -/
abbrev ReasonCode := BoundedIdentifier maxAttributeNameLen "reason code"
/-- lib.rs:310 -/
abbrev ConsistencyToken := BoundedText maxRevisionLen "consistency token"
/-- lib.rs:316 -/
abbrev AttributeString := BoundedText maxAttributeValueLen "attribute string"

section Order
variable {maxLen : Nat} {field : String}

instance : LE (BoundedIdentifier maxLen field) := ⟨fun a b => a.value ≤ b.value⟩

instance : DecidableLE (BoundedIdentifier maxLen field) :=
  fun a b => inferInstanceAs (Decidable (a.value ≤ b.value))

instance : Std.Total (α := BoundedIdentifier maxLen field) (· ≤ ·) := ⟨fun a b => String.le_total a.value b.value⟩

instance : IsTrans (BoundedIdentifier maxLen field) (· ≤ ·) := ⟨fun _ _ _ => String.le_trans⟩

end Order

/-! ## Attributes -/

/-- `str::to_ascii_lowercase`. -/
def toAsciiLowercase (text : List Char) : List Char := text.map Char.toLower

/-- lib.rs:1326: some segment of the name is on the list. -/
def isSensitiveAttributeName (name : String) : Bool :=
  (name.toList.splitOnP fun c => ".-_:/".toList.contains c).any fun segment =>
    ["authorization", "cookie", "credential", "password", "secret", "token", "access-token", "refresh-token",
      "client-secret", "session-secret"].contains (String.ofList (toAsciiLowercase segment))

/-- lib.rs:217 -/
structure AttributeName where
  value : String
  valid : validIdentifier value maxAttributeNameLen = true
  plain : isSensitiveAttributeName value = false
deriving DecidableEq

/-- lib.rs:226 -/
def AttributeName.new (value : String) : Except ContractError AttributeName :=
  if h : validIdentifier value maxAttributeNameLen = true then
    if hplain : isSensitiveAttributeName value = false then .ok ⟨value, h, hplain⟩ else .error .sensitiveAttributeName
  else .error (.invalidIdentifier "attribute name" maxAttributeNameLen)

/-- lib.rs:327 -/
inductive AttributeProvenance where
  | identityProvider | resourceStore | application | gateway | policyInformationPoint
deriving DecidableEq

/-- lib.rs:343 -/
structure AttributeStringList where
  values : List AttributeString
  bounded : values.length ≤ maxAttributeListValues
deriving DecidableEq

/-- lib.rs:352 -/
def AttributeStringList.new (values : List AttributeString) : Except ContractError AttributeStringList :=
  if h : values.length ≤ maxAttributeListValues then .ok ⟨values, h⟩ else .error .tooManyAttributeValues

/-- lib.rs:379 -/
inductive AttributeValue where
  | string (value : AttributeString)
  | integer (value : Int64)
  | boolean (value : Bool)
  | stringList (value : AttributeStringList)
deriving DecidableEq

/-- lib.rs:405 -/
structure Attribute where
  name : AttributeName
  value : AttributeValue
  provenance : AttributeProvenance
deriving DecidableEq

/-- The name's own constructor has refused a sensitive name already. -/
def Attribute.new (name : AttributeName) (value : AttributeValue) (provenance : AttributeProvenance) :
    Except ContractError Attribute :=
  if isSensitiveAttributeName name.value then .error .sensitiveAttributeName else .ok ⟨name, value, provenance⟩

/-- lib.rs:473 -/
structure Attributes where
  items : List Attribute
  bounded : items.length ≤ maxAttributes
  distinct : (items.map Attribute.name).Nodup
deriving DecidableEq

theorem Attributes.empty_bounded : ([] : List Attribute).length ≤ maxAttributes := Nat.zero_le _

/-- `AttributesV1::new` and `default`. -/
def Attributes.empty : Attributes := ⟨[], Attributes.empty_bounded, List.nodup_nil⟩

/-- The loop of `validate_attributes`, with the names it has seen. -/
def validateNames (names : List AttributeName) : List Attribute → Except ContractError Unit
  | [] => .ok ()
  | item :: items =>
    if isSensitiveAttributeName item.name.value then .error .sensitiveAttributeName
    else if item.name ∈ names then .error (.duplicateAttribute item.name.value)
    else validateNames (item.name :: names) items

/-- lib.rs:1299 -/
def validateAttributes (items : List Attribute) : Except ContractError Unit :=
  if items.length > maxAttributes then .error .tooManyAttributes else validateNames [] items

theorem validateNames_eq_ok : ∀ {items : List Attribute} {names : List AttributeName},
    validateNames names items = .ok () ↔ (items.map Attribute.name).Nodup ∧ ∀ item ∈ items, item.name ∉ names
  | [], names => by simp [validateNames]
  | item :: items, names => by
    rw [validateNames, if_neg (by simp [item.name.plain]), List.map_cons, List.nodup_cons, List.forall_mem_cons]
    split
    next hmem => exact iff_of_false (by simp) fun h => h.2.1 hmem
    next hmem =>
      rw [validateNames_eq_ok]
      simp only [List.mem_cons, not_or, List.mem_map, not_exists, not_and]
      constructor
      · rintro ⟨hnodup, hnames⟩
        exact ⟨⟨fun other hother => (hnames other hother).1, hnodup⟩, hmem, fun other hother => (hnames other hother).2⟩
      · rintro ⟨⟨hfresh, hnodup⟩, -, hnames⟩
        exact ⟨hnodup, fun other hother => ⟨hfresh other hother, hnames other hother⟩⟩

theorem validateAttributes_eq_ok {items : List Attribute} :
    validateAttributes items = .ok () ↔ items.length ≤ maxAttributes ∧ (items.map Attribute.name).Nodup := by
  rw [validateAttributes]
  split
  next hlength => exact iff_of_false (by simp) fun h => by omega
  next hlength =>
    rw [validateNames_eq_ok]
    simp only [List.not_mem_nil, not_false_eq_true, implies_true, and_true]
    exact ⟨fun h => ⟨Nat.le_of_not_lt hlength, h⟩, fun h => h.2⟩

/-- lib.rs:487 -/
def Attributes.tryFromVec (items : List Attribute) : Except ContractError Attributes := do
  let ⟨(), h⟩ ← attachOk (validateAttributes items)
  pure ⟨items, (validateAttributes_eq_ok.1 h).1, (validateAttributes_eq_ok.1 h).2⟩

theorem Attributes.distinct_insert {attributes : Attributes} {item : Attribute}
    (h : item.name ∉ attributes.items.map Attribute.name) :
    ((attributes.items ++ [item]).map Attribute.name).Nodup := by
  rw [List.map_append, List.map_singleton]
  exact List.nodup_append.2 ⟨attributes.distinct, List.nodup_singleton _, fun name hname other hother heq =>
    h (List.mem_singleton.1 hother ▸ heq ▸ hname)⟩

theorem Attributes.bounded_insert {attributes : Attributes} {item : Attribute}
    (h : ¬ maxAttributes ≤ attributes.items.length) : (attributes.items ++ [item]).length ≤ maxAttributes := by
  rw [List.length_append, List.length_singleton]
  omega

/-- lib.rs:497 -/
def Attributes.insert (attributes : Attributes) (item : Attribute) : Except ContractError Attributes :=
  if hlength : maxAttributes ≤ attributes.items.length then .error .tooManyAttributes
  else if hname : item.name ∈ attributes.items.map Attribute.name then .error (.duplicateAttribute item.name.value)
  else .ok ⟨attributes.items ++ [item], Attributes.bounded_insert hlength, Attributes.distinct_insert hname⟩

/-! ## Requests -/

/-- lib.rs:1317 -/
def normalizeScopes (scopes : List Scope) : Except ContractError (List Scope) :=
  if scopes.length > maxAttributeListValues then .error .tooManyAttributeValues else .ok (btreeSet scopes)

/-- lib.rs:533 -/
structure AuthenticatedSubject where
  subjectType : EntityType
  id : EntityId
  issuer : Issuer
  tenantId : Option TenantId
  scopes : List Scope
  attributes : Attributes
  scopesNormal : normalizeScopes scopes = .ok scopes
deriving DecidableEq

theorem normalizeScopes_nil : normalizeScopes [] = .ok [] := rfl

theorem normalizeScopes_normalizeScopes {scopes normal : List Scope} (h : normalizeScopes scopes = .ok normal) :
    normalizeScopes normal = .ok normal := by
  rw [normalizeScopes] at h
  split at h
  · cases h
  next hlength =>
    cases h
    have hle := length_btreeSet_le scopes
    rw [normalizeScopes, if_neg (by omega), btreeSet_btreeSet]

/-- lib.rs:544 -/
def AuthenticatedSubject.new (subjectType : EntityType) (id : EntityId) (issuer : Issuer) : AuthenticatedSubject :=
  ⟨subjectType, id, issuer, none, [], Attributes.empty, normalizeScopes_nil⟩

/-- lib.rs:556 -/
def AuthenticatedSubject.withTenantId (subject : AuthenticatedSubject) (tenantId : TenantId) : AuthenticatedSubject :=
  { subject with tenantId := some tenantId }

/-- lib.rs:567 -/
def AuthenticatedSubject.withScopes (subject : AuthenticatedSubject) (scopes : List Scope) :
    Except ContractError AuthenticatedSubject := do
  let ⟨scopes, h⟩ ← attachOk (normalizeScopes scopes)
  pure { subject with scopes, scopesNormal := normalizeScopes_normalizeScopes h }

/-- lib.rs:573 -/
def AuthenticatedSubject.withAttributes (subject : AuthenticatedSubject) (attributes : Attributes) :
    AuthenticatedSubject := { subject with attributes }

/-- lib.rs:612 -/
inductive Subject where
  | anonymous
  | authenticated (subject : AuthenticatedSubject)
deriving DecidableEq

/-- `ResourceV1`, with the attributes of its properties. -/
structure Resource where
  resourceType : EntityType
  id : EntityId
  attributes : Attributes
deriving DecidableEq

/-- `ActionV1`, with the attributes of its properties. -/
structure Action where
  name : ActionName
  attributes : Attributes
deriving DecidableEq

/-- lib.rs:882 -/
inductive ConsistencyRequirement where
  | minimizeLatency
  | atLeastAsFresh (token : ConsistencyToken)
  | fullyConsistent
deriving DecidableEq

/-- `ContextV1`, with the members of its profile. -/
structure Context where
  attributes : Attributes
  consistency : Option ConsistencyRequirement
  requestId : Option RequestId
deriving DecidableEq

/-- lib.rs:963 -/
structure AccessRequest where
  subject : Subject
  action : Action
  resource : Resource
  context : Option Context
deriving DecidableEq

/-! ## Decisions -/

/-- lib.rs:1031 -/
structure DecisionMetadata where
  decisionId : Option DecisionId
  policyRevision : Option PolicyRevision
  model : Option ModelName
  modelVersion : Option ModelVersion
  reasonCode : Option ReasonCode
  consistencyToken : Option ConsistencyToken
deriving DecidableEq

/-- `DecisionMetadataV1::new` and `default`. -/
def DecisionMetadata.empty : DecisionMetadata := ⟨none, none, none, none, none, none⟩

/-- lib.rs:1120 -/
structure DecisionResponse where
  decision : Bool
  metadata : DecisionMetadata
deriving DecidableEq

end WasiAuth.Contract
