import WasiAuth.Contract.Documents

/-! # The contract on the wire

How requests and decisions are written and read, each reader right after its writer with the round trip between them.
All of them round trip but one: `SubjectV1` is read back only if it is not an authenticated subject whose type is
`anonymous`, which `AuthenticatedSubjectV1::new` accepts and `SubjectV1::deserialize` refuses
(`Subject.fromJson_toJson`).
-/

namespace WasiAuth.Contract

open Relational

/-! ## Texts and numbers -/

section Texts
variable {maxLen : Nat} {field : String}

/-- lib.rs:95 -/
def BoundedText.toJson (text : BoundedText maxLen field) : Json := .string text.value

/-- lib.rs:130 -/
def BoundedText.fromJson (json : Json) : Option (BoundedText maxLen field) := do
  let value ← json.decodeString
  (BoundedText.new value).toOption

@[simp] theorem BoundedText.fromJson_toJson (text : BoundedText maxLen field) : fromJson text.toJson = some text := by
  refine Json.bind_of_some rfl ?_
  rw [BoundedText.new, dif_pos text.valid]
  rfl

/-- lib.rs:145 -/
def BoundedIdentifier.toJson (text : BoundedIdentifier maxLen field) : Json := .string text.value

/-- lib.rs:180 -/
def BoundedIdentifier.fromJson (json : Json) : Option (BoundedIdentifier maxLen field) := do
  let value ← json.decodeString
  (BoundedIdentifier.new value).toOption

@[simp] theorem BoundedIdentifier.fromJson_toJson (text : BoundedIdentifier maxLen field) :
    fromJson text.toJson = some text := by
  refine Json.bind_of_some rfl ?_
  rw [BoundedIdentifier.new, dif_pos text.valid]
  rfl

end Texts

def AttributeName.toJson (name : AttributeName) : Json := .string name.value

/-- lib.rs:247 -/
def AttributeName.fromJson (json : Json) : Option AttributeName := do
  let value ← json.decodeString
  (AttributeName.new value).toOption

@[simp] theorem AttributeName.fromJson_toJson (name : AttributeName) : fromJson name.toJson = some name := by
  refine Json.bind_of_some rfl ?_
  rw [AttributeName.new, dif_pos name.valid, dif_pos name.plain]
  rfl

def i64ToJson (value : Int64) : Json := .number value.toInt

/-- A number outside the `i64` is refused. -/
def i64FromJson : Json → Option Int64
  | .number value => if -2 ^ 63 ≤ value ∧ value < 2 ^ 63 then some (Int64.ofInt value) else none
  | _ => none

@[simp] theorem i64FromJson_toJson (value : Int64) : i64FromJson (i64ToJson value) = some value := by
  rw [i64ToJson, i64FromJson, if_pos ⟨value.le_toInt, value.toInt_lt⟩, Int64.ofInt_toInt]

/-! ## Attributes -/

/-- `rename_all = "snake_case"` (lib.rs:326). -/
def AttributeProvenance.text : AttributeProvenance → String
  | .identityProvider => "identity_provider"
  | .resourceStore => "resource_store"
  | .application => "application"
  | .gateway => "gateway"
  | .policyInformationPoint => "policy_information_point"

def AttributeProvenance.fromJson : Json → Option AttributeProvenance
  | .string "identity_provider" => some .identityProvider
  | .string "resource_store" => some .resourceStore
  | .string "application" => some .application
  | .string "gateway" => some .gateway
  | .string "policy_information_point" => some .policyInformationPoint
  | _ => none

@[simp] theorem AttributeProvenance.fromJson_text (provenance : AttributeProvenance) :
    fromJson (.string provenance.text) = some provenance := by
  cases provenance <;> rfl

/-- lib.rs:365 -/
def AttributeStringList.fromJson (json : Json) : Option AttributeStringList := do
  let values ← json.decodeArray BoundedText.fromJson
  (AttributeStringList.new values).toOption

@[simp] theorem AttributeStringList.fromJson_toJson (list : AttributeStringList) :
    fromJson (.array (list.values.map BoundedText.toJson)) = some list := by
  refine Json.bind_of_some (Json.decodeArray_map BoundedText.fromJson_toJson list.values) ?_
  rw [AttributeStringList.new, dif_pos list.bounded]
  rfl

/-- Adjacently tagged, with the members `type` and `value`. -/
def AttributeValue.toJson : AttributeValue → Json
  | .string value => .build [("type", some (.string "string")), ("value", some value.toJson)]
  | .integer value => .build [("type", some (.string "integer")), ("value", some (i64ToJson value))]
  | .boolean value => .build [("type", some (.string "boolean")), ("value", some (.bool value))]
  | .stringList value =>
    .build [("type", some (.string "string_list")), ("value", some (.array (value.values.map BoundedText.toJson)))]

/-- lib.rs:378 -/
def AttributeValue.fromJson (json : Json) : Option AttributeValue := do
  let members ← json.struct ["type", "value"] false
  let kind ← Json.required members "type" Json.decodeString
  match kind with
  | "string" => (Json.required members "value" BoundedText.fromJson).map .string
  | "integer" => (Json.required members "value" i64FromJson).map .integer
  | "boolean" => (Json.required members "value" Json.decodeBool).map .boolean
  | "string_list" => (Json.required members "value" AttributeStringList.fromJson).map .stringList
  | _ => none

@[simp] theorem AttributeValue.fromJson_toJson (value : AttributeValue) : fromJson value.toJson = some value := by
  cases value <;> simp [fromJson, toJson, Json.required, List.lookup_cons, Json.decodeString, Json.decodeBool]

def Attribute.toJson (item : Attribute) : Json :=
  .build [("name", some item.name.toJson), ("value", some item.value.toJson),
    ("provenance", some (.string item.provenance.text))]

/-- lib.rs:411 -/
def Attribute.fromJson (json : Json) : Option Attribute := do
  let members ← json.struct ["name", "value", "provenance"] true
  let name ← Json.required members "name" AttributeName.fromJson
  let value ← Json.required members "value" AttributeValue.fromJson
  let provenance ← Json.required members "provenance" AttributeProvenance.fromJson
  (Attribute.new name value provenance).toOption

@[simp] theorem Attribute.fromJson_toJson (item : Attribute) : fromJson item.toJson = some item := by
  simp [fromJson, toJson, Json.required, List.lookup_cons, Attribute.new, item.name.plain, Except.toOption]

def Attributes.toJson (attributes : Attributes) : Json := .array (attributes.items.map Attribute.toJson)

/-- lib.rs:521 -/
def Attributes.fromJson (json : Json) : Option Attributes := do
  let items ← json.decodeArray Attribute.fromJson
  (Attributes.tryFromVec items).toOption

@[simp] theorem Attributes.fromJson_toJson (attributes : Attributes) :
    fromJson attributes.toJson = some attributes := by
  refine Json.bind_of_some (Json.decodeArray_map Attribute.fromJson_toJson attributes.items) ?_
  rw [Attributes.tryFromVec, attachOk_of_eq (validateAttributes_eq_ok.2 ⟨attributes.bounded, attributes.distinct⟩)]
  rfl

/-- `skip_serializing_if = "AttributesV1::is_empty"`. -/
def Attributes.member (attributes : Attributes) : Option Json :=
  if attributes.items = [] then none else some attributes.toJson

theorem Attributes.eq_empty_of_member {attributes : Attributes} (h : attributes.member = none) :
    attributes = Attributes.empty := by
  rcases attributes with ⟨items, hbounded, hdistinct⟩
  rw [Attributes.member] at h
  split at h
  next hempty =>
    subst hempty
    rfl
  · cases h

theorem Attributes.fromJson_of_member {attributes : Attributes} {json : Json} (h : attributes.member = some json) :
    Attributes.fromJson json = some attributes := by
  rw [Attributes.member] at h
  split at h
  · cases h
  · cases h
    exact fromJson_toJson attributes

/-! ## Subjects -/

/-- The members of an authenticated profile beside its `state`. -/
def AuthenticatedSubject.members (subject : AuthenticatedSubject) : List (String × Option Json) :=
  [("issuer", some subject.issuer.toJson), ("tenant_id", subject.tenantId.map BoundedText.toJson),
    ("scopes", Json.nonempty BoundedIdentifier.toJson subject.scopes), ("attributes", subject.attributes.member)]

/-- The subject with its type and id and its profile, which is the only member of its properties. -/
def subjectToJson (subjectType id : String) (profile : List (String × Option Json)) : Json :=
  .build [("type", some (.string subjectType)), ("id", some (.string id)),
    ("properties", some (.build [("wasi_authz", some (.build profile))]))]

/-- lib.rs:692 -/
def Subject.toJson : Subject → Json
  | .anonymous => subjectToJson "anonymous" "anonymous" [("state", some (.string "anonymous"))]
  | .authenticated subject =>
    subjectToJson subject.subjectType.value subject.id.value
      (("state", some (.string "authenticated")) :: subject.members)

/-- `SubjectWireOwned` and its properties. -/
def decodeSubjectWire (json : Json) : Option (String × String × Json) := do
  let members ← json.struct ["type", "id", "properties"] false
  let subjectType ← Json.required members "type" Json.decodeString
  let id ← Json.required members "id" Json.decodeString
  let profile ← Json.required members "properties" fun properties => do
    let members ← properties.struct ["wasi_authz"] false
    members.lookup "wasi_authz"
  pure (subjectType, id, profile)

/-- The authenticated branch of `SubjectV1::deserialize`. -/
def decodeAuthenticated (subjectType id : String) (profile : Json) : Option AuthenticatedSubject := do
  let members ← profile.struct ["issuer", "tenant_id", "scopes", "attributes"] false
  let issuer ← Json.required members "issuer" BoundedText.fromJson
  let tenantId ← Json.optional members "tenant_id" BoundedText.fromJson
  let scopes ← Json.defaulted members "scopes" [] (Json.decodeArray BoundedIdentifier.fromJson)
  let attributes ← Json.defaulted members "attributes" Attributes.empty Attributes.fromJson
  let ⟨scopes, h⟩ ← (attachOk (normalizeScopes scopes)).toOption
  let subjectType ← (BoundedIdentifier.new subjectType : Except ContractError EntityType).toOption
  if subjectType.value = "anonymous" then none
  else
    let id ← (BoundedText.new id : Except ContractError EntityId).toOption
    pure ⟨subjectType, id, issuer, tenantId, scopes, attributes, normalizeScopes_normalizeScopes h⟩

/-- lib.rs:723 -/
def Subject.fromJson (json : Json) : Option Subject := do
  let (subjectType, id, profile) ← decodeSubjectWire json
  let (state, profile) ← profile.tagged "state"
  match state with
  | "anonymous" => if subjectType = "anonymous" ∧ id = "anonymous" then some .anonymous else none
  | "authenticated" => (decodeAuthenticated subjectType id profile).map .authenticated
  | _ => none

theorem decodeSubjectWire_toJson (subjectType id : String) (profile : List (String × Option Json)) :
    decodeSubjectWire (subjectToJson subjectType id profile) = some (subjectType, id, .build profile) := by
  simp [decodeSubjectWire, subjectToJson, Json.required, List.lookup_cons, Json.decodeString]

theorem decodeAuthenticated_members (subject : AuthenticatedSubject) :
    decodeAuthenticated subject.subjectType.value subject.id.value (.build subject.members) =
      if subject.subjectType.value = "anonymous" then none else some subject := by
  have hnames : (subject.members.map Prod.fst).Nodup :=
    (by decide : (["issuer", "tenant_id", "scopes", "attributes"] : List String).Nodup)
  refine Json.bind_of_some (Json.struct_build false hnames (List.Subset.refl _)) ?_
  refine Json.bind_of_some (Json.required_present hnames rfl (BoundedText.fromJson_toJson _)) ?_
  refine Json.bind_of_some (Json.optional_present hnames BoundedText.fromJson_toJson rfl rfl) ?_
  refine Json.bind_of_some (Json.defaulted_present hnames rfl Json.nonempty_eq_none
    fun _ => Json.decodeArray_of_nonempty BoundedIdentifier.fromJson_toJson) ?_
  refine Json.bind_of_some (Json.defaulted_present hnames rfl Attributes.eq_empty_of_member
    fun _ => Attributes.fromJson_of_member) ?_
  simp only [attachOk_of_eq subject.scopesNormal, BoundedIdentifier.new, subject.subjectType.valid, BoundedText.new,
    subject.id.valid, dite_true, Except.toOption, Option.bind_eq_bind, Option.bind_some]
  rfl

/-- The subject is authenticated and its type is `anonymous`. -/
def Subject.mistyped : Subject → Bool
  | .anonymous => false
  | .authenticated subject => decide (subject.subjectType.value = "anonymous")

/-- A subject is read back unless it is mistyped; then it is refused. -/
theorem Subject.fromJson_toJson (subject : Subject) :
    fromJson subject.toJson = if subject.mistyped then none else some subject := by
  cases subject with
  | anonymous => simp [fromJson, toJson, decodeSubjectWire_toJson, Json.tagged_build, Subject.mistyped]
  | authenticated subject =>
    have htag : "state" ∉ subject.members.map Prod.fst := by
      show "state" ∉ ["issuer", "tenant_id", "scopes", "attributes"]
      decide
    have hread : fromJson (toJson (.authenticated subject)) =
        (if subject.subjectType.value = "anonymous" then none else some subject).map .authenticated := by
      simp [fromJson, toJson, decodeSubjectWire_toJson, Json.tagged_build htag, decodeAuthenticated_members]
    rw [hread, Subject.mistyped]
    simp only [decide_eq_true_eq]
    split <;> rfl

/-! ## Actions, resources and contexts -/

/-- `EntityPropertiesV1`. -/
def propertiesToJson (attributes : Attributes) : Json :=
  .build [("wasi_authz", some (.build [("attributes", attributes.member)]))]

/-- lib.rs:767-779 -/
def propertiesFromJson (json : Json) : Option Attributes := do
  let members ← json.struct ["wasi_authz"] false
  Json.required members "wasi_authz" fun profile => do
    let members ← profile.struct ["attributes"] true
    Json.defaulted members "attributes" Attributes.empty Attributes.fromJson

@[simp] theorem propertiesFromJson_toJson (attributes : Attributes) :
    propertiesFromJson (propertiesToJson attributes) = some attributes := by
  have hnames : (([("attributes", attributes.member)] : List (String × Option Json)).map Prod.fst).Nodup :=
    List.nodup_singleton _
  have hattributes : Json.defaulted (Json.present [("attributes", attributes.member)]) "attributes" Attributes.empty
      Attributes.fromJson = some attributes :=
    Json.defaulted_present hnames (by simp) Attributes.eq_empty_of_member fun _ => Attributes.fromJson_of_member
  simp [propertiesFromJson, propertiesToJson, Json.required, hattributes]

/-- lib.rs:782 -/
def Resource.toJson (resource : Resource) : Json :=
  .build [("type", some resource.resourceType.toJson), ("id", some resource.id.toJson),
    ("properties", some (propertiesToJson resource.attributes))]

/-- lib.rs:781 -/
def Resource.fromJson (json : Json) : Option Resource := do
  let members ← json.struct ["type", "id", "properties"] false
  let resourceType ← Json.required members "type" BoundedIdentifier.fromJson
  let id ← Json.required members "id" BoundedText.fromJson
  let attributes ← Json.required members "properties" propertiesFromJson
  pure ⟨resourceType, id, attributes⟩

@[simp] theorem Resource.fromJson_toJson (resource : Resource) : fromJson resource.toJson = some resource := by
  simp [fromJson, toJson, Json.required, List.lookup_cons]

/-- lib.rs:838 -/
def Action.toJson (action : Action) : Json :=
  .build [("name", some action.name.toJson), ("properties", some (propertiesToJson action.attributes))]

/-- lib.rs:837 -/
def Action.fromJson (json : Json) : Option Action := do
  let members ← json.struct ["name", "properties"] false
  let name ← Json.required members "name" BoundedIdentifier.fromJson
  let attributes ← Json.required members "properties" propertiesFromJson
  pure ⟨name, attributes⟩

@[simp] theorem Action.fromJson_toJson (action : Action) : fromJson action.toJson = some action := by
  simp [fromJson, toJson, Json.required, List.lookup_cons]

/-- lib.rs:881 -/
def ConsistencyRequirement.toJson : ConsistencyRequirement → Json
  | .minimizeLatency => .build [("mode", some (.string "minimize_latency"))]
  | .atLeastAsFresh token => .build [("mode", some (.string "at_least_as_fresh")), ("token", some token.toJson)]
  | .fullyConsistent => .build [("mode", some (.string "fully_consistent"))]

/-- lib.rs:879 -/
def ConsistencyRequirement.fromJson (json : Json) : Option ConsistencyRequirement := do
  let (mode, rest) ← json.tagged "mode"
  match mode with
  | "minimize_latency" => some .minimizeLatency
  | "at_least_as_fresh" => do
    let members ← rest.struct ["token"] false
    let token ← Json.required members "token" BoundedText.fromJson
    pure (.atLeastAsFresh token)
  | "fully_consistent" => some .fullyConsistent
  | _ => none

@[simp] theorem ConsistencyRequirement.fromJson_toJson (consistency : ConsistencyRequirement) :
    fromJson consistency.toJson = some consistency := by
  cases consistency <;> simp [fromJson, toJson, Json.tagged_build, Json.required]

/-- `RequestContextProfileV1` (lib.rs:912) -/
def Context.members (context : Context) : List (String × Option Json) :=
  [("attributes", context.attributes.member), ("consistency", context.consistency.map ConsistencyRequirement.toJson),
    ("request_id", context.requestId.map BoundedText.toJson)]

/-- lib.rs:905 -/
def Context.toJson (context : Context) : Json := .build [("wasi_authz", some (.build context.members))]

/-- `RequestContextProfileV1`, no unknown member (lib.rs:910). -/
def Context.fromProfile (profile : Json) : Option Context := do
  let members ← profile.struct ["attributes", "consistency", "request_id"] true
  let attributes ← Json.defaulted members "attributes" Attributes.empty Attributes.fromJson
  let consistency ← Json.optional members "consistency" ConsistencyRequirement.fromJson
  let requestId ← Json.optional members "request_id" BoundedText.fromJson
  pure ⟨attributes, consistency, requestId⟩

/-- lib.rs:904 -/
def Context.fromJson (json : Json) : Option Context := do
  let members ← json.struct ["wasi_authz"] false
  Json.required members "wasi_authz" Context.fromProfile

theorem Context.fromProfile_members (context : Context) : fromProfile (.build context.members) = some context := by
  have hnames : (context.members.map Prod.fst).Nodup :=
    (by decide : (["attributes", "consistency", "request_id"] : List String).Nodup)
  refine Json.bind_of_some (Json.struct_build true hnames (List.Subset.refl _)) ?_
  refine Json.bind_of_some (Json.defaulted_present hnames rfl Attributes.eq_empty_of_member
    fun _ => Attributes.fromJson_of_member) ?_
  refine Json.bind_of_some (Json.optional_present hnames ConsistencyRequirement.fromJson_toJson rfl rfl) ?_
  exact Json.bind_of_some (Json.optional_present hnames BoundedText.fromJson_toJson rfl rfl) rfl

@[simp] theorem Context.fromJson_toJson (context : Context) : fromJson context.toJson = some context := by
  simp [fromJson, toJson, Json.required, fromProfile_members]

/-! ## Requests -/

/-- lib.rs:963 -/
def AccessRequest.members (request : AccessRequest) : List (String × Option Json) :=
  [("subject", some request.subject.toJson), ("action", some request.action.toJson),
    ("resource", some request.resource.toJson), ("context", request.context.map Context.toJson)]

def AccessRequest.toJson (request : AccessRequest) : Json := .build request.members

/-- lib.rs:962 -/
def AccessRequest.fromJson (json : Json) : Option AccessRequest := do
  let members ← json.struct ["subject", "action", "resource", "context"] false
  let subject ← Json.required members "subject" Subject.fromJson
  let action ← Json.required members "action" Action.fromJson
  let resource ← Json.required members "resource" Resource.fromJson
  let context ← Json.optional members "context" Context.fromJson
  pure ⟨subject, action, resource, context⟩

theorem AccessRequest.fromJson_toJson (request : AccessRequest) :
    fromJson request.toJson = if request.subject.mistyped then none else some request := by
  have hnames : (request.members.map Prod.fst).Nodup :=
    (by decide : (["subject", "action", "resource", "context"] : List String).Nodup)
  have hsubject : Json.required (Json.present request.members) "subject" Subject.fromJson =
      if request.subject.mistyped then none else some request.subject := by
    simp [Json.required, AccessRequest.members, Subject.fromJson_toJson]
  refine Json.bind_of_some (Json.struct_build false hnames (List.Subset.refl _)) ?_
  rw [hsubject]
  split
  · rfl
  · refine Json.bind_of_some rfl ?_
    refine Json.bind_of_some (Json.required_present hnames rfl (Action.fromJson_toJson _)) ?_
    refine Json.bind_of_some (Json.required_present hnames rfl (Resource.fromJson_toJson _)) ?_
    exact Json.bind_of_some (Json.optional_present hnames Context.fromJson_toJson rfl rfl) rfl

/-! ## Decisions -/

/-- lib.rs:1031 -/
def DecisionMetadata.members (metadata : DecisionMetadata) : List (String × Option Json) :=
  [("decision_id", metadata.decisionId.map BoundedText.toJson),
    ("policy_revision", metadata.policyRevision.map BoundedText.toJson),
    ("model", metadata.model.map BoundedIdentifier.toJson),
    ("model_version", metadata.modelVersion.map BoundedText.toJson),
    ("reason_code", metadata.reasonCode.map BoundedIdentifier.toJson),
    ("consistency_token", metadata.consistencyToken.map BoundedText.toJson)]

def DecisionMetadata.names : List String :=
  ["decision_id", "policy_revision", "model", "model_version", "reason_code", "consistency_token"]

/-- No unknown member (lib.rs:1030). -/
def DecisionMetadata.fromJson (json : Json) : Option DecisionMetadata := do
  let members ← json.struct DecisionMetadata.names true
  let decisionId ← Json.optional members "decision_id" BoundedText.fromJson
  let policyRevision ← Json.optional members "policy_revision" BoundedText.fromJson
  let model ← Json.optional members "model" BoundedIdentifier.fromJson
  let modelVersion ← Json.optional members "model_version" BoundedText.fromJson
  let reasonCode ← Json.optional members "reason_code" BoundedIdentifier.fromJson
  let consistencyToken ← Json.optional members "consistency_token" BoundedText.fromJson
  pure ⟨decisionId, policyRevision, model, modelVersion, reasonCode, consistencyToken⟩

theorem DecisionMetadata.names_nodup (metadata : DecisionMetadata) : (metadata.members.map Prod.fst).Nodup := by
  show DecisionMetadata.names.Nodup
  decide

theorem DecisionMetadata.fromJson_members (metadata : DecisionMetadata) :
    fromJson (.build metadata.members) = some metadata := by
  have hnames := metadata.names_nodup
  refine Json.bind_of_some (Json.struct_build true hnames (List.Subset.refl _)) ?_
  refine Json.bind_of_some (Json.optional_present hnames BoundedText.fromJson_toJson rfl rfl) ?_
  refine Json.bind_of_some (Json.optional_present hnames BoundedText.fromJson_toJson rfl rfl) ?_
  refine Json.bind_of_some (Json.optional_present hnames BoundedIdentifier.fromJson_toJson rfl rfl) ?_
  refine Json.bind_of_some (Json.optional_present hnames BoundedText.fromJson_toJson rfl rfl) ?_
  refine Json.bind_of_some (Json.optional_present hnames BoundedIdentifier.fromJson_toJson rfl rfl) ?_
  exact Json.bind_of_some (Json.optional_present hnames BoundedText.fromJson_toJson rfl rfl) rfl

/-- `DecisionWireRef`; empty metadata are not written. -/
def DecisionResponse.toJson (response : DecisionResponse) : Json :=
  .build [("decision", some (.bool response.decision)),
    ("context", if response.metadata = DecisionMetadata.empty then none
      else some (.build [("wasi_authz", some (.build response.metadata.members))]))]

/-- lib.rs:1243 -/
def isNonemptyJsonValue : Json → Bool
  | .null => false
  | .array items => !items.isEmpty
  | .object members => !members.isEmpty
  | _ => true

/-- lib.rs:1221-1225 -/
def hasObligations (members : List (String × Json)) : Bool :=
  ["obligations", "obligation"].any fun reserved => (members.lookup reserved).any isNonemptyJsonValue

/-- `Map<String, Value>`. -/
def decodeMap : Json → Option (List (String × Json))
  | .object members => some (Json.keepLast members)
  | _ => none

/-- lib.rs:1212 -/
def parseDecisionContext : Option (List (String × Json)) → Except ContractError DecisionMetadata
  | none => .ok .empty
  | some [] => .ok .empty
  | some context =>
    if hasObligations context then .error .obligationsUnsupported
    else match context.lookup "wasi_authz" with
      | none => .ok .empty
      | some profile =>
        match decodeMap profile with
        | none => .error .invalidDecisionContext
        | some members =>
          if hasObligations members then .error .obligationsUnsupported
          else okOr .invalidJson (DecisionMetadata.fromJson (.object members))

/-- `RawDecisionWire`. -/
def decodeRawDecision (json : Json) : Option (Bool × Option (List (String × Json))) := do
  let members ← json.struct ["decision", "context"] false
  let decision ← Json.required members "decision" Json.decodeBool
  let context ← Json.optional members "context" decodeMap
  pure (decision, context)

/-! ## Documents -/

/-- lib.rs:1252 -/
def encodeBounded (text : Json.Text) (document : Json) : Except ContractError Bytes := do
  let encoded ← okOr .invalidJson (text.toVec document)
  if encoded.length > maxDocumentBytes then .error .documentTooLarge else .ok encoded

/-- lib.rs:1260 -/
def decodeBounded {α : Type} (text : Json.Text) (decode : Json → Option α) (input : Bytes) : Except ContractError α :=
  if input.length > maxDocumentBytes then .error .documentTooLarge
  else okOr .invalidJson ((text.fromSlice input).bind decode)

/-- lib.rs:1014 -/
def AccessRequest.toJsonVec (text : Json.Text) (request : AccessRequest) : Except ContractError Bytes :=
  encodeBounded text request.toJson

/-- lib.rs:1023 -/
def AccessRequest.fromJsonSlice (text : Json.Text) (input : Bytes) : Except ContractError AccessRequest :=
  decodeBounded text AccessRequest.fromJson input

/-- lib.rs:1162 -/
def DecisionResponse.toJsonVec (text : Json.Text) (response : DecisionResponse) : Except ContractError Bytes :=
  encodeBounded text response.toJson

/-- lib.rs:1179 -/
def DecisionResponse.fromJsonSlice (text : Json.Text) (input : Bytes) : Except ContractError DecisionResponse := do
  let (decision, context) ← decodeBounded text decodeRawDecision input
  let metadata ← parseDecisionContext context
  pure ⟨decision, metadata⟩

/-- A document that was written is read as its reader reads the tree. -/
theorem decodeBounded_encodeBounded {α : Type} {text : Json.Text} {document : Json} {bytes : Bytes}
    (htext : text.RoundTrips document) (h : encodeBounded text document = .ok bytes) (decode : Json → Option α) :
    decodeBounded text decode bytes = okOr .invalidJson (decode document) := by
  obtain ⟨encoded, hvec, h⟩ := bind_eq_ok.1 h
  split at h
  · cases h
  next hlength =>
    cases h
    rw [decodeBounded, if_neg hlength, htext bytes (okOr_eq_ok.1 hvec)]
    rfl

theorem not_hasObligations {members : List (String × Json)}
    (h : ∀ member ∈ members, member.1 ≠ "obligations" ∧ member.1 ≠ "obligation") : hasObligations members = false := by
  have hnone : ∀ reserved ∈ (["obligations", "obligation"] : List String), members.lookup reserved = none := by
    intro reserved hreserved
    rw [List.lookup_eq_none_iff]
    intro member hmember
    refine bne_iff_ne.2 fun heq => ?_
    simp only [List.mem_cons, List.not_mem_nil, or_false] at hreserved
    rcases hreserved with rfl | rfl
    · exact (h member hmember).1 heq.symm
    · exact (h member hmember).2 heq.symm
  rw [hasObligations, List.any_eq_false]
  intro reserved hreserved
  rw [hnone reserved hreserved]
  exact Bool.false_ne_true

theorem decodeMap_members (metadata : DecisionMetadata) :
    decodeMap (.build metadata.members) = some (Json.present metadata.members) := by
  have hnodup := (Json.fst_present_sublist metadata.members).nodup metadata.names_nodup
  rw [Json.build, decodeMap, Json.keepLast_of_nodup hnodup]

theorem parseDecisionContext_profile (metadata : DecisionMetadata) :
    parseDecisionContext (some [("wasi_authz", .build metadata.members)]) = .ok metadata := by
  have hcontext : hasObligations [("wasi_authz", .build metadata.members)] = false :=
    not_hasObligations fun member hmember => by
      rw [List.mem_singleton.1 hmember]
      exact ⟨by simp, by simp⟩
  have hprofile : hasObligations (Json.present metadata.members) = false := by
    refine not_hasObligations fun member hmember => ?_
    have hname : member.1 ∈ DecisionMetadata.names :=
      (Json.fst_present_sublist metadata.members).subset (List.mem_map_of_mem hmember)
    have hnames : ∀ name ∈ DecisionMetadata.names, name ≠ "obligations" ∧ name ≠ "obligation" := by decide
    exact hnames _ hname
  have hread : DecisionMetadata.fromJson (.object (Json.present metadata.members)) = some metadata :=
    metadata.fromJson_members
  simp [parseDecisionContext, hcontext, decodeMap_members, hprofile, hread, okOr]

theorem decodeRawDecision_toJson (response : DecisionResponse) :
    decodeRawDecision response.toJson = some (response.decision,
      if response.metadata = DecisionMetadata.empty then none
      else some [("wasi_authz", .build response.metadata.members)]) := by
  have hmap : Json.nullable decodeMap (.build [("wasi_authz", some (.build response.metadata.members))]) =
      some (some [("wasi_authz", .build response.metadata.members)]) := rfl
  rw [decodeRawDecision, DecisionResponse.toJson]
  split <;> simp [Json.required, Json.optional, List.lookup_cons, Json.decodeBool, hmap]

/-- Written documents are read back, except for an authenticated subject whose type is `anonymous`. -/
theorem fromJsonSlice_toJsonVec_iff (text : Json.Text) :
    (∀ request : AccessRequest, text.RoundTrips request.toJson → ∀ bytes, request.toJsonVec text = .ok bytes →
      (AccessRequest.fromJsonSlice text bytes = .ok request ↔ request.subject.mistyped = false)) ∧
    (∀ response : DecisionResponse, text.RoundTrips response.toJson → ∀ bytes, response.toJsonVec text = .ok bytes →
      DecisionResponse.fromJsonSlice text bytes = .ok response) := by
  refine ⟨fun request htext bytes h => ?_, fun response htext bytes h => ?_⟩
  · rw [AccessRequest.fromJsonSlice, decodeBounded_encodeBounded htext h, AccessRequest.fromJson_toJson, okOr_eq_ok]
    cases request.subject.mistyped <;> simp
  · have hmetadata : parseDecisionContext (if response.metadata = DecisionMetadata.empty then none
        else some [("wasi_authz", .build response.metadata.members)]) = .ok response.metadata := by
      split
      next hempty =>
        rw [hempty]
        rfl
      next => exact parseDecisionContext_profile response.metadata
    rw [DecisionResponse.fromJsonSlice, decodeBounded_encodeBounded htext h, decodeRawDecision_toJson]
    exact bind_eq_ok.2 ⟨_, rfl, bind_eq_ok.2 ⟨_, hmetadata, rfl⟩⟩

/-- Alice, with two scopes, reads a document. -/
def aliceRequest (subjectType : EntityType) : AccessRequest where
  subject := .authenticated
    { subjectType := subjectType, id := ⟨"alice", by decide⟩, issuer := ⟨"idp", by decide⟩, tenantId := none
      scopes := [⟨"documents.read", by decide⟩, ⟨"documents.write", by decide⟩], attributes := .empty
      scopesNormal := by decide }
  action := ⟨⟨"document.read", by decide⟩, .empty⟩
  resource := ⟨⟨"document", by decide⟩, ⟨"report-1", by decide⟩, .empty⟩
  context := none

def aliceText (subjectType : EntityType) : Bytes := utf8Bytes (aliceRequest subjectType).toJson.compact

theorem toJsonVec_aliceRequest {subjectType : EntityType} (h : (aliceText subjectType).length ≤ maxDocumentBytes) :
    (aliceRequest subjectType).toJsonVec (.single (aliceRequest subjectType).toJson (aliceText subjectType)) =
      .ok (aliceText subjectType) := by
  refine bind_eq_ok.2 ⟨aliceText subjectType, okOr_eq_ok.2 (Json.Text.toVec_single _ _), ?_⟩
  rw [if_neg (Nat.not_lt.2 h)]

/-- The text of a request with scopes is read back. -/
theorem scoped_request_read_back : ∃ (text : Json.Text) (bytes : Bytes),
    text.RoundTrips (aliceRequest ⟨"user", by decide⟩).toJson ∧
      (aliceRequest ⟨"user", by decide⟩).toJsonVec text = .ok bytes ∧
        AccessRequest.fromJsonSlice text bytes = .ok (aliceRequest ⟨"user", by decide⟩) := by
  have htext := Json.Text.single_roundTrips (aliceRequest ⟨"user", by decide⟩).toJson
    (aliceRequest ⟨"user", by decide⟩).toJson (aliceText ⟨"user", by decide⟩)
  have hlength : (aliceText ⟨"user", by decide⟩).length ≤ maxDocumentBytes := by decide +kernel
  have hbytes := toJsonVec_aliceRequest hlength
  exact ⟨_, _, htext, hbytes, ((fromJsonSlice_toJsonVec_iff _).1 _ htext _ hbytes).2 rfl⟩

/-- The constructors accept an authenticated subject of type `anonymous`; its request is written and refused. -/
theorem exists_request_refused : ∃ (text : Json.Text) (bytes : Bytes),
    text.RoundTrips (aliceRequest ⟨"anonymous", by decide⟩).toJson ∧
      (aliceRequest ⟨"anonymous", by decide⟩).toJsonVec text = .ok bytes ∧
        AccessRequest.fromJsonSlice text bytes = .error .invalidJson := by
  have htext := Json.Text.single_roundTrips (aliceRequest ⟨"anonymous", by decide⟩).toJson
    (aliceRequest ⟨"anonymous", by decide⟩).toJson (aliceText ⟨"anonymous", by decide⟩)
  have hlength : (aliceText ⟨"anonymous", by decide⟩).length ≤ maxDocumentBytes := by decide +kernel
  have hbytes := toJsonVec_aliceRequest hlength
  refine ⟨_, _, htext, hbytes, ?_⟩
  rw [AccessRequest.fromJsonSlice, decodeBounded_encodeBounded htext hbytes, AccessRequest.fromJson_toJson]
  rfl

end WasiAuth.Contract
