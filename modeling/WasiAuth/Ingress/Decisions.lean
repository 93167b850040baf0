import WasiAuth.Base.Policy
import WasiAuth.Identity.Tokens
import WasiAuth.Identity.Values

/-! # The native authorization check

The answer is spread over the tenant check of the request, the permission an administrator is given for it, the
entities it is turned into and the policy. Under the default policy it is an allow for an administrator with a second
factor, and for a member whose permissions have the action and whose tenant is the one asked about.

Cedar is `Base.Policy`. The policy and schema are here as their parsers read them, and no entity has parents: the
default bundle has no trusted entities and its policy does not ask for ancestors. Base64 is a parameter.
-/

namespace WasiAuth

open Relational

/-! ## Requests -/

/-- authorization.rs:22 -/
inductive AuthorizationRequestError
  | invalidName | invalidResourceId | tenantMismatch | tooManyAttributes | invalidAttribute
deriving DecidableEq

/-- The bytes of a name; a character that is not ASCII has others. -/
def isNameByte (c : Char) : Bool := c.isAlphanum || c == '.' || c == '_' || c == '-' || c == ':'

/-- authorization.rs:480 -/
def validateName (value : String) : Except AuthorizationRequestError Unit :=
  if value = "" ∨ 128 < value.utf8ByteSize ∨ !value.toList.all isNameByte then .error .invalidName else .ok ()

/-- `ActionName` and `ResourceType`. -/
structure Name where
  value : String
  valid : validateName value = .ok ()
deriving DecidableEq

/-- authorization.rs:43 -/
abbrev ActionName := Name
/-- authorization.rs:68 -/
abbrev ResourceType := Name

def Name.new (value : String) : Except AuthorizationRequestError Name :=
  match h : validateName value with
  | .ok () => .ok ⟨value, h⟩
  | .error e => .error e

def validResourceId (id : String) : Bool :=
  decide (id ≠ "") && decide (id.utf8ByteSize ≤ 512) && !id.toList.any isControl

/-- authorization.rs:91 -/
structure Resource where
  resourceType : ResourceType
  id : String
  organizationId : Option OrganizationId
  idValid : validResourceId id = true

/-- authorization.rs:104 -/
def Resource.new (resourceType : ResourceType) (id : String) (organizationId : Option OrganizationId) :
    Except AuthorizationRequestError Resource :=
  if h : validResourceId id = true then .ok ⟨resourceType, id, organizationId, h⟩ else .error .invalidResourceId

/-- authorization.rs:145 -/
inductive ConsistencyRequirement
  | minimizeLatency | fullyConsistent
  | atLeastAsFresh (token : String)

/-- authorization.rs:160 -/
structure AccessRequest where
  context : VerifiedAuthContext
  action : ActionName
  resource : Resource
  consistency : ConsistencyRequirement
  attributes : List (String × String)
  authorization : Option AuthorizationSnapshot

namespace AccessRequest

/-- authorization.rs:180 -/
def new (context : VerifiedAuthContext) (action : ActionName) (resource : Resource) :
    Except AuthorizationRequestError AccessRequest :=
  if context.principal.systemAdministrator = false ∧ resource.organizationId ≠ context.organizationId then
    .error .tenantMismatch
  else .ok ⟨context, action, resource, .minimizeLatency, [], none⟩

/-- authorization.rs:202 -/
def withAuthorizationSnapshot (request : AccessRequest) (snapshot : AuthorizationSnapshot) : AccessRequest :=
  { request with authorization := some snapshot }

/-- authorization.rs:220 -/
def withAttribute (request : AccessRequest) (name value : String) : Except AuthorizationRequestError AccessRequest :=
  if 64 ≤ request.attributes.length then .error .tooManyAttributes
  else do
    (validateName name).mapError fun _ => .invalidAttribute
    if 2048 < value.utf8ByteSize ∨ value.toList.any isControl then .error .invalidAttribute
    else
      .ok { request with attributes := request.attributes.filter (fun a => decide (a.1 ≠ name)) ++ [(name, value)] }

end AccessRequest

/-! ## Cedar -/

/-- cedar.rs:33 -/
inductive CedarError
  | invalidEntity | invalidIdentifier | invalidRequest | indeterminate | unsupportedConsistency
deriving DecidableEq

/-- authorization.rs:288 -/
structure Decision where
  allowed : Bool
  reason : String
  policyRevision : PolicyRevision
  consistencyToken : Option String

/-- cedar.rs:65 -/
structure CedarProvider where
  policies : List Policy.Rule
  schema : Option Policy.Schema
  trustedEntities : List Policy.Entity
  policyRevision : PolicyRevision

def reservedIdents : List String := ["true", "false", "if", "then", "else", "in", "is", "like", "has", "__cedar"]

/-- An identifier of Cedar. -/
def isIdent (ident : List Char) : Bool :=
  ident.head?.any (fun c => c.isAlpha || c == '_') && ident.all (fun c => c.isAlphanum || c == '_') &&
    !reservedIdents.contains (String.ofList ident)

/-- `EntityTypeName::from_str`: identifiers separated by double colons. -/
def isEntityTypeName (name : String) : Bool :=
  let parts := name.toList.splitOn ':'
  parts.zipIdx.all fun (part, i) => if i % 2 = 0 then isIdent part else part.isEmpty && decide (i + 1 < parts.length)

/-- cedar.rs:296 -/
def uid (entityType id : String) : Except CedarError Policy.Uid :=
  if isEntityTypeName entityType then .ok ⟨entityType, id⟩ else .error .invalidIdentifier

/-- `canonical_principal_id`; `base64` is `URL_SAFE_NO_PAD.encode`. -/
def canonicalPrincipalId (base64 : Bytes → String) (principal : Principal) : String :=
  "v1_" ++ base64 (utf8Bytes principal.issuer ++ [0] ++ utf8Bytes principal.userId.value)

def AuthenticationAssurance.text : AuthenticationAssurance → String
  | .aal1 => "aal1"
  | .aal2 => "aal2"

def organizationAttribute (organizationId : Option OrganizationId) : Policy.Record :=
  organizationId.toList.map fun id => ("wasi_organization_id", .string id.value)

def principalAttributes (request : AccessRequest) : Policy.Record :=
  [("wasi_issuer", .string request.context.principal.issuer),
    ("wasi_assurance", .string request.context.assurance.text),
    ("wasi_system_administrator", .bool request.context.principal.systemAdministrator),
    ("wasi_permissions", .set ((request.authorization.map AuthorizationSnapshot.permissions).getD []))] ++
    organizationAttribute request.context.organizationId

def resourceAttributes (request : AccessRequest) : Policy.Record :=
  organizationAttribute request.resource.organizationId

/-- `request_context_json`; the tenant replaces an attribute of its name. -/
def requestContext (request : AccessRequest) : Policy.Record :=
  match request.context.organizationId with
  | none => request.attributes.map fun (name, value) => (name, .string value)
  | some organizationId =>
    (request.attributes.filter fun a => decide (a.1 ≠ "wasi_organization_id")).map
      (fun (name, value) => (name, .string value)) ++ organizationAttribute (some organizationId)

namespace CedarProvider

variable (provider : CedarProvider)

/-- cedar.rs:194 -/
def entities (request : AccessRequest) (principal resource : Policy.Uid) : Except CedarError (List Policy.Entity) :=
  let dynamic : List Policy.Entity := [⟨principal, principalAttributes request⟩, ⟨resource, resourceAttributes request⟩]
  if provider.schema.all fun schema => dynamic.all schema.entityConforms then
    .ok (dynamic ++ provider.trustedEntities.filter fun e => dynamic.all fun d => decide (d.uid ≠ e.uid))
  else .error .invalidEntity

/-- cedar.rs:160 -/
def checkSync (base64 : Bytes → String) (request : AccessRequest) : Except CedarError Decision :=
  match request.consistency with
  | .atLeastAsFresh _ => .error .unsupportedConsistency
  | _ => do
    let principal ← uid "User" (canonicalPrincipalId base64 request.context.principal)
    let action ← uid "Action" request.action.value
    let resource ← uid request.resource.resourceType.value request.resource.id
    let entities ← provider.entities request principal resource
    let cedarRequest : Policy.Request := ⟨principal, action, resource, requestContext request⟩
    if provider.schema.all fun schema => schema.contextConforms action (requestContext request) then
      if provider.schema.all fun schema => schema.requestConforms cedarRequest then
        let response := Policy.isAuthorized cedarRequest entities provider.policies
        if response.errors ≠ [] then .error .indeterminate
        else
          .ok ⟨response.allowed, if response.allowed then "cedar.allow" else "cedar.deny",
            provider.policyRevision, none⟩
      else .error .invalidRequest
    else .error .invalidEntity

end CedarProvider

/-! ## The default bundle -/

/-- `principal.wasi_system_administrator && principal.wasi_assurance == "aal2"`. -/
def administratorClause : Policy.Expr :=
  .and (.attr .principal "wasi_system_administrator") (.eq (.attr .principal "wasi_assurance") (.string "aal2"))

def memberClause : Policy.Expr :=
  .and (.not (.attr .principal "wasi_system_administrator"))
    (.and (.has .principal "wasi_organization_id")
      (.and (.has .resource "wasi_organization_id")
        (.eq (.attr .principal "wasi_organization_id") (.attr .resource "wasi_organization_id"))))

/-- cedar/default_application.cedar -/
def defaultApplicationPolicy : Policy.Rule where
  effect := .permit
  principal := .is "User"
  action := .eq ⟨"Action", "authorization.check"⟩
  resource := .is "ApplicationResource"
  condition := .and (.contains (.attr .principal "wasi_permissions") (.attr .context "requested_action"))
    (.or administratorClause memberClause)

/-- cedar/default_application_schema.json -/
def defaultApplicationSchema : Policy.Schema where
  entityTypes :=
    [("User", [⟨"wasi_issuer", .string, true⟩, ⟨"wasi_assurance", .string, true⟩,
      ⟨"wasi_system_administrator", .boolean, true⟩, ⟨"wasi_permissions", .set, true⟩,
      ⟨"wasi_organization_id", .string, false⟩]),
    ("ApplicationResource", [⟨"wasi_organization_id", .string, false⟩])]
  actions :=
    [⟨"authorization.check", ["User"], ["ApplicationResource"],
      [⟨"requested_action", .string, true⟩, ⟨"requested_resource_type", .string, true⟩,
        ⟨"resource_owner_id", .string, false⟩, ⟨"resource_state", .string, false⟩,
        ⟨"wasi_organization_id", .string, false⟩]⟩]

/-- The provider of `load_cedar` when no bundle is active. -/
def defaultProvider : CedarProvider :=
  ⟨[defaultApplicationPolicy], some defaultApplicationSchema, [], ⟨"embedded-v1", by decide +kernel⟩⟩

/-! ## The check -/

inductive StatusCode
  | badRequest | forbidden | internalServerError | serviceUnavailable
deriving DecidableEq

/-- main.rs:546 -/
structure AuthorizationCheckInput where
  action : String
  resourceType : String
  resourceId : String
  organizationId : Option String

/-- main.rs:560 -/
structure AuthorizationCheckOutput where
  allowed : Bool
  reason : String
  policyRevision : String
  consistencyToken : Option String
  resourceRevision : Option UInt64

def applicationResource : ResourceType := ⟨"ApplicationResource", by decide +kernel⟩

def authorizationCheck : ActionName := ⟨"authorization.check", by decide +kernel⟩

/-- `map_err` with one status for every error. -/
def orStatus {ε α : Type} (status : StatusCode) (x : Except ε α) : Except StatusCode α := x.mapError fun _ => status

/-- An administrator with a second factor. -/
def VerifiedAuthContext.elevated (auth : VerifiedAuthContext) : Bool :=
  auth.principal.systemAdministrator && decide (auth.assurance = .aal2)

/-- main.rs:705-743: the request the check is turned into. -/
def accessRequest (input : AuthorizationCheckInput) (context : VerifiedRequestContext) :
    Except StatusCode AccessRequest := do
  let requestedAction ← orStatus .badRequest (Name.new input.action)
  let requestedResourceType ← orStatus .badRequest (Name.new input.resourceType)
  let requestedOrganization ← orStatus .badRequest (Identifier.newOption input.organizationId)
  let resource ← orStatus .badRequest (Resource.new applicationResource
    (requestedResourceType.value ++ ":" ++ input.resourceId) (requestedOrganization.or context.auth.organizationId))
  let permissions := context.authorization.permissions ++
    if context.auth.elevated then [requestedAction.value] else []
  let authorization ← orStatus .internalServerError (AuthorizationSnapshot.new permissions [] none none)
  let request ← orStatus .forbidden (AccessRequest.new context.auth authorizationCheck resource)
  let request ← orStatus .badRequest
    ((request.withAuthorizationSnapshot authorization).withAttribute "requested_action" requestedAction.value)
  orStatus .badRequest (request.withAttribute "requested_resource_type" requestedResourceType.value)

/-- main.rs:700 -/
def evaluateAuthorization (base64 : Bytes → String) (provider : CedarProvider) (input : AuthorizationCheckInput)
    (context : VerifiedRequestContext) : Except StatusCode AuthorizationCheckOutput := do
  let request ← accessRequest input context
  let decision ← orStatus .serviceUnavailable (provider.checkSync base64 request)
  pure ⟨decision.allowed, decision.reason, decision.policyRevision.value, decision.consistencyToken, none⟩

/-! ## Names -/

theorem validateName_eq_ok {value : String} : validateName value = .ok () ↔
    value ≠ "" ∧ value.utf8ByteSize ≤ 128 ∧ ∀ c ∈ value.toList, isNameByte c = true := by
  rw [validateName, ite_eq_right_iff, imp_iff_not nofun]
  simp [not_or]

theorem bounds_of_isNameByte {c : Char} (h : isNameByte c = true) : 0x21 ≤ c.toNat ∧ c.toNat ≤ 0x7e := by
  rcases Bool.or_eq_true_iff.1 h with h | h
  · have hbounds := bounds_of_isKidChar h
    omega
  · rw [beq_iff_eq.1 h]
    decide

theorem any_isControl_of_validateName {value : String} (h : validateName value = .ok ()) :
    value.toList.any isControl = false := by
  obtain ⟨-, -, hchars⟩ := validateName_eq_ok.1 h
  exact List.any_eq_false.2 fun c hc => by simp [isControl_of_bounds (bounds_of_isNameByte (hchars c hc))]

theorem validateIdentifier_of_validateName {value : String} (h : validateName value = .ok ()) :
    validateIdentifier value = .ok () := by
  obtain ⟨hne, hsize, hchars⟩ := validateName_eq_ok.1 h
  have hplain : (value.toList.any fun c => isControl c || isWhitespace c) = false :=
    List.any_eq_false.2 fun c hc => by
      have hbounds := bounds_of_isNameByte (hchars c hc)
      simp [isControl_of_bounds hbounds, isWhitespace_of_bounds hbounds]
  rw [validateIdentifier, if_neg hne, if_neg (by omega), hplain]
  rfl

theorem Name.new_of_valid {value : String} (h : validateName value = .ok ()) : Name.new value = .ok ⟨value, h⟩ := by
  unfold Name.new
  split
  · rfl
  next e he =>
    rw [h] at he
    cases he

theorem Name.value_of_new {value : String} {name : Name} (h : Name.new value = .ok name) : name.value = value := by
  unfold Name.new at h
  split at h <;> cases h
  rfl

theorem AccessRequest.withAttribute_eq {request : AccessRequest} {name value : String}
    (hlength : request.attributes.length < 64) (hname : validateName name = .ok ())
    (hvalue : validateName value = .ok ()) : request.withAttribute name value = .ok { request with
      attributes := request.attributes.filter (fun a => decide (a.1 ≠ name)) ++ [(name, value)] } := by
  have hsize := (validateName_eq_ok.1 hvalue).2.1
  rw [withAttribute, if_neg (by omega), hname]
  simp only [Except.mapError, ok_bind]
  rw [if_neg]
  rw [any_isControl_of_validateName hvalue]
  simp
  omega

/-! ## The request of a check -/

/-- The input passes the validators. -/
structure AuthorizationCheckInput.Valid (input : AuthorizationCheckInput) : Prop where
  action : validateName input.action = .ok ()
  resourceType : validateName input.resourceType = .ok ()
  organizationId : ∀ id ∈ input.organizationId, validateIdentifier id = .ok ()
  resource : validResourceId (input.resourceType ++ ":" ++ input.resourceId) = true

/-- The check is about the context's own tenant, where it names one. -/
def AuthorizationCheckInput.OwnTenant (input : AuthorizationCheckInput) (auth : VerifiedAuthContext) : Prop :=
  ∀ id ∈ input.organizationId, auth.organizationId.map Identifier.value = some id

/-- The request is the one `accessRequest` builds. -/
structure AccessRequest.Asks (request : AccessRequest) (input : AuthorizationCheckInput)
    (context : VerifiedRequestContext) : Prop where
  auth : request.context = context.auth
  action : request.action = authorizationCheck
  resourceType : request.resource.resourceType = applicationResource
  organizationId : request.resource.organizationId.map Identifier.value =
    input.organizationId.or (context.auth.organizationId.map Identifier.value)
  consistency : request.consistency = .minimizeLatency
  attributes : request.attributes =
    [("requested_action", input.action), ("requested_resource_type", input.resourceType)]
  permissions : ∃ snapshot, request.authorization = some snapshot ∧ ∀ permission, permission ∈ snapshot.permissions ↔
    permission ∈ context.authorization.permissions ∨ context.auth.elevated = true ∧ permission = input.action

section Requests
variable {input : AuthorizationCheckInput} {context : VerifiedRequestContext} {request : AccessRequest}

theorem valid_of_newOption {value : Option String} {id : Option Identifier}
    (h : Identifier.newOption value = .ok id) : ∀ v ∈ value, validateIdentifier v = .ok () := by
  intro v hv
  rw [← Identifier.value_of_newOption h] at hv
  obtain ⟨id', -, rfl⟩ := Option.map_eq_some_iff.1 hv
  exact id'.valid

theorem exists_newOption {value : Option String} (h : ∀ v ∈ value, validateIdentifier v = .ok ()) :
    ∃ id, Identifier.newOption value = .ok id := by
  cases value with
  | none => exact ⟨none, rfl⟩
  | some v => exact ⟨some ⟨v, h v rfl⟩, Identifier.newOption_value (some ⟨v, h v rfl⟩)⟩

theorem ownTenant_iff {requested : Option OrganizationId}
    (hrequested : requested.map Identifier.value = input.organizationId) :
    requested.or context.auth.organizationId = context.auth.organizationId ↔ input.OwnTenant context.auth := by
  rw [AuthorizationCheckInput.OwnTenant, ← hrequested]
  cases requested with
  | none => simp
  | some id =>
    simp only [Option.some_or, Option.map_some, Option.mem_some, forall_eq']
    rw [← Option.map_some, (Option.map_injective Identifier.value_injective).eq_iff, eq_comm]

theorem valid_of_accessRequest (h : accessRequest input context = .ok request) :
    input.Valid ∧ (context.auth.principal.systemAdministrator = false → input.OwnTenant context.auth) := by
  simp only [accessRequest, orStatus, bind_eq_ok, mapError_eq_ok] at h
  obtain ⟨action, haction, resourceType, htype, requested, hrequested, resource, hresource, _, -, _, htenant, -⟩ := h
  unfold Resource.new at hresource
  split at hresource
  next hid =>
    cases hresource
    refine ⟨⟨Name.value_of_new haction ▸ action.valid, Name.value_of_new htype ▸ resourceType.valid,
      valid_of_newOption hrequested, Name.value_of_new htype ▸ hid⟩, fun hmember => ?_⟩
    unfold AccessRequest.new at htenant
    split at htenant
    · cases htenant
    next hsame =>
      exact (ownTenant_iff (Identifier.value_of_newOption hrequested)).1
        (not_not.1 fun hother => hsame ⟨hmember, hother⟩)
  · cases hresource

theorem accessRequest_of_valid (hvalid : input.Valid)
    (htenant : context.auth.principal.systemAdministrator = false → input.OwnTenant context.auth) :
    ∃ request, accessRequest input context = .ok request ∧ request.Asks input context := by
  obtain ⟨requested, hrequested⟩ := exists_newOption hvalid.organizationId
  have hvalue := Identifier.value_of_newOption hrequested
  have hpermissions : (context.authorization.permissions ++
      if context.auth.elevated then [input.action] else []).forM validateIdentifier = .ok () := by
    refine forM_eq_ok.2 fun permission hp => ?_
    rcases List.mem_append.1 hp with hp | hp
    · exact forM_eq_ok.1 context.authorization.permissionsValid permission hp
    · split at hp
      · rw [List.mem_singleton.1 hp]
        exact validateIdentifier_of_validateName hvalid.action
      · cases hp
  obtain ⟨snapshot, hsnapshot⟩ := AuthorizationSnapshot.exists_new [] none none hpermissions rfl
  obtain ⟨hset, -⟩ := AuthorizationSnapshot.new_eq_ok hsnapshot
  have hresource : Resource.new applicationResource (input.resourceType ++ ":" ++ input.resourceId)
      (requested.or context.auth.organizationId) = .ok ⟨_, _, _, hvalid.resource⟩ := dif_pos hvalid.resource
  have hnew : AccessRequest.new context.auth authorizationCheck ⟨applicationResource,
      input.resourceType ++ ":" ++ input.resourceId, requested.or context.auth.organizationId, hvalid.resource⟩ =
        .ok ⟨context.auth, authorizationCheck, _, .minimizeLatency, [], none⟩ :=
    if_neg fun ⟨hmember, hother⟩ => hother ((ownTenant_iff hvalue).2 (htenant hmember))
  refine ⟨⟨context.auth, authorizationCheck, ⟨applicationResource, input.resourceType ++ ":" ++ input.resourceId,
    requested.or context.auth.organizationId, hvalid.resource⟩, .minimizeLatency,
    [("requested_action", input.action), ("requested_resource_type", input.resourceType)], some snapshot⟩, ?_, ?_⟩
  · simp only [accessRequest, orStatus, Name.new_of_valid hvalid.action, Name.new_of_valid hvalid.resourceType,
      hrequested, hresource, hsnapshot, hnew, Except.mapError, ok_bind]
    rw [AccessRequest.withAttribute_eq (by simp [AccessRequest.withAuthorizationSnapshot]) (by decide +kernel)
      hvalid.action, ok_bind, AccessRequest.withAttribute_eq (by simp [AccessRequest.withAuthorizationSnapshot])
      (by decide +kernel) hvalid.resourceType]
    simp [AccessRequest.withAuthorizationSnapshot]
  · refine ⟨rfl, rfl, rfl, ?_, rfl, rfl, snapshot, rfl, fun permission => ?_⟩
    · rw [← hvalue]
      cases requested <;> rfl
    · rw [hset, mem_btreeSet, List.mem_append]
      cases context.auth.elevated <;> simp

end Requests

/-! ## The default policy -/

section Policy
variable {request : AccessRequest}

theorem lookup_organizationAttribute (organizationId : Option OrganizationId) :
    (organizationAttribute organizationId).lookup "wasi_organization_id" =
      organizationId.map fun id => .string id.value := by
  cases organizationId <;> simp [organizationAttribute]

theorem lookup_principalAttributes : (principalAttributes request).lookup "wasi_organization_id" =
    request.context.organizationId.map fun id => .string id.value := by
  rw [← lookup_organizationAttribute]
  simp [principalAttributes, Policy.lookup_cons_ne]

/-- What the condition of the default policy says of a request. -/
def AccessRequest.permitted (request : AccessRequest) (requestedAction : String) : Bool :=
  decide (requestedAction ∈ (request.authorization.map AuthorizationSnapshot.permissions).getD []) &&
    (request.context.principal.systemAdministrator && decide (request.context.assurance.text = "aal2") ||
      !request.context.principal.systemAdministrator && (request.context.organizationId.isSome &&
        (request.resource.organizationId.isSome &&
          decide (request.context.organizationId.map Identifier.value =
            request.resource.organizationId.map Identifier.value))))

variable {env : Policy.Request} {entities : List Policy.Entity} {requestedAction : String}

theorem tests_administratorClause
    (hprincipal : Policy.Var.principal.attributes env entities = some (principalAttributes request)) :
    administratorClause.Tests env entities
      (request.context.principal.systemAdministrator && decide (request.context.assurance.text = "aal2")) :=
  .and (.attr hprincipal (by simp [principalAttributes, Policy.lookup_cons_ne]))
    fun _ => .eq (Policy.Expr.eval_attr hprincipal (by simp [principalAttributes, Policy.lookup_cons_ne])) rfl

theorem tests_memberClause
    (hprincipal : Policy.Var.principal.attributes env entities = some (principalAttributes request))
    (hresource : Policy.Var.resource.attributes env entities = some (resourceAttributes request)) :
    memberClause.Tests env entities
      (!request.context.principal.systemAdministrator && (request.context.organizationId.isSome &&
        (request.resource.organizationId.isSome &&
          decide (request.context.organizationId.map Identifier.value =
            request.resource.organizationId.map Identifier.value)))) := by
  have hhas := Policy.Expr.Tests.has hprincipal "wasi_organization_id"
  have hhasResource := Policy.Expr.Tests.has hresource "wasi_organization_id"
  rw [lookup_principalAttributes, Option.isSome_map] at hhas
  rw [resourceAttributes, lookup_organizationAttribute, Option.isSome_map] at hhasResource
  refine .and (.not (.attr hprincipal (by simp [principalAttributes, Policy.lookup_cons_ne]))) fun _ =>
    .and hhas fun hsome => .and hhasResource fun hsomeResource => ?_
  -- both tenants are there, so their attributes can be read
  obtain ⟨id, hid⟩ := Option.isSome_iff_exists.1 hsome
  obtain ⟨id', hid'⟩ := Option.isSome_iff_exists.1 hsomeResource
  have htest := Policy.Expr.Tests.eq
    (Policy.Expr.eval_attr hprincipal (by rw [lookup_principalAttributes, hid]; rfl))
    (Policy.Expr.eval_attr hresource (by rw [resourceAttributes, lookup_organizationAttribute, hid']; rfl))
  simpa [hid, hid'] using htest

theorem tests_condition
    (hprincipal : Policy.Var.principal.attributes env entities = some (principalAttributes request))
    (hresource : Policy.Var.resource.attributes env entities = some (resourceAttributes request))
    (hcontext : env.context.lookup "requested_action" = some (.string requestedAction)) :
    defaultApplicationPolicy.condition.Tests env entities (request.permitted requestedAction) :=
  .and (.contains (Policy.Expr.eval_attr hprincipal (by simp [principalAttributes, Policy.lookup_cons_ne]))
      (Policy.Expr.eval_attr rfl hcontext))
    fun _ => .or (tests_administratorClause hprincipal) fun _ => tests_memberClause hprincipal hresource

end Policy

section Decision
variable {input : AuthorizationCheckInput} {context : VerifiedRequestContext} {request : AccessRequest}

theorem requestContext_eq (h : request.Asks input context) : requestContext request =
    [("requested_action", .string input.action), ("requested_resource_type", .string input.resourceType)] ++
      organizationAttribute context.auth.organizationId := by
  rw [requestContext, h.auth, h.attributes]
  cases context.auth.organizationId <;> simp [organizationAttribute]

theorem entityConforms_principal (id : String) :
    defaultApplicationSchema.entityConforms ⟨⟨"User", id⟩, principalAttributes request⟩ = true := by
  simp only [Policy.Schema.entityConforms, defaultApplicationSchema, principalAttributes]
  cases request.context.organizationId <;>
    simp [Policy.lookup_cons_ne, organizationAttribute, Policy.Record.conforms, Policy.Value.hasType]

theorem entityConforms_resource (id : String) :
    defaultApplicationSchema.entityConforms ⟨⟨"ApplicationResource", id⟩, resourceAttributes request⟩ = true := by
  simp only [Policy.Schema.entityConforms, defaultApplicationSchema, resourceAttributes]
  cases request.resource.organizationId <;>
    simp [Policy.lookup_cons_ne, organizationAttribute, Policy.Record.conforms, Policy.Value.hasType]

theorem requestConforms (h : request.Asks input context) (principal resource : String) :
    defaultApplicationSchema.contextConforms ⟨"Action", "authorization.check"⟩ (requestContext request) = true ∧
      defaultApplicationSchema.requestConforms ⟨⟨"User", principal⟩, ⟨"Action", "authorization.check"⟩,
        ⟨"ApplicationResource", resource⟩, requestContext request⟩ = true := by
  simp only [Policy.Schema.contextConforms, Policy.Schema.requestConforms, Policy.Schema.actionType,
    defaultApplicationSchema, requestContext_eq h]
  cases context.auth.organizationId <;>
    simp [Policy.lookup_cons_ne, organizationAttribute, Policy.Record.conforms, Policy.Value.hasType]

theorem uid_eq_ok {type : String} (htype : isEntityTypeName type = true) (id : String) : uid type id = .ok ⟨type, id⟩ :=
  if_pos htype

theorem entities_default (principal resource : String) :
    defaultProvider.entities request ⟨"User", principal⟩ ⟨"ApplicationResource", resource⟩ =
      .ok [⟨⟨"User", principal⟩, principalAttributes request⟩,
        ⟨⟨"ApplicationResource", resource⟩, resourceAttributes request⟩] := by
  simp [CedarProvider.entities, defaultProvider, entityConforms_principal, entityConforms_resource]

theorem checkSync_default (base64 : Bytes → String) (h : request.Asks input context) :
    ∃ decision, defaultProvider.checkSync base64 request = .ok decision ∧
      decision.allowed = request.permitted input.action := by
  obtain ⟨hcontext, hrequest⟩ := requestConforms h (canonicalPrincipalId base64 request.context.principal)
    request.resource.id
  have hrule : defaultApplicationPolicy.eval
      ⟨⟨"User", canonicalPrincipalId base64 request.context.principal⟩, ⟨"Action", "authorization.check"⟩,
        ⟨"ApplicationResource", request.resource.id⟩, requestContext request⟩
      [⟨⟨"User", canonicalPrincipalId base64 request.context.principal⟩, principalAttributes request⟩,
        ⟨⟨"ApplicationResource", request.resource.id⟩, resourceAttributes request⟩] =
      .ok (request.permitted input.action) := by
    refine Policy.Rule.eval_of_tests rfl (by simp [defaultApplicationPolicy, Policy.Scope.covers]) rfl
      (tests_condition ?_ ?_ ?_)
    · simp [Policy.Var.attributes]
    · simp [Policy.Var.attributes]
    · rw [requestContext_eq h]
      rfl
  refine ⟨⟨request.permitted input.action, if request.permitted input.action then "cedar.allow" else "cedar.deny",
    defaultProvider.policyRevision, none⟩, ?_, rfl⟩
  rw [CedarProvider.checkSync, h.consistency, h.action, h.resourceType]
  simp only [authorizationCheck, applicationResource, uid_eq_ok (show isEntityTypeName "User" = true by decide +kernel),
    uid_eq_ok (show isEntityTypeName "Action" = true by decide +kernel),
    uid_eq_ok (show isEntityTypeName "ApplicationResource" = true by decide +kernel), ok_bind, entities_default]
  rw [if_pos (by rw [defaultProvider, Option.all_some, hcontext]),
    if_pos (by rw [defaultProvider, Option.all_some, hrequest]), defaultProvider,
    Policy.isAuthorized_permit rfl hrule]
  rfl

/-- The tenants of the principal and the resource are one exactly when the check names no other. -/
theorem same_tenant_iff (h : request.Asks input context) :
    ((context.auth.organizationId.isSome = true ∧ request.resource.organizationId.isSome = true ∧
      context.auth.organizationId.map Identifier.value = request.resource.organizationId.map Identifier.value)) ↔
      ∃ organizationId, context.auth.organizationId = some organizationId ∧
        (input.organizationId = none ∨ input.organizationId = some organizationId.value) := by
  rw [← Option.isSome_map (f := Identifier.value) (x := request.resource.organizationId), h.organizationId]
  cases context.auth.organizationId with
  | none => simp
  | some organizationId => cases input.organizationId <;> simp [eq_comm]

theorem permitted_iff (h : request.Asks input context) : request.permitted input.action = true ↔
    context.auth.principal.systemAdministrator = true ∧ context.auth.assurance = .aal2 ∨
      context.auth.principal.systemAdministrator = false ∧ input.action ∈ context.authorization.permissions ∧
        ∃ organizationId, context.auth.organizationId = some organizationId ∧
          (input.organizationId = none ∨ input.organizationId = some organizationId.value) := by
  obtain ⟨snapshot, hsnapshot, hpermissions⟩ := h.permissions
  have htext : context.auth.assurance.text = "aal2" ↔ context.auth.assurance = .aal2 := by
    cases context.auth.assurance <;> decide
  have helevated : context.auth.elevated = true ↔
      context.auth.principal.systemAdministrator = true ∧ context.auth.assurance = .aal2 := by
    simp [VerifiedAuthContext.elevated]
  rw [← same_tenant_iff h]
  simp only [AccessRequest.permitted, hsnapshot, h.auth, Option.map_some, Option.getD_some, Bool.and_eq_true,
    Bool.or_eq_true, Bool.not_eq_true', decide_eq_true_eq, hpermissions, helevated, htext, and_true]
  -- an administrator with a second factor was given the permission; a member needs their own
  cases context.auth.principal.systemAdministrator with
  | false => simp
  | true => simpa using Or.inr

/-- The native check answers allowed exactly for a valid input of an administrator with a second factor, or of a member
whose permissions have the action, about the tenant of their context. -/
theorem native_check_allows_iff (base64 : Bytes → String) (input : AuthorizationCheckInput)
    (context : VerifiedRequestContext) :
    (∃ output, evaluateAuthorization base64 defaultProvider input context = .ok output ∧ output.allowed = true) ↔
      input.Valid ∧
        (context.auth.principal.systemAdministrator = true ∧ context.auth.assurance = .aal2 ∨
          context.auth.principal.systemAdministrator = false ∧ input.action ∈ context.authorization.permissions ∧
            ∃ organizationId, context.auth.organizationId = some organizationId ∧
              (input.organizationId = none ∨ input.organizationId = some organizationId.value)) := by
  constructor
  · rintro ⟨output, houtput, hallowed⟩
    simp only [evaluateAuthorization, orStatus, bind_eq_ok, mapError_eq_ok] at houtput
    obtain ⟨request, hrequest, decision, hdecision, houtput⟩ := houtput
    cases houtput
    obtain ⟨hvalid, htenant⟩ := valid_of_accessRequest hrequest
    obtain ⟨request', hrequest', hasks⟩ := accessRequest_of_valid hvalid htenant
    cases hrequest.symm.trans hrequest'
    obtain ⟨decision', hdecision', hpermitted⟩ := checkSync_default base64 hasks
    cases hdecision.symm.trans hdecision'
    exact ⟨hvalid, (permitted_iff hasks).1 (hpermitted ▸ hallowed)⟩
  · rintro ⟨hvalid, hallowed⟩
    have htenant : context.auth.principal.systemAdministrator = false → input.OwnTenant context.auth := by
      intro hmember id hid
      rcases hallowed with ⟨hadministrator, -⟩ | ⟨-, -, organizationId, hown, hnone | hsome⟩
      · simp [hmember] at hadministrator
      · rw [hnone] at hid
        cases hid
      · rw [hsome] at hid
        cases hid
        rw [hown, Option.map_some]
    obtain ⟨request, hrequest, hasks⟩ := accessRequest_of_valid hvalid htenant
    obtain ⟨decision, hdecision, hpermitted⟩ := checkSync_default base64 hasks
    have houtput : evaluateAuthorization base64 defaultProvider input context = .ok ⟨decision.allowed, decision.reason,
        decision.policyRevision.value, decision.consistencyToken, none⟩ := by
      rw [evaluateAuthorization, hrequest, ok_bind, hdecision]
      rfl
    exact ⟨_, houtput, hpermitted.trans ((permitted_iff hasks).2 hallowed)⟩

end Decision

end WasiAuth
