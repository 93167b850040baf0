import WasiAuth.Base.Headers
import WasiAuth.Base.Json
import WasiAuth.Ingress.Boundary

/-! # Trusted metadata

The authentication context the HTTP middleware hands to the services behind it (`metadata/src/lib.rs`): how it is
built, how it is carried in one header, and how it is read. The types hold what their constructors check; a collection
is stored as its validator returns it, so that the validator leaves it as it is. Reading runs the constructors again on
the members of the JSON document (`WireContext`). Types lose their `V1`.
-/

namespace WasiAuth.Metadata

open Relational

/-- lib.rs:23 -/
def reservedAuthPrefix : String := "x-wasi-auth-"
/-- lib.rs:17 -/
def authContextHeader : String := "x-wasi-auth-context"
/-- lib.rs:19 -/
def authContextVersion : UInt8 := 1
/-- lib.rs:21 -/
def maxAuthContextEncodedLen : Nat := 8 * 1024
/-- lib.rs:24 -/
def maxIdentityValueLen : Nat := 512
/-- lib.rs:25 -/
def maxContextValueLen : Nat := 256
/-- lib.rs:26 -/
def maxSessionValueLen : Nat := 512
/-- lib.rs:27 -/
def maxCollectionItems : Nat := 64
/-- lib.rs:28 -/
def maxAudiences : Nat := 16
/-- lib.rs:29 -/
def maxScopeValueLen : Nat := 2048

/-- lib.rs:494 -/
inductive MetadataError where
  | invalidText (field : String)
  | invalidCollection (field : String)
  | invalidTimeRange
  | duplicateHeader (name : String)
  | missingHeader (name : String)
  | contextTooLarge
  | invalidEncoding
  | invalidSchema
  | unsupportedVersion (version : UInt8)
deriving DecidableEq, Repr

/-! ## Validators -/

/-- The check of `validate_text`. -/
def validText (value : String) (maximum : Nat) : Bool :=
  decide (value ≠ "") && decide (value.utf8ByteSize ≤ maximum) && decide (trim value = value) &&
    !value.toList.any isControl

/-- lib.rs:656 -/
def validateText (field value : String) (maximum : Nat) : Except MetadataError Unit :=
  if validText value maximum then .ok () else .error (.invalidText field)

/-- lib.rs:668 -/
def validateAsciiText (field value : String) (maximum : Nat) : Except MetadataError Unit := do
  validateText field value maximum
  if value.toList.all fun c => decide (c.toNat < 128) && !isAsciiWhitespace c then .ok ()
  else .error (.invalidText field)

/-- lib.rs:681 -/
def isToken (value : String) : Bool :=
  decide (value ≠ "") && decide (value.utf8ByteSize ≤ 128) &&
    value.toList.all fun c => c.isAlphanum || "-_.:/".toList.contains c

/-- lib.rs:622 -/
def validatedDeployment (serviceId : String) (audiences : List String) :
    Except MetadataError (String × List String) :=
  if isToken serviceId = false then .error (.invalidText "service_id")
  else if audiences = [] ∨ audiences.length > maxAudiences then .error (.invalidCollection "audiences")
  else do
    audiences.forM fun audience => validateAsciiText "audience" audience maxContextValueLen
    pure (serviceId, btreeSet audiences)

/-- lib.rs:643 -/
def validatedTokens (field : String) (values : List String) : Except MetadataError (List String) :=
  if values.length > maxCollectionItems ∨ values.any (fun value => !isToken value) then .error (.invalidCollection field)
  else .ok (btreeSet values)

/-- The scopes as `with_scopes` stores them. -/
def validatedScopes (scopes : List String) : Except MetadataError (List String) := do
  let scopes ← validatedTokens "scopes" scopes
  if (scopes.map String.utf8ByteSize).sum + (scopes.length - 1) > maxScopeValueLen then
    .error (.invalidCollection "scopes")
  else .ok scopes

theorem validatedTokens_stable {field : String} {values stored : List String}
    (h : validatedTokens field values = .ok stored) : validatedTokens field stored = .ok stored := by
  rw [validatedTokens] at h
  split at h
  · cases h
  next hvalid =>
    cases h
    obtain ⟨hlength, htokens⟩ := not_or.1 hvalid
    have hle := length_btreeSet_le values
    have hstored : ¬ ((btreeSet values).length > maxCollectionItems ∨
        (btreeSet values).any (fun value => !isToken value) = true) := by
      refine not_or.2 ⟨by omega, fun hany => htokens ?_⟩
      obtain ⟨value, hmem, htoken⟩ := List.any_eq_true.1 hany
      exact List.any_eq_true.2 ⟨value, mem_btreeSet.1 hmem, htoken⟩
    rw [validatedTokens, if_neg hstored, btreeSet_btreeSet]

theorem validatedScopes_stable {scopes stored : List String} (h : validatedScopes scopes = .ok stored) :
    validatedScopes stored = .ok stored := by
  obtain ⟨tokens, htokens, h⟩ := bind_eq_ok.1 h
  split at h
  · cases h
  next hlength =>
    cases h
    exact bind_eq_ok.2 ⟨stored, validatedTokens_stable htokens, if_neg hlength⟩

theorem validatedDeployment_stable {serviceId storedId : String} {audiences stored : List String}
    (h : validatedDeployment serviceId audiences = .ok (storedId, stored)) :
    validatedDeployment storedId stored = .ok (storedId, stored) := by
  rw [validatedDeployment] at h
  split at h
  · cases h
  next hservice =>
    split at h
    · cases h
    next hcount =>
      obtain ⟨_, haudiences, h⟩ := bind_eq_ok.1 h
      cases h
      obtain ⟨hne, hlength⟩ := not_or.1 hcount
      have hle := length_btreeSet_le audiences
      have hnonempty : btreeSet audiences ≠ [] := by
        obtain ⟨audience, hmem⟩ := List.exists_mem_of_ne_nil _ hne
        exact List.ne_nil_of_mem (mem_btreeSet.2 hmem)
      rw [validatedDeployment, if_neg hservice, if_neg (not_or.2 ⟨hnonempty, by omega⟩)]
      refine bind_eq_ok.2 ⟨(), forM_eq_ok.2 fun audience hmem => ?_, by rw [btreeSet_btreeSet]; rfl⟩
      exact forM_eq_ok.1 haudiences audience (mem_btreeSet.1 hmem)

/-! ## Contexts -/

/-- lib.rs:47 -/
structure Actor where
  issuer : String
  subject : String
  issuerValid : validText issuer maxIdentityValueLen = true
  subjectValid : validText subject maxIdentityValueLen = true
deriving DecidableEq

/-- lib.rs:68 -/
def Actor.new (issuer subject : String) : Except MetadataError Actor :=
  if hissuer : validText issuer maxIdentityValueLen = true then
    if hsubject : validText subject maxIdentityValueLen = true then .ok ⟨issuer, subject, hissuer, hsubject⟩
    else .error (.invalidText "actor.subject")
  else .error (.invalidText "actor.issuer")

/-- The check of `with_times` (lib.rs:253-256). -/
def validTimes (authTime expiresAt : Option UInt64) : Bool :=
  match authTime, expiresAt with
  | some auth, some expiry => decide (auth < expiry)
  | _, _ => true

/-- lib.rs:100 -/
structure Principal where
  issuer : String
  subject : String
  tenantId : Option String
  roles : List String
  scopes : List String
  acr : Option String
  amr : List String
  actor : Option Actor
  authTime : Option UInt64
  expiresAt : Option UInt64
  sessionId : Option String
  issuerValid : validText issuer maxIdentityValueLen = true
  subjectValid : validText subject maxIdentityValueLen = true
  tenantValid : tenantId.all (validText · maxIdentityValueLen) = true
  rolesStored : validatedTokens "roles" roles = .ok roles
  scopesStored : validatedScopes scopes = .ok scopes
  acrValid : acr.all (validText · maxContextValueLen) = true
  amrStored : validatedTokens "amr" amr = .ok amr
  timesValid : validTimes authTime expiresAt = true
  sessionValid : sessionId.all (validText · maxSessionValueLen) = true
deriving DecidableEq

theorem validatedTokens_nil (field : String) : validatedTokens field [] = .ok [] := rfl

theorem validatedScopes_nil : validatedScopes [] = .ok [] := rfl

/-- lib.rs:130 -/
def Principal.new (issuer subject : String) : Except MetadataError Principal :=
  if hissuer : validText issuer maxIdentityValueLen = true then
    if hsubject : validText subject maxIdentityValueLen = true then
      .ok ⟨issuer, subject, none, [], [], none, [], none, none, none, none, hissuer, hsubject, rfl,
        validatedTokens_nil "roles", validatedScopes_nil, rfl, validatedTokens_nil "amr", rfl, rfl⟩
    else .error (.invalidText "subject")
  else .error (.invalidText "issuer")

/-- lib.rs:158 -/
def Principal.withTenantId (p : Principal) (tenantId : Option String) : Except MetadataError Principal :=
  if h : tenantId.all (validText · maxIdentityValueLen) = true then .ok { p with tenantId, tenantValid := h }
  else .error (.invalidText "tenant_id")

/-- lib.rs:177 -/
def Principal.withRoles (p : Principal) (roles : List String) : Except MetadataError Principal := do
  let ⟨roles, h⟩ ← attachOk (validatedTokens "roles" roles)
  pure { p with roles, rolesStored := validatedTokens_stable h }

/-- lib.rs:193 -/
def Principal.withScopes (p : Principal) (scopes : List String) : Except MetadataError Principal := do
  let ⟨scopes, h⟩ ← attachOk (validatedScopes scopes)
  pure { p with scopes, scopesStored := validatedScopes_stable h }

/-- lib.rs:211 -/
def Principal.withAcr (p : Principal) (acr : Option String) : Except MetadataError Principal :=
  if h : acr.all (validText · maxContextValueLen) = true then .ok { p with acr, acrValid := h }
  else .error (.invalidText "acr")

/-- lib.rs:227 -/
def Principal.withAmr (p : Principal) (amr : List String) : Except MetadataError Principal := do
  let ⟨amr, h⟩ ← attachOk (validatedTokens "amr" amr)
  pure { p with amr, amrStored := validatedTokens_stable h }

/-- lib.rs:237 -/
def Principal.withActor (p : Principal) (actor : Option Actor) : Principal := { p with actor }

/-- lib.rs:248 -/
def Principal.withTimes (p : Principal) (authTime expiresAt : Option UInt64) : Except MetadataError Principal :=
  if h : validTimes authTime expiresAt = true then .ok { p with authTime, expiresAt, timesValid := h }
  else .error .invalidTimeRange

/-- lib.rs:269 -/
def Principal.withSessionId (p : Principal) (sessionId : Option String) : Except MetadataError Principal :=
  if h : sessionId.all (validText · maxSessionValueLen) = true then .ok { p with sessionId, sessionValid := h }
  else .error (.invalidText "session_id")

/-- lib.rs:34 -/
inductive AuthState where
  | anonymous
  | authenticated (principal : Principal) (decisionId policyRevision : String)
      (decisionValid : validText decisionId maxContextValueLen = true)
      (revisionValid : validText policyRevision maxContextValueLen = true)
deriving DecidableEq

/-- lib.rs:348 -/
structure AuthContext where
  serviceId : String
  audiences : List String
  state : AuthState
  deploymentStored : validatedDeployment serviceId audiences = .ok (serviceId, audiences)
deriving DecidableEq

/-- lib.rs:414 -/
def AuthContext.anonymous (serviceId : String) (audiences : List String) : Except MetadataError AuthContext := do
  let ⟨(serviceId, audiences), h⟩ ← attachOk (validatedDeployment serviceId audiences)
  pure ⟨serviceId, audiences, .anonymous, validatedDeployment_stable h⟩

/-- lib.rs:438 -/
def AuthContext.authenticated (serviceId : String) (audiences : List String) (principal : Principal)
    (decisionId policyRevision : String) : Except MetadataError AuthContext := do
  let ⟨(serviceId, audiences), h⟩ ← attachOk (validatedDeployment serviceId audiences)
  if hdecision : validText decisionId maxContextValueLen = true then
    if hrevision : validText policyRevision maxContextValueLen = true then
      pure ⟨serviceId, audiences, .authenticated principal decisionId policyRevision hdecision hrevision,
        validatedDeployment_stable h⟩
    else .error (.invalidText "policy_revision")
  else .error (.invalidText "decision_id")

end WasiAuth.Metadata
