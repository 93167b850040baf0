import WasiAuth.Identity.Values
import WasiAuth.Ingress.Caches

/-! # The signed context of a request

The native ingress seals the context of a request into a header, and the guest opens it. What is opened in time for the
same request is the context that was sealed; what opens at all was signed with the key, for this audience and request.

Base64, the JSON of the payload and HMAC-SHA-256 are parameters (`EnvelopeLibrary`); `RoundTrips` is what is asked of
them.
-/

namespace WasiAuth

open Relational

/-- http.rs:47 -/
inductive TrustedContextError
  | invalidEnvelope | expired | bindingMismatch | invalidContext
deriving DecidableEq

/-- `Method::as_str`. -/
def Method.asStr : Method → String
  | .get => "GET"
  | .head => "HEAD"
  | .options => "OPTIONS"
  | .post => "POST"
  | .put => "PUT"
  | .patch => "PATCH"
  | .delete => "DELETE"
  | .other name => name

/-- http.rs:313 -/
structure TrustedContextPayload where
  version : UInt8
  audience : String
  method : String
  path : String
  sealedAtUnixSeconds : UInt64
  userId : String
  issuer : String
  systemAdministrator : Bool
  organizationId : Option String
  sessionId : String
  requestId : String
  assurance : AuthenticationAssurance
  issuedAtUnixSeconds : Nat
  expiresAtUnixSeconds : Nat
  decisionId : Option String
  policyRevision : Option String
  permissions : List String
  roleIds : List String
  consistencyToken : Option String
deriving DecidableEq

structure EnvelopeLibrary where
  encode : Bytes → String
  decode : String → Option Bytes
  toVec : TrustedContextPayload → Option Bytes
  fromSlice : Bytes → Option TrustedContextPayload
  hmac : (key message : Bytes) → Bytes

/-- What was encoded or serialized is read back, and the alphabet of base64 has no dot. -/
structure EnvelopeLibrary.RoundTrips (lib : EnvelopeLibrary) : Prop where
  decode_encode : ∀ bytes, lib.decode (lib.encode bytes) = some bytes
  encode_dot : ∀ bytes, '.' ∉ (lib.encode bytes).toList
  fromSlice_toVec : ∀ {payload bytes}, lib.toVec payload = some bytes → lib.fromSlice bytes = some payload

def validAudience (audience : String) : Bool :=
  decide (audience ≠ "") && decide (audience.utf8ByteSize ≤ 256) && !audience.toList.any isControl

/-- http.rs:70; `new` and `with_max_age_seconds` check the fields. -/
structure TrustedContextCodec where
  audience : String
  key : Bytes
  maxAgeSeconds : Nat
  audienceValid : validAudience audience = true
  keyLength : key.length = 32
  keyNonzero : ∃ byte ∈ key, byte ≠ 0
  maxAge : 1 ≤ maxAgeSeconds ∧ maxAgeSeconds ≤ 30

/-- http.rs:335 -/
def validateTrustedPath (path : String) : Except TrustedContextError Unit :=
  if path = "" ∨ 2048 < path.utf8ByteSize ∨ path.toList.head? ≠ some '/' ∨ path.toList.any isControl then
    .error .bindingMismatch
  else .ok ()

/-! ## The payload -/

def orInvalidContext {α : Type} (x : Except ContextError α) : Except TrustedContextError α :=
  x.mapError fun _ => .invalidContext

/-- The context of a payload: every value is validated again. -/
def TrustedContextPayload.context (payload : TrustedContextPayload) :
    Except TrustedContextError VerifiedRequestContext := do
  let policyRevision ← orInvalidContext (Identifier.newOption payload.policyRevision)
  let userId ← orInvalidContext (Identifier.new payload.userId)
  let principal ← orInvalidContext (Principal.new userId payload.issuer payload.systemAdministrator)
  let organizationId ← orInvalidContext (Identifier.newOption payload.organizationId)
  let sessionId ← orInvalidContext (Identifier.new payload.sessionId)
  let requestId ← orInvalidContext (Identifier.new payload.requestId)
  let decisionId ← orInvalidContext (Identifier.newOption payload.decisionId)
  let auth ← orInvalidContext (VerifiedAuthContext.fromValidated {
    principal := principal
    organizationId := organizationId
    sessionId := sessionId
    requestId := requestId
    assurance := payload.assurance
    issuedAtUnixSeconds := payload.issuedAtUnixSeconds
    expiresAtUnixSeconds := payload.expiresAtUnixSeconds
    decisionId := decisionId
    policyRevision := policyRevision })
  let roleIds ← orInvalidContext (payload.roleIds.mapM Identifier.new)
  let authorization ← orInvalidContext
    (AuthorizationSnapshot.new payload.permissions roleIds policyRevision payload.consistencyToken)
  pure ⟨auth, authorization⟩

namespace TrustedContextCodec

variable (lib : EnvelopeLibrary) (codec : TrustedContextCodec)

def payload (context : VerifiedRequestContext) (method : Method) (path : String) (nowUnixSeconds : UInt64) :
    TrustedContextPayload where
  version := 1
  audience := codec.audience
  method := method.asStr
  path := path
  sealedAtUnixSeconds := nowUnixSeconds
  userId := context.auth.principal.userId.value
  issuer := context.auth.principal.issuer
  systemAdministrator := context.auth.principal.systemAdministrator
  organizationId := context.auth.organizationId.map Identifier.value
  sessionId := context.auth.sessionId.value
  requestId := context.auth.requestId.value
  assurance := context.auth.assurance
  issuedAtUnixSeconds := context.auth.issuedAtUnixSeconds
  expiresAtUnixSeconds := context.auth.expiresAtUnixSeconds
  decisionId := context.auth.decisionId.map Identifier.value
  policyRevision := context.auth.policyRevision.map Identifier.value
  permissions := context.authorization.permissions
  roleIds := context.authorization.roleIds.map Identifier.value
  consistencyToken := context.authorization.consistencyToken

/-! ## Sealing and opening -/

/-- `signature` (http.rs:281): the MAC of a payload as it stands in the envelope. -/
def mac (payload : String) : Bytes :=
  lib.hmac codec.key (utf8Bytes "wasi-auth:trusted-context:v1\x00" ++ utf8Bytes payload)

/-- `seal` (http.rs:120) -/
def sealContext (context : VerifiedRequestContext) (method : Method) (path : String) (nowUnixSeconds : UInt64) :
    Except TrustedContextError String := do
  validateTrustedPath path
  if context.auth.expiresAtUnixSeconds ≤ nowUnixSeconds.toNat then .error .expired
  else if context.auth.policyRevision.map Identifier.value ≠
      context.authorization.policyRevision.map Identifier.value then .error .invalidContext
  else do
    let bytes ← okOr .invalidEnvelope (lib.toVec (codec.payload context method path nowUnixSeconds))
    let payload := lib.encode bytes
    let envelope := payload ++ "." ++ lib.encode (codec.mac lib payload)
    if 32 * 1024 < envelope.utf8ByteSize then .error .invalidEnvelope else .ok envelope

def parts (envelope : String) : Option (String × String) :=
  ((Text.splitOnce '.' envelope.toList).filter fun (_, signature) => !signature.contains '.').map
    fun (payload, signature) => (String.ofList payload, String.ofList signature)

/-- `open` (http.rs:189) -/
def openContext (envelope : String) (method : Method) (path requestId : String) (nowUnixSeconds : UInt64) :
    Except TrustedContextError VerifiedRequestContext := do
  validateTrustedPath path
  if 32 * 1024 < envelope.utf8ByteSize then .error .invalidEnvelope
  else do
    let (text, signature) ← okOr .invalidEnvelope (parts envelope)
    let signature ← okOr .invalidEnvelope (lib.decode signature)
    if signature ≠ codec.mac lib text then .error .invalidEnvelope
    else do
      let bytes ← okOr .invalidEnvelope (lib.decode text)
      let payload ← okOr .invalidEnvelope (lib.fromSlice bytes)
      if payload.version ≠ 1 ∨ payload.audience ≠ codec.audience ∨ payload.method ≠ method.asStr ∨
          payload.path ≠ path ∨ payload.requestId ≠ requestId then .error .bindingMismatch
      -- the sum saturates
      else if min (nowUnixSeconds.toNat + 1) (2 ^ 64 - 1) < payload.sealedAtUnixSeconds.toNat ∨
          codec.maxAgeSeconds < nowUnixSeconds.toNat - payload.sealedAtUnixSeconds.toNat ∨
          payload.expiresAtUnixSeconds ≤ nowUnixSeconds.toNat then .error .expired
      else payload.context

/-! ## What opens -/

/-- The payload of an envelope is signed, and it is for this audience, request and time. -/
structure Accepts (text signature : String) (payload : TrustedContextPayload) (method : Method)
    (path requestId : String) (nowUnixSeconds : UInt64) : Prop where
  signed : lib.decode signature = some (codec.mac lib text)
  decoded : (lib.decode text).bind lib.fromSlice = some payload
  version : payload.version = 1
  audience : payload.audience = codec.audience
  method : payload.method = method.asStr
  path : payload.path = path
  requestId : payload.requestId = requestId
  notEarly : payload.sealedAtUnixSeconds.toNat ≤ nowUnixSeconds.toNat + 1
  notStale : nowUnixSeconds.toNat ≤ payload.sealedAtUnixSeconds.toNat + codec.maxAgeSeconds
  live : nowUnixSeconds.toNat < payload.expiresAtUnixSeconds

variable {lib codec} {method : Method} {path requestId envelope : String} {now : UInt64}
  {context : VerifiedRequestContext}

theorem parts_eq_some {text signature : String} : parts envelope = some (text, signature) ↔
    envelope = text ++ "." ++ signature ∧ '.' ∉ text.toList ∧ '.' ∉ signature.toList := by
  constructor
  · intro h
    obtain ⟨⟨l, r⟩, hsplit, h⟩ := Option.map_eq_some_iff.1 h
    obtain ⟨hsplit, hr⟩ := Option.filter_eq_some_iff.1 hsplit
    cases h
    obtain ⟨henvelope, hl⟩ := Text.eq_append_of_splitOnce hsplit
    refine ⟨String.toList_inj.1 ?_, by simpa using hl, by simpa using hr⟩
    simpa using henvelope
  · rintro ⟨rfl, htext, hsignature⟩
    have hsplit : Text.splitOnce '.' (text ++ "." ++ signature).toList = some (text.toList, signature.toList) := by
      rw [← Text.splitOnce_append signature.toList htext]
      simp
    rw [parts, hsplit]
    simp [hsignature]

/-- An envelope opens exactly when its payload is accepted and its values are valid. -/
theorem openContext_eq_ok : codec.openContext lib envelope method path requestId now = .ok context ↔
    validateTrustedPath path = .ok () ∧ envelope.utf8ByteSize ≤ 32 * 1024 ∧
      ∃ text signature payload, parts envelope = some (text, signature) ∧
        codec.Accepts lib text signature payload method path requestId now ∧ payload.context = .ok context := by
  constructor
  · intro h
    obtain ⟨⟨⟩, hpath, h⟩ := bind_eq_ok.1 h
    split at h
    · cases h
    next hsize =>
      obtain ⟨⟨text, signature⟩, hparts, h⟩ := bind_eq_ok.1 h
      obtain ⟨mac, hmac, h⟩ := bind_eq_ok.1 h
      split at h
      · cases h
      next hsigned =>
        obtain ⟨bytes, hbytes, h⟩ := bind_eq_ok.1 h
        obtain ⟨payload, hpayload, h⟩ := bind_eq_ok.1 h
        rw [okOr_eq_ok] at hparts hmac hbytes hpayload
        split at h
        · cases h
        next hbound =>
          split at h
          · cases h
          next hfresh =>
            simp only [not_or, not_not] at hbound
            obtain ⟨hversion, haudience, hmethod, hpathEq, hrequestId⟩ := hbound
            exact ⟨hpath, Nat.le_of_not_lt hsize, text, signature, payload, hparts,
              ⟨by rw [hmac, not_not.1 hsigned], by rw [hbytes, Option.bind_some, hpayload], hversion, haudience,
                hmethod, hpathEq, hrequestId, by omega, by omega, by omega⟩, h⟩
  · rintro ⟨hpath, hsize, text, signature, payload, hparts, accepts, hcontext⟩
    obtain ⟨bytes, hbytes, hpayload⟩ := Option.bind_eq_some_iff.1 accepts.decoded
    have hsealed := payload.sealedAtUnixSeconds.toNat_lt
    have hearly := accepts.notEarly
    have hstale := accepts.notStale
    have hlive := accepts.live
    simp only [openContext, hpath, ok_bind]
    rw [if_neg (Nat.not_lt.2 hsize), hparts, okOr, ok_bind, accepts.signed]
    dsimp only [okOr]
    rw [ok_bind, if_neg (not_not.2 rfl), hbytes, ok_bind, hpayload, ok_bind, if_neg (by
      simp [accepts.version, accepts.audience, accepts.method, accepts.path, accepts.requestId]),
      if_neg (by omega), hcontext]

/-- Every value of a context passes its check again, and the two revisions were sealed as one. -/
theorem context_payload (hrevision : context.auth.policyRevision = context.authorization.policyRevision) :
    (codec.payload context method path now).context = .ok context := by
  have hauth : VerifiedAuthContext.fromValidated context.auth.toValidatedContextParts = .ok context.auth :=
    VerifiedAuthContext.fromValidated_eq_ok.2 ⟨context.auth.lifetime, rfl⟩
  have hauthorization := context.authorization.new_of
  rw [← hrevision] at hauthorization
  simp only [TrustedContextPayload.context, payload, Identifier.newOption_value, Identifier.new_value,
    Principal.new_of, mapM_new_value, orInvalidContext, Except.mapError, ok_bind, hauth, hauthorization]
  rfl

theorem sealContext_eq_ok (h : codec.sealContext lib context method path now = .ok envelope) :
    validateTrustedPath path = .ok () ∧ context.auth.policyRevision = context.authorization.policyRevision ∧
      envelope.utf8ByteSize ≤ 32 * 1024 ∧ ∃ bytes, lib.toVec (codec.payload context method path now) = some bytes ∧
        envelope = lib.encode bytes ++ "." ++ lib.encode (codec.mac lib (lib.encode bytes)) := by
  obtain ⟨⟨⟩, hpath, h⟩ := bind_eq_ok.1 h
  split at h
  · cases h
  · split at h
    · cases h
    next hrevision =>
      obtain ⟨bytes, hbytes, h⟩ := bind_eq_ok.1 h
      rw [okOr_eq_ok] at hbytes
      dsimp only at h
      split at h
      · cases h
      next hsize =>
        cases h
        exact ⟨hpath, Option.map_injective Identifier.value_injective (not_not.1 hrevision), Nat.le_of_not_lt hsize,
          bytes, hbytes, rfl⟩

/-- What was sealed opens for the same request as long as the envelope and the context last, as the context that was
sealed; and what opens was signed with the key of the codec, for this audience, request and time. -/
theorem sealed_opens_and_opens_signed (hlib : lib.RoundTrips) (codec : TrustedContextCodec) (method : Method)
    (path : String) (now : UInt64) :
    (∀ (context : VerifiedRequestContext) (sealedAt : UInt64) (envelope : String),
      codec.sealContext lib context method path sealedAt = .ok envelope →
      sealedAt.toNat ≤ now.toNat + 1 → now.toNat ≤ sealedAt.toNat + codec.maxAgeSeconds →
      now.toNat < context.auth.expiresAtUnixSeconds →
        codec.openContext lib envelope method path context.auth.requestId.value now = .ok context) ∧
    (∀ (envelope requestId : String) (context : VerifiedRequestContext),
      codec.openContext lib envelope method path requestId now = .ok context →
        ∃ text signature payload, envelope = text ++ "." ++ signature ∧ '.' ∉ text.toList ∧ '.' ∉ signature.toList ∧
          codec.Accepts lib text signature payload method path requestId now ∧ payload.context = .ok context) := by
  constructor
  · intro context sealedAt envelope hseal hearly hstale hlive
    obtain ⟨hpath, hrevision, hsize, bytes, hbytes, rfl⟩ := sealContext_eq_ok hseal
    refine openContext_eq_ok.2 ⟨hpath, hsize, lib.encode bytes, lib.encode (codec.mac lib (lib.encode bytes)),
      codec.payload context method path sealedAt, ?_, ?_, context_payload hrevision⟩
    · exact parts_eq_some.2 ⟨rfl, hlib.encode_dot _, hlib.encode_dot _⟩
    · have hdecoded : (lib.decode (lib.encode bytes)).bind lib.fromSlice =
          some (codec.payload context method path sealedAt) := by
        rw [hlib.decode_encode, Option.bind_some, hlib.fromSlice_toVec hbytes]
      exact ⟨hlib.decode_encode _, hdecoded, rfl, rfl, rfl, rfl, rfl, hearly, hstale, hlive⟩
  · intro envelope requestId context hopen
    obtain ⟨-, -, text, signature, payload, hparts, accepts, hcontext⟩ := openContext_eq_ok.1 hopen
    obtain ⟨henvelope, htext, hsignature⟩ := parts_eq_some.1 hparts
    exact ⟨text, signature, payload, henvelope, htext, hsignature, accepts, hcontext⟩

/-! ## A sealed request -/

def sampleEnvelopeLibrary (payload : TrustedContextPayload) : EnvelopeLibrary where
  encode bytes := String.ofList (bytes.map fun b => Char.ofNat (b.toNat + 256))
  decode text := some (text.toList.map fun c => UInt8.ofNat (c.toNat - 256))
  toVec p := if p = payload then some [1] else none
  fromSlice bytes := if bytes = [1] then some payload else none
  hmac key message := key ++ message.take 32

theorem toNat_sampleDigit (b : UInt8) : (Char.ofNat (b.toNat + 256)).toNat = b.toNat + 256 := by
  have hb := b.toNat_lt
  have hvalid : (b.toNat + 256).isValidChar := .inl (by omega)
  rw [Char.ofNat, dif_pos hvalid]
  rfl

theorem sampleEnvelopeLibrary_roundTrips (payload : TrustedContextPayload) :
    (sampleEnvelopeLibrary payload).RoundTrips where
  decode_encode bytes := by
    have hdigit : (fun c : Char => UInt8.ofNat (c.toNat - 256)) ∘ (fun b : UInt8 => Char.ofNat (b.toNat + 256)) =
        id := by
      funext b
      simp [toNat_sampleDigit]
    simp [sampleEnvelopeLibrary, hdigit]
  encode_dot bytes h := by
    obtain ⟨b, -, hb⟩ := List.mem_map.1 (String.toList_ofList ▸ h)
    have hdot := congrArg Char.toNat hb
    rw [toNat_sampleDigit] at hdot
    exact absurd hdot (by simp)
  fromSlice_toVec h := by
    simp only [sampleEnvelopeLibrary] at h ⊢
    split at h <;> simp_all

def sampleCodec : TrustedContextCodec :=
  ⟨"fullstack-app", List.replicate 32 7, 5, by decide +kernel, rfl, ⟨7, by decide +kernel, by decide⟩, by decide⟩

def sampleContext : VerifiedRequestContext where
  auth :=
    { principal := ⟨⟨"alice", by decide +kernel⟩, "https://auth.example", false, by decide +kernel⟩
      organizationId := some ⟨"acme", by decide +kernel⟩
      sessionId := ⟨"session-7", by decide +kernel⟩
      requestId := ⟨"request-7", by decide +kernel⟩
      assurance := .aal1
      issuedAtUnixSeconds := 90
      expiresAtUnixSeconds := 200
      decisionId := none
      policyRevision := some ⟨"revision-7", by decide +kernel⟩
      lifetime := by decide }
  authorization := ⟨["document.read"], [⟨"editor", by decide +kernel⟩], some ⟨"revision-7", by decide +kernel⟩, none,
    by decide +kernel, rfl, rfl, Option.all_none⟩

def samplePayload : TrustedContextPayload := sampleCodec.payload sampleContext .post "/api/documents" 100

theorem sampleContext_reopened :
    ∃ envelope, sampleCodec.sealContext (sampleEnvelopeLibrary samplePayload) sampleContext .post "/api/documents" 100 =
        .ok envelope ∧
      sampleCodec.openContext (sampleEnvelopeLibrary samplePayload) envelope .post "/api/documents" "request-7" 105 =
        .ok sampleContext := by
  have hok : (sampleCodec.sealContext (sampleEnvelopeLibrary samplePayload) sampleContext .post "/api/documents"
      100).toOption.any (fun _ => true) = true := by
    decide +kernel
  obtain ⟨envelope, hseal, -⟩ := exists_ok_of_any hok
  exact ⟨envelope, hseal, (sealed_opens_and_opens_signed (sampleEnvelopeLibrary_roundTrips samplePayload) sampleCodec
    .post "/api/documents" 105).1 sampleContext 100 envelope hseal (by decide) (by decide) (by decide)⟩

end TrustedContextCodec

end WasiAuth
