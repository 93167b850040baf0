import WasiAuth.Base.Utf8
import WasiAuth.Legacy.Metadata

/-! # The authentication context in a header

The context is written as a JSON document, encoded with base64url, and put into one header after every header with the
reserved prefix has been removed. Reading goes the other way and runs the constructors of the context on the members of
the document. Two round trips make up that of the header: the document's (`WireContext.fromJson_toJson`) and that of
the constructors (`AuthContext.ofWire_toWire`), which leave stored values as they are.
-/

namespace WasiAuth.Metadata

open Relational

/-! ## The document -/

/-- `WireActorRef`, `WireActorOwned` (lib.rs:779, 863) -/
structure WireActor where
  issuer : String
  subject : String
deriving DecidableEq

/-- `WirePrincipalRef`, `WirePrincipalOwned` (lib.rs:736, 844) -/
structure WirePrincipal where
  issuer : String
  subject : String
  tenantId : Option String
  roles : List String
  scopes : List String
  acr : Option String
  amr : List String
  actor : Option WireActor
  authTime : Option UInt64
  expiresAt : Option UInt64
  sessionId : Option String
deriving DecidableEq

/-- lib.rs:720 -/
inductive WireState where
  | anonymous
  | authenticated
deriving DecidableEq

/-- `WireContextRef`, `WireContextOwned` (lib.rs:691, 799) -/
structure WireContext where
  version : UInt8
  state : WireState
  serviceId : String
  audiences : List String
  principal : Option WirePrincipal
  decisionId : Option String
  policyRevision : Option String
deriving DecidableEq

/-- A number outside the `u64` is refused. -/
def u64FromJson : Json → Option UInt64
  | .number value => if 0 ≤ value ∧ value < 2 ^ 64 then some (UInt64.ofNat value.toNat) else none
  | _ => none

def u8FromJson : Json → Option UInt8
  | .number value => if 0 ≤ value ∧ value < 2 ^ 8 then some (UInt8.ofNat value.toNat) else none
  | _ => none

def u64ToJson (value : UInt64) : Json := .number value.toNat

def u8ToJson (value : UInt8) : Json := .number value.toNat

theorem u64FromJson_toJson (value : UInt64) : u64FromJson (u64ToJson value) = some value := by
  have hlt := value.toNat_lt
  rw [u64ToJson, u64FromJson, if_pos (by omega), Int.toNat_natCast, UInt64.ofNat_toNat]

theorem u8FromJson_toJson (value : UInt8) : u8FromJson (u8ToJson value) = some value := by
  have hlt := value.toNat_lt
  rw [u8ToJson, u8FromJson, if_pos (by omega), Int.toNat_natCast, UInt8.ofNat_toNat]

theorem decodeString_string (value : String) : Json.decodeString (.string value) = some value := rfl

def WireActor.toJson (actor : WireActor) : Json :=
  .build [("issuer", some (.string actor.issuer)), ("subject", some (.string actor.subject))]

def WireActor.fromJson (json : Json) : Option WireActor := do
  let members ← json.struct ["issuer", "subject"] true
  let issuer ← Json.required members "issuer" Json.decodeString
  let subject ← Json.required members "subject" Json.decodeString
  pure ⟨issuer, subject⟩

theorem WireActor.fromJson_toJson (actor : WireActor) : fromJson actor.toJson = some actor := by
  simp [fromJson, toJson, Json.required, List.lookup_cons, Json.decodeString]

/-- What is empty is left out (lib.rs:739-758). -/
def WirePrincipal.members (p : WirePrincipal) : List (String × Option Json) :=
  [("issuer", some (.string p.issuer)), ("subject", some (.string p.subject)), ("tenant_id", p.tenantId.map .string),
    ("roles", Json.nonempty .string p.roles), ("scopes", Json.nonempty .string p.scopes), ("acr", p.acr.map .string),
    ("amr", Json.nonempty .string p.amr), ("actor", p.actor.map WireActor.toJson),
    ("auth_time", p.authTime.map u64ToJson), ("expires_at", p.expiresAt.map u64ToJson),
    ("session_id", p.sessionId.map .string)]

def WirePrincipal.names : List String :=
  ["issuer", "subject", "tenant_id", "roles", "scopes", "acr", "amr", "actor", "auth_time", "expires_at", "session_id"]

/-- A `Vec<String>` with `#[serde(default)]`. -/
def decodeStrings (members : List (String × Json)) (name : String) : Option (List String) :=
  Json.defaulted members name [] (Json.decodeArray Json.decodeString)

/-- lib.rs:844 -/
def WirePrincipal.fromJson (json : Json) : Option WirePrincipal := do
  let members ← json.struct WirePrincipal.names true
  let issuer ← Json.required members "issuer" Json.decodeString
  let subject ← Json.required members "subject" Json.decodeString
  let tenantId ← Json.optional members "tenant_id" Json.decodeString
  let roles ← decodeStrings members "roles"
  let scopes ← decodeStrings members "scopes"
  let acr ← Json.optional members "acr" Json.decodeString
  let amr ← decodeStrings members "amr"
  let actor ← Json.optional members "actor" WireActor.fromJson
  let authTime ← Json.optional members "auth_time" u64FromJson
  let expiresAt ← Json.optional members "expires_at" u64FromJson
  let sessionId ← Json.optional members "session_id" Json.decodeString
  pure ⟨issuer, subject, tenantId, roles, scopes, acr, amr, actor, authTime, expiresAt, sessionId⟩

theorem WirePrincipal.fromJson_members (p : WirePrincipal) : fromJson (.build p.members) = some p := by
  have hnames : (p.members.map Prod.fst).Nodup := (by decide : WirePrincipal.names.Nodup)
  have hlist : ∀ {name : String} {values : List String}, p.members.lookup name = some (Json.nonempty .string values) →
      decodeStrings (Json.present p.members) name = some values := fun h =>
    Json.defaulted_present hnames h Json.nonempty_eq_none fun _ => Json.decodeArray_of_nonempty decodeString_string
  refine Json.bind_of_some (Json.struct_build true hnames (List.Subset.refl _)) ?_
  refine Json.bind_of_some (Json.required_present hnames rfl (decodeString_string _)) ?_
  refine Json.bind_of_some (Json.required_present hnames rfl (decodeString_string _)) ?_
  refine Json.bind_of_some (Json.optional_present hnames decodeString_string rfl rfl) ?_
  refine Json.bind_of_some (hlist rfl) (Json.bind_of_some (hlist rfl) ?_)
  refine Json.bind_of_some (Json.optional_present hnames decodeString_string rfl rfl) ?_
  refine Json.bind_of_some (hlist rfl) ?_
  refine Json.bind_of_some (Json.optional_present hnames WireActor.fromJson_toJson rfl rfl) ?_
  refine Json.bind_of_some (Json.optional_present hnames u64FromJson_toJson rfl rfl) ?_
  refine Json.bind_of_some (Json.optional_present hnames u64FromJson_toJson rfl rfl) ?_
  exact Json.bind_of_some (Json.optional_present hnames decodeString_string rfl rfl) rfl

/-- `rename_all = "snake_case"` (lib.rs:719). -/
def WireState.text : WireState → String
  | .anonymous => "anonymous"
  | .authenticated => "authenticated"

def WireState.fromJson : Json → Option WireState
  | .string "anonymous" => some .anonymous
  | .string "authenticated" => some .authenticated
  | _ => none

theorem WireState.fromJson_text (state : WireState) : fromJson (.string state.text) = some state := by
  cases state <;> rfl

/-- lib.rs:691 -/
def WireContext.members (context : WireContext) : List (String × Option Json) :=
  [("version", some (u8ToJson context.version)), ("state", some (.string context.state.text)),
    ("service_id", some (.string context.serviceId)),
    ("audiences", some (.array (context.audiences.map .string))),
    ("principal", context.principal.map fun principal => .build principal.members),
    ("decision_id", context.decisionId.map .string), ("policy_revision", context.policyRevision.map .string)]

def WireContext.names : List String :=
  ["version", "state", "service_id", "audiences", "principal", "decision_id", "policy_revision"]

def WireContext.toJson (context : WireContext) : Json := .build context.members

/-- lib.rs:799 -/
def WireContext.fromJson (json : Json) : Option WireContext := do
  let members ← json.struct WireContext.names true
  let version ← Json.required members "version" u8FromJson
  let state ← Json.required members "state" WireState.fromJson
  let serviceId ← Json.required members "service_id" Json.decodeString
  let audiences ← Json.required members "audiences" (Json.decodeArray Json.decodeString)
  let principal ← Json.optional members "principal" WirePrincipal.fromJson
  let decisionId ← Json.optional members "decision_id" Json.decodeString
  let policyRevision ← Json.optional members "policy_revision" Json.decodeString
  pure ⟨version, state, serviceId, audiences, principal, decisionId, policyRevision⟩

theorem WireContext.fromJson_toJson (context : WireContext) : fromJson context.toJson = some context := by
  have hnames : (context.members.map Prod.fst).Nodup := (by decide : WireContext.names.Nodup)
  refine Json.bind_of_some (Json.struct_build true hnames (List.Subset.refl _)) ?_
  refine Json.bind_of_some (Json.required_present hnames rfl (u8FromJson_toJson _)) ?_
  refine Json.bind_of_some (Json.required_present hnames rfl (WireState.fromJson_text _)) ?_
  refine Json.bind_of_some (Json.required_present hnames rfl (decodeString_string _)) ?_
  refine Json.bind_of_some (Json.required_present hnames rfl (Json.decodeArray_map decodeString_string _)) ?_
  refine Json.bind_of_some (Json.optional_present hnames WirePrincipal.fromJson_members rfl rfl) ?_
  refine Json.bind_of_some (Json.optional_present hnames decodeString_string rfl rfl) ?_
  exact Json.bind_of_some (Json.optional_present hnames decodeString_string rfl rfl) rfl

/-! ## Contexts and documents -/

def Actor.toWire (actor : Actor) : WireActor := ⟨actor.issuer, actor.subject⟩

/-- lib.rs:868 -/
def Actor.ofWire (wire : WireActor) : Except MetadataError Actor := Actor.new wire.issuer wire.subject

/-- lib.rs:759 -/
def Principal.toWire (p : Principal) : WirePrincipal :=
  ⟨p.issuer, p.subject, p.tenantId, p.roles, p.scopes, p.acr, p.amr, p.actor.map Actor.toWire, p.authTime, p.expiresAt,
    p.sessionId⟩

/-- lib.rs:876 -/
def Principal.ofWire (wire : WirePrincipal) : Except MetadataError Principal := do
  let p ← Principal.new wire.issuer wire.subject
  let p ← p.withTenantId wire.tenantId
  let p ← p.withRoles wire.roles
  let p ← p.withScopes wire.scopes
  let p ← p.withAcr wire.acr
  let p ← p.withAmr wire.amr
  let actor ← wire.actor.mapM Actor.ofWire
  let p ← (p.withActor actor).withTimes wire.authTime wire.expiresAt
  p.withSessionId wire.sessionId

/-- lib.rs:704 -/
def AuthContext.toWire (context : AuthContext) : WireContext :=
  match context.state with
  | .anonymous => ⟨authContextVersion, .anonymous, context.serviceId, context.audiences, none, none, none⟩
  | .authenticated principal decisionId policyRevision _ _ =>
    ⟨authContextVersion, .authenticated, context.serviceId, context.audiences, some principal.toWire, some decisionId,
      some policyRevision⟩

/-- lib.rs:809 -/
def AuthContext.ofWire (wire : WireContext) : Except MetadataError AuthContext :=
  if wire.version ≠ authContextVersion then .error (.unsupportedVersion wire.version)
  else match wire.state, wire.principal, wire.decisionId, wire.policyRevision with
    | .anonymous, none, none, none => AuthContext.anonymous wire.serviceId wire.audiences
    | .authenticated, some principal, some decisionId, some policyRevision => do
      let principal ← Principal.ofWire principal
      AuthContext.authenticated wire.serviceId wire.audiences principal decisionId policyRevision
    | _, _, _, _ => .error .invalidSchema

theorem Actor.ofWire_toWire (actor : Actor) : ofWire actor.toWire = .ok actor := by
  rw [ofWire, Actor.new]
  exact (dif_pos actor.issuerValid).trans (dif_pos actor.subjectValid)

theorem mapM_ofWire_toWire (actor : Option Actor) : (actor.map Actor.toWire).mapM Actor.ofWire = .ok actor := by
  cases actor with
  | none => rfl
  | some actor => exact bind_eq_ok.2 ⟨actor, actor.ofWire_toWire, rfl⟩

/-- The constructors, one after the other, leave the members of a principal as they are. -/
theorem Principal.ofWire_toWire (p : Principal) : ofWire p.toWire = .ok p := by
  refine bind_eq_ok.2 ⟨_, (dif_pos p.issuerValid).trans (dif_pos p.subjectValid), ?_⟩
  refine bind_eq_ok.2 ⟨_, dif_pos p.tenantValid, ?_⟩
  refine bind_eq_ok.2 ⟨_, bind_eq_ok.2 ⟨_, attachOk_of_eq p.rolesStored, rfl⟩, ?_⟩
  refine bind_eq_ok.2 ⟨_, bind_eq_ok.2 ⟨_, attachOk_of_eq p.scopesStored, rfl⟩, ?_⟩
  refine bind_eq_ok.2 ⟨_, dif_pos p.acrValid, ?_⟩
  refine bind_eq_ok.2 ⟨_, bind_eq_ok.2 ⟨_, attachOk_of_eq p.amrStored, rfl⟩, ?_⟩
  refine bind_eq_ok.2 ⟨p.actor, mapM_ofWire_toWire p.actor, ?_⟩
  refine bind_eq_ok.2 ⟨_, dif_pos p.timesValid, ?_⟩
  exact dif_pos p.sessionValid

theorem AuthContext.ofWire_toWire (context : AuthContext) : ofWire context.toWire = .ok context := by
  rcases context with ⟨serviceId, audiences, state, hstored⟩
  cases state with
  | anonymous => exact (if_neg (not_not.2 rfl)).trans (bind_eq_ok.2 ⟨_, attachOk_of_eq hstored, rfl⟩)
  | authenticated principal decisionId policyRevision hdecision hrevision =>
    refine (if_neg (not_not.2 rfl)).trans (bind_eq_ok.2 ⟨principal, principal.ofWire_toWire, ?_⟩)
    exact bind_eq_ok.2 ⟨_, attachOk_of_eq hstored, (dif_pos hdecision).trans (dif_pos hrevision)⟩

/-! ## The header -/

/-- `http`, `serde_json` and `URL_SAFE_NO_PAD`. -/
structure MetadataLibrary where
  http : Headers.Library String
  text : Json.Text
  base64Encode : Bytes → String
  base64Decode : String → Option Bytes

/-- What is encoded is decoded, the encoding is of visible ASCII characters, and no document has an empty text. -/
structure MetadataLibrary.Lawful (lib : MetadataLibrary) : Prop where
  base64 : ∀ bytes, lib.base64Decode (lib.base64Encode bytes) = some bytes
  base64Visible : ∀ bytes, (lib.base64Encode bytes).toList.all Headers.isVisible = true
  base64Empty : lib.base64Encode [] = ""
  json : ∀ context : AuthContext, lib.text.RoundTrips context.toWire.toJson
  jsonEmpty : lib.text.fromSlice [] = none

def isReserved (name : String) : Bool := reservedAuthPrefix.toList.isPrefixOf name.toList

/-- `strip_reserved_auth_headers` (531-540): the names are collected before the first is removed. -/
def stripReservedAuthHeaders (http : Headers.Library String) (headers : http.Map) : http.Map :=
  ((http.keys headers).filter isReserved).foldl http.remove headers

section Header
variable (lib : MetadataLibrary)

/-- lib.rs:548 -/
def encodeAuthContext (context : AuthContext) : Except MetadataError Bytes := do
  let json ← okOr .invalidSchema (lib.text.toVec context.toWire.toJson)
  let encoded := lib.base64Encode json
  if encoded.utf8ByteSize > maxAuthContextEncodedLen then .error .contextTooLarge
  else okOr .invalidEncoding (lib.http.fromStr encoded)

/-- `decode_auth_context` from the payload on. -/
def decodePayload (payload : Bytes) : Except MetadataError AuthContext := do
  let wire ← okOr .invalidSchema ((lib.text.fromSlice payload).bind WireContext.fromJson)
  AuthContext.ofWire wire

/-- lib.rs:569 -/
def decodeAuthContext (value : Bytes) : Except MetadataError AuthContext := do
  let encoded ← okOr .invalidEncoding (lib.http.toStr value)
  if encoded = "" ∨ encoded.utf8ByteSize > maxAuthContextEncodedLen then
    .error (if encoded.utf8ByteSize > maxAuthContextEncodedLen then .contextTooLarge else .invalidEncoding)
  else
    let decoded ← okOr .invalidEncoding (lib.base64Decode encoded)
    if lib.base64Encode decoded ≠ encoded then .error .invalidEncoding else decodePayload lib decoded

/-- lib.rs:595 -/
def insertAuthContext (headers : lib.http.Map) (context : AuthContext) : Except MetadataError lib.http.Map := do
  let value ← encodeAuthContext lib context
  pure (lib.http.insert (stripReservedAuthHeaders lib.http headers) authContextHeader value)

/-- lib.rs:611 -/
def parseAuthContext (headers : lib.http.Map) : Except MetadataError AuthContext :=
  match lib.http.getAll headers authContextHeader with
  | [] => .error (.missingHeader "auth_context")
  | [value] => decodeAuthContext lib value
  | _ => .error (.duplicateHeader "auth_context")

end Header

theorem getAll_stripReservedAuthHeaders (http : Headers.Library String) (headers : http.Map) (name : String) :
    http.getAll (stripReservedAuthHeaders http headers) name =
      if isReserved name = true then [] else http.getAll headers name := by
  simp only [stripReservedAuthHeaders, http.getAll_foldl_remove, List.mem_filter, http.mem_keys]
  by_cases hvalues : http.getAll headers name = [] <;> simp [hvalues]

section RoundTrip
variable {lib : MetadataLibrary}

theorem decodePayload_toVec (hlib : lib.Lawful) {context : AuthContext} {json : Bytes}
    (h : lib.text.toVec context.toWire.toJson = some json) : decodePayload lib json = .ok context := by
  refine bind_eq_ok.2 ⟨context.toWire, okOr_eq_ok.2 ?_, context.ofWire_toWire⟩
  rw [hlib.json context json h, Option.bind_some, WireContext.fromJson_toJson]

theorem base64Encode_ne_empty (hlib : lib.Lawful) {context : AuthContext} {json : Bytes}
    (h : lib.text.toVec context.toWire.toJson = some json) : lib.base64Encode json ≠ "" := by
  intro hempty
  have hdecoded := hlib.base64 json
  rw [hempty, ← hlib.base64Empty, hlib.base64] at hdecoded
  cases hdecoded
  have hparsed := hlib.json context [] h
  rw [hlib.jsonEmpty] at hparsed
  cases hparsed

theorem decodeAuthContext_encodeAuthContext (hlib : lib.Lawful) {context : AuthContext} {value : Bytes}
    (h : encodeAuthContext lib context = .ok value) : decodeAuthContext lib value = .ok context := by
  obtain ⟨json, hjson, h⟩ := bind_eq_ok.1 h
  rw [okOr_eq_ok] at hjson
  dsimp only at h
  split at h
  · cases h
  next hlength =>
    rw [lib.http.fromStr_visible _ (hlib.base64Visible json)] at h
    cases h
    have htext := lib.http.toStr_visible _ (hlib.base64Visible json)
    refine bind_eq_ok.2 ⟨lib.base64Encode json, okOr_eq_ok.2 htext, ?_⟩
    rw [if_neg (not_or.2 ⟨base64Encode_ne_empty hlib hjson, hlength⟩)]
    refine bind_eq_ok.2 ⟨json, okOr_eq_ok.2 (hlib.base64 json), ?_⟩
    rw [if_neg (not_not.2 rfl), decodePayload_toVec hlib hjson]

theorem exists_of_decodeAuthContext {value : Bytes} {context : AuthContext}
    (h : decodeAuthContext lib value = .ok context) :
    ∃ payload, lib.http.toStr value = some (lib.base64Encode payload) ∧ decodePayload lib payload = .ok context := by
  obtain ⟨encoded, htext, h⟩ := bind_eq_ok.1 h
  split at h
  · cases h
  · obtain ⟨payload, -, h⟩ := bind_eq_ok.1 h
    split at h
    · cases h
    next hcanonical => exact ⟨payload, not_not.1 hcanonical ▸ okOr_eq_ok.1 htext, h⟩

theorem isReserved_authContextHeader : isReserved authContextHeader = true := by decide

/-- An inserted context is read back, alone under the reserved names, and only canonical encodings are read. -/
theorem insertAuthContext_read_back (lib : MetadataLibrary) (hlib : lib.Lawful) :
    (∀ headers context inserted, insertAuthContext lib headers context = .ok inserted →
      parseAuthContext lib inserted = .ok context ∧
      (∀ name, isReserved name = true → name ≠ authContextHeader → lib.http.containsKey inserted name = false) ∧
      ∀ name, isReserved name = false → lib.http.getAll inserted name = lib.http.getAll headers name) ∧
    ∀ value context, decodeAuthContext lib value = .ok context →
      ∃ payload, lib.http.toStr value = some (lib.base64Encode payload) ∧ decodePayload lib payload = .ok context := by
  refine ⟨fun headers context inserted h => ?_, fun value context => exists_of_decodeAuthContext⟩
  obtain ⟨value, hvalue, h⟩ := bind_eq_ok.1 h
  cases h
  refine ⟨?_, fun name hreserved hname => ?_, fun name hname => ?_⟩
  · rw [parseAuthContext, lib.http.getAll_insert_self]
    exact decodeAuthContext_encodeAuthContext hlib hvalue
  · rw [Bool.eq_false_iff, ne_eq, lib.http.containsKey_iff, not_not, lib.http.getAll_insert_of_ne _ _ _ _ hname,
      getAll_stripReservedAuthHeaders, if_pos hreserved]
  · have hne : name ≠ authContextHeader := by
      rintro rfl
      rw [isReserved_authContextHeader] at hname
      cases hname
    rw [lib.http.getAll_insert_of_ne _ _ _ _ hne, getAll_stripReservedAuthHeaders, if_neg (Bool.eq_false_iff.1 hname)]

end RoundTrip

/-- Two letters for each byte. -/
def letters (bytes : Bytes) : String :=
  String.ofList (bytes.flatMap fun byte => [Char.ofNat (65 + byte.toNat / 16), Char.ofNat (65 + byte.toNat % 16)])

/-- The inverse of `letters`. -/
def lettersRead : List Char → Bytes
  | high :: low :: rest => UInt8.ofNat ((high.toNat - 65) * 16 + (low.toNat - 65)) :: lettersRead rest
  | _ => []

theorem lettersRead_letters : ∀ bytes : Bytes, lettersRead (letters bytes).toList = bytes
  | [] => rfl
  | byte :: bytes => by
    have hbyte : ∀ n < 256, UInt8.ofNat (((Char.ofNat (65 + n / 16)).toNat - 65) * 16 +
        ((Char.ofNat (65 + n % 16)).toNat - 65)) = UInt8.ofNat n := by decide +kernel
    have hrest := lettersRead_letters bytes
    rw [letters, String.toList_ofList] at hrest ⊢
    simp only [List.flatMap_cons, List.cons_append, List.nil_append, lettersRead, hbyte _ byte.toNat_lt,
      UInt8.ofNat_toNat, hrest]

theorem letters_visible (bytes : Bytes) : (letters bytes).toList.all Headers.isVisible = true := by
  have hbyte : ∀ n < 256, Headers.isVisible (Char.ofNat (65 + n / 16)) = true ∧
      Headers.isVisible (Char.ofNat (65 + n % 16)) = true := by decide +kernel
  simp [letters, List.all_flatMap, fun byte : UInt8 => hbyte byte.toNat byte.toNat_lt]

def billingContext : AuthContext := ⟨"billing", ["billing"], .anonymous, by decide⟩

def billingText : Bytes := utf8Bytes billingContext.toWire.toJson.compact

theorem billingText_fits : billingText ≠ [] ∧ (letters billingText).utf8ByteSize ≤ maxAuthContextEncodedLen := by
  decide +kernel

/-- A context replaces what a client has put under the reserved names. -/
theorem spoofed_context_replaced : ∃ (lib : MetadataLibrary) (headers inserted : lib.http.Map),
    lib.http.getAll headers "x-wasi-auth-role" = [[65]] ∧
    insertAuthContext lib headers billingContext = .ok inserted ∧ parseAuthContext lib inserted = .ok billingContext ∧
    lib.http.getAll inserted "x-wasi-auth-role" = [] ∧ lib.http.getAll inserted "accept" = [[42]] := by
  let lib : MetadataLibrary := ⟨.fields, .single billingContext.toWire.toJson billingText, letters,
    fun text => some (lettersRead text.toList)⟩
  have hlib : lib.Lawful :=
    ⟨fun bytes => congrArg some (lettersRead_letters bytes), letters_visible, rfl,
      fun _ => Json.Text.single_roundTrips _ _ _, Json.Text.fromSlice_single_of_ne (Ne.symm billingText_fits.1)⟩
  have hvalue : encodeAuthContext lib billingContext = .ok (Utf8.encode (letters billingText).toList) := by
    have hvec : lib.text.toVec billingContext.toWire.toJson = some billingText := Json.Text.toVec_single _ _
    have hfits : ¬ (lib.base64Encode billingText).utf8ByteSize > maxAuthContextEncodedLen :=
      Nat.not_lt.2 billingText_fits.2
    refine bind_eq_ok.2 ⟨billingText, okOr_eq_ok.2 hvec, ?_⟩
    dsimp only
    rw [if_neg hfits, okOr_eq_ok]
    exact lib.http.fromStr_visible _ (letters_visible billingText)
  let headers : List (String × Bytes) := [("x-wasi-auth-context", [65]), ("x-wasi-auth-role", [65]), ("accept", [42])]
  obtain ⟨inserted, hinserted⟩ : ∃ inserted, insertAuthContext lib headers billingContext = .ok inserted :=
    ⟨_, bind_eq_ok.2 ⟨_, hvalue, rfl⟩⟩
  obtain ⟨hparsed, hreserved, hothers⟩ := (insertAuthContext_read_back lib hlib).1 _ _ _ hinserted
  exact ⟨lib, headers, inserted, rfl, hinserted, hparsed,
    Headers.Library.getAll_eq_nil (hreserved "x-wasi-auth-role" (by decide) (by decide)),
    (hothers "accept" (by decide)).trans rfl⟩

end WasiAuth.Metadata
