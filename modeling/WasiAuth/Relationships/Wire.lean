import WasiAuth.Identity.Context
import WasiAuth.Identity.Values
import WasiAuth.Postgres.Intents

/-! # What is sent to SpiceDB

The worker joins type and id of a row with a colon and the writer splits them again; for the rows the
trigger inserts this gives the row's own tuple back (`update?_of_payload`). A check names its
subject by issuer and user instead, with a `v1_` mark in front, so the two never meet
(`subjects_differ`).
-/

namespace WasiAuth

open Relational

/-! ## References -/

/-- spicedb.rs:772 -/
structure ObjectReference where
  objectType : String
  objectId : String
deriving DecidableEq

/-- spicedb.rs:747 -/
structure Relationship where
  resource : ObjectReference
  relation : String
  subject : ObjectReference
deriving DecidableEq

/-- `OPERATION_TOUCH` and `OPERATION_DELETE`. -/
inductive UpdateOperation
  | touch | delete
deriving DecidableEq

/-- spicedb.rs:741 -/
structure RelationshipUpdate where
  operation : UpdateOperation
  relationship : Relationship
deriving DecidableEq

def RelationshipTuple.relationship (t : RelationshipTuple) : Relationship where
  resource := ⟨t.resourceType, t.resourceId⟩
  relation := t.relation
  subject := ⟨t.subjectType, t.subjectId⟩

/-! ## The worker's side -/

/-- authentication.rs:961 -/
structure RelationshipOutboxIntent where
  operation : RelationshipOperation
  resource : String
  relation : String
  subject : String
  resourceRevision : Nat
deriving DecidableEq

/-- outbox.rs:880; a row of another kind is `InvalidRow`. -/
def decodeRelationshipLease (row : OutboxRow) : Option RelationshipOutboxIntent :=
  match row.payload with
  | .mail .. => none
  | .relationship operation tuple revision =>
    some
      { operation := operation
        resource := tuple.resourceType ++ ":" ++ tuple.resourceId
        relation := tuple.relation
        subject := tuple.subjectType ++ ":" ++ tuple.subjectId
        resourceRevision := revision }

/-- `str::split_once(':')`. -/
def splitReference (value : String) : Option ObjectReference :=
  (Text.splitOnce ':' value.toList).map fun (l, r) => ⟨String.ofList l, String.ofList r⟩

/-- The characters of a name; a text that holds no others is ASCII, so that its bytes are its characters. -/
def isNameChar (c : Char) : Bool := c.isLower || c.isDigit || decide (c = '_')

/-- spicedb.rs:716 -/
def isSpicedbName (value : String) : Bool :=
  decide (3 ≤ value.toList.length ∧ value.toList.length ≤ 64) && value.toList.head?.any Char.isLower &&
    value.toList.all isNameChar

def isIdChar (c : Char) : Bool := c.isAlphanum || decide (c ∈ ['/', '_', '|', '-', '=', '+'])

/-- spicedb.rs:727 -/
def isSpicedbId (value : String) : Bool :=
  decide (value.toList ≠ []) && decide (value.toList.length ≤ 1024) && value.toList.all isIdChar

/-- spicedb.rs:656 -/
def updateOperation : RelationshipOperation → UpdateOperation
  | .grant => .touch
  | .revoke => .delete

/-- spicedb.rs:635; `none` is `InvalidRequest`. -/
def relationshipUpdate (intent : RelationshipOutboxIntent) : Option RelationshipUpdate :=
  (splitReference intent.resource).bind fun resource =>
    (splitReference intent.subject).bind fun subject =>
      if isSpicedbName resource.objectType && isSpicedbId resource.objectId && isSpicedbName subject.objectType &&
          isSpicedbId subject.objectId && isSpicedbName intent.relation then
        some ⟨updateOperation intent.operation, ⟨resource, intent.relation, subject⟩⟩
      else none

def OutboxRow.update? (row : OutboxRow) : Option RelationshipUpdate :=
  (decodeRelationshipLease row).bind relationshipUpdate

theorem splitReference_append {objectType objectId : String} (h : ':' ∉ objectType.toList) :
    splitReference (objectType ++ ":" ++ objectId) = some ⟨objectType, objectId⟩ := by
  have hsep : ":".toList = [':'] := by simp
  unfold splitReference
  simp only [String.toList_append, hsep, List.append_assoc, List.singleton_append]
  rw [Text.splitOnce_append _ h]
  simp

theorem isSpicedbId_uuid (u : Uuid) : isSpicedbId u.text = true := by
  have hhex : ∀ d < 16, isIdChar (Text.hexDigit d) = true := by decide
  have hall : u.chars.all isIdChar = true := by
    refine List.all_eq_true.2 fun c hc => ?_
    rcases Uuid.mem_chars hc with rfl | ⟨d, hd, rfl⟩
    · decide
    · exact hhex d hd
  have hne : u.chars ≠ [] := List.ne_nil_of_length_pos (by simp)
  simp [isSpicedbId, hall, hne]

theorem update?_of_payload {row : OutboxRow} {operation : RelationshipOperation} {organization user : Uuid}
    {revision : Nat} (h : row.payload = .relationship operation (membershipTuple organization user) revision) :
    row.update? = some ⟨updateOperation operation, (membershipTuple organization user).relationship⟩ := by
  have hresource : splitReference ("organization" ++ ":" ++ organization.text) =
      some ⟨"organization", organization.text⟩ := splitReference_append (by decide)
  have hsubject : splitReference ("user" ++ ":" ++ user.text) = some ⟨"user", user.text⟩ :=
    splitReference_append (by decide)
  have hnames : isSpicedbName "organization" = true ∧ isSpicedbName "user" = true ∧ isSpicedbName "member" = true := by
    decide
  simp only [OutboxRow.update?, decodeRelationshipLease, h, membershipTuple, Option.bind_some, relationshipUpdate,
    hresource, hsubject, hnames, isSpicedbId_uuid, Bool.and_true, if_true]
  rfl

/-! ## The check's side -/

/-- spicedb.rs:677; `base64` is `URL_SAFE_NO_PAD.encode`. -/
def canonicalSubjectId (base64 : Bytes → String) (principal : Principal) : String :=
  "v1_" ++ base64 (utf8Bytes principal.issuer ++ [0] ++ utf8Bytes principal.userId.value)

/-- The subject `check` and `batch_check` send (spicedb.rs:258-263, 352-357). -/
def checkSubject (base64 : Bytes → String) (principal : Principal) : ObjectReference :=
  ⟨"user", canonicalSubjectId base64 principal⟩

/-- A UUID does not start with `v`. -/
theorem uuid_ne_canonicalSubjectId (base64 : Bytes → String) (principal : Principal) (user : Uuid) :
    user.text ≠ canonicalSubjectId base64 principal := by
  intro hid
  have hhead : user.chars.head? = some 'v' := by
    have hv : "v1_".toList = ['v', '1', '_'] := by simp
    rw [← Uuid.toList_text, hid]
    unfold canonicalSubjectId
    simp only [String.toList_append, hv, List.cons_append, List.head?_cons]
  have hdigit : ∀ d < 16, 'v' ≠ Text.hexDigit d := by decide
  rcases Uuid.mem_chars (List.mem_of_mem_head? hhead) with hdash | ⟨d, hd, hv⟩
  · cases hdash
  · exact hdigit d hd hv

/-- **A grant is not visible to the check**: the subject the worker writes for a membership intent is a
UUID, the subject of a check starts with `v1_`. -/
theorem subjects_differ (base64 : Bytes → String) (principal : Principal) (outboxId organization user : Uuid)
    (revision : Nat) (operation : RelationshipOperation) (transitionAt : Int) :
    ∃ update, (intentRow outboxId organization user revision operation transitionAt).update? = some update ∧
      update.relationship.subject ≠ checkSubject base64 principal := by
  refine ⟨_, update?_of_payload rfl, fun h => ?_⟩
  exact uuid_ne_canonicalSubjectId base64 principal user (congrArg ObjectReference.objectId h)

def base64Digit (d : Nat) : Char :=
  if d < 26 then Char.ofNat ('A'.toNat + d)
  else if d < 52 then Char.ofNat ('a'.toNat + (d - 26))
  else if d < 62 then Char.ofNat ('0'.toNat + (d - 52))
  else if d = 62 then '-' else '_'

/-- The URL-safe encoding without padding: three bytes make four digits, a rest of two makes three and a
rest of one makes two. -/
def urlSafeNoPad : Bytes → List Char
  | a :: b :: c :: rest =>
    let n := a.toNat * 65536 + b.toNat * 256 + c.toNat
    base64Digit (n / 262144) :: base64Digit (n / 4096 % 64) :: base64Digit (n / 64 % 64) ::
      base64Digit (n % 64) :: urlSafeNoPad rest
  | [a, b] =>
    let n := a.toNat * 1024 + b.toNat * 4
    [base64Digit (n / 4096), base64Digit (n / 64 % 64), base64Digit (n % 64)]
  | [a] => [base64Digit (a.toNat / 4), base64Digit (a.toNat % 4 * 16)]
  | [] => []

theorem base64Digit_inj {d e : Nat} (hd : d < 64) (he : e < 64) (h : base64Digit d = base64Digit e) : d = e := by
  have hall : ∀ d < 64, ∀ e < 64, base64Digit d = base64Digit e → d = e := by decide +kernel
  exact hall d hd e he h

/-- Equal digits at each place are equal numbers, whose bytes `omega` reads off. -/
theorem urlSafeNoPad_inj : ∀ {x y : Bytes}, urlSafeNoPad x = urlSafeNoPad y → x = y
  | a :: b :: c :: rest, a' :: b' :: c' :: rest', h => by
    simp only [urlSafeNoPad, List.cons.injEq] at h
    obtain ⟨h₁, h₂, h₃, h₄, hrest⟩ := h
    have ha := And.intro a.toNat_lt a'.toNat_lt
    have hb := And.intro b.toNat_lt b'.toNat_lt
    have hc := And.intro c.toNat_lt c'.toNat_lt
    have h₁ := base64Digit_inj (by omega) (by omega) h₁
    have h₂ := base64Digit_inj (by omega) (by omega) h₂
    have h₃ := base64Digit_inj (by omega) (by omega) h₃
    have h₄ := base64Digit_inj (by omega) (by omega) h₄
    rw [urlSafeNoPad_inj hrest, UInt8.toNat_inj.1 (by omega : a.toNat = a'.toNat),
      UInt8.toNat_inj.1 (by omega : b.toNat = b'.toNat), UInt8.toNat_inj.1 (by omega : c.toNat = c'.toNat)]
  | [a, b], [a', b'], h => by
    simp only [urlSafeNoPad, List.cons.injEq] at h
    obtain ⟨h₁, h₂, h₃, -⟩ := h
    have ha := And.intro a.toNat_lt a'.toNat_lt
    have hb := And.intro b.toNat_lt b'.toNat_lt
    have h₁ := base64Digit_inj (by omega) (by omega) h₁
    have h₂ := base64Digit_inj (by omega) (by omega) h₂
    have h₃ := base64Digit_inj (by omega) (by omega) h₃
    rw [UInt8.toNat_inj.1 (by omega : a.toNat = a'.toNat), UInt8.toNat_inj.1 (by omega : b.toNat = b'.toNat)]
  | [a], [a'], h => by
    simp only [urlSafeNoPad, List.cons.injEq] at h
    obtain ⟨h₁, h₂, -⟩ := h
    have ha := And.intro a.toNat_lt a'.toNat_lt
    have h₁ := base64Digit_inj (by omega) (by omega) h₁
    have h₂ := base64Digit_inj (by omega) (by omega) h₂
    rw [UInt8.toNat_inj.1 (by omega : a.toNat = a'.toNat)]
  | [], [], _ => rfl
  | _ :: _ :: _ :: _, [_, _], h | _ :: _ :: _ :: _, [_], h | _ :: _ :: _ :: _, [], h
  | [_, _], _ :: _ :: _ :: _, h | [_, _], [_], h | [_, _], [], h
  | [_], _ :: _ :: _ :: _, h | [_], [_, _], h | [_], [], h
  | [], _ :: _ :: _ :: _, h | [], [_, _], h | [], [_], h => by simp [urlSafeNoPad] at h

/-- The grant of user 1 in organization 3, and a check for the same user. -/
theorem granted_subject_is_not_checked :
    (intentRow ⟨101⟩ ⟨3⟩ ⟨1⟩ 2 .grant 0).update? = some
        ⟨.touch, ⟨⟨"organization", "00000000-0000-0000-0000-000000000003"⟩, "member",
          ⟨"user", "00000000-0000-0000-0000-000000000001"⟩⟩⟩ ∧
      checkSubject (fun bytes => String.ofList (urlSafeNoPad bytes))
          ⟨⟨"00000000-0000-0000-0000-000000000001", by decide +kernel⟩, "wasi-auth", false, by decide +kernel⟩ =
        ⟨"user", "v1_d2FzaS1hdXRoADAwMDAwMDAwLTAwMDAtMDAwMC0wMDAwLTAwMDAwMDAwMDAwMQ"⟩ := by
  decide +kernel

end WasiAuth
