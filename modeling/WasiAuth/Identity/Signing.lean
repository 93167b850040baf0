import WasiAuth.Identity.Cached
import WasiAuth.Postgres.SigningKeys

/-! # Signing keys and the tokens they have signed

A rotation that retires the previous key leaves every token it has signed valid. One that keeps the previous key stages
it again (`next`), and the database accepts tokens of active and retired keys only (load_request_context.sql:46-54):
those tokens are refused from then on, although the key ring itself accepts every key that is not revoked.
-/

namespace WasiAuth

open Relational Transition

/-! ## Tokens across a rotation -/

section Rotation
variable {DecodingKey : Type} {db db' : Db} {p : RotateSigningKey} {kid : String}

/-- The rotation turns the key from active to `next`. -/
def RotateSigningKey.stages (p : RotateSigningKey) (kid : String) (db : Db) : Bool :=
  !p.retirePrevious && (db.signingKeys.find? kid).any p.demotes

/-- A key the database accepted is accepted after the rotation, unless the rotation stages it. -/
theorem verifiesKey_rotate {k : SigningKey} (hrotate : rotateSigningKey p db = .ok (some k, db'))
    (h : db.verifiesKey kid = true) : db'.verifiesKey kid = !p.stages kid db := by
  rcases rotateSigningKey_cases p db with ⟨actor, target, -, htarget, hcase⟩ | ⟨-, hcase⟩ <;>
    cases hcase.symm.trans hrotate
  obtain ⟨hmem, hid, hstatus⟩ := rotationTarget_eq_some htarget
  obtain ⟨key, hkey, hok⟩ := (Option.any_eq_true _ _).1 h
  obtain ⟨hkeyMem, rfl⟩ := Table.find?_eq_some.1 hkey
  have hupdated : (if p.demotes key then p.changed key else key) ∈ db.signingKeys.update p.demotes p.changed :=
    Table.mem_update_of_mem hkeyMem
  simp only [RotateSigningKey.stages, hkey, Option.any_some]
  by_cases hsame : key.keyId = p.keyId
  · -- the key itself is activated
    have hfind : ((db.signingKeys.update p.demotes p.changed).set (p.activated target)).find? key.keyId =
        some (p.activated target) := by
      rw [hsame, ← hid]
      exact Table.find?_of_mem ((active_of_rotate htarget).2 rfl).1
    simp only [Db.verifiesKey, hfind, Option.any_some]
    simp [RotateSigningKey.activated, RotateSigningKey.demotes, hsame]
  · have hne : key.keyId ≠ (p.activated target).keyId := fun he => hsame (he.trans hid)
    have hfind : ((db.signingKeys.update p.demotes p.changed).set (p.activated target)).find? key.keyId =
        some (if p.demotes key then p.changed key else key) := by
      rw [Table.find?_set_ne hne]
      refine Table.find?_eq_some.2 ⟨hupdated, ?_⟩
      split <;> rfl
    simp only [Db.verifiesKey, hfind, Option.any_some]
    by_cases hdemoted : p.demotes key = true
    · cases hretire : p.retirePrevious <;> simp [hdemoted, RotateSigningKey.changed, hretire]
    · simpa [hdemoted] using hok

theorem acceptsWith_rotate {k : SigningKey} {time : CallTime} {decoded : DecodedAccessToken} {row : ContextRow}
    (hrotate : rotateSigningKey p db = .ok (some k, db')) (hkid : decoded.kid ≠ "")
    (h : AcceptsWith time decoded db row) (row' : ContextRow) :
    AcceptsWith time decoded db' row' ↔ p.stages decoded.kid db = false ∧ row' = row := by
  obtain ⟨⟨id, hid, hload⟩, hdecodes, hsub, htenant⟩ := h
  obtain ⟨session, user, hlive, hverifies, hmay, rfl⟩ := (Db.loadRequestContext_eq_some hkid).1 hload
  have hkeys := verifiesKey_rotate hrotate hverifies
  rcases rotateSigningKey_cases p db with ⟨actor, target, -, -, hcase⟩ | ⟨-, hcase⟩ <;>
    cases hcase.symm.trans hrotate
  constructor
  · rintro ⟨⟨id', hid', hload'⟩, -, -, -⟩
    cases hid.symm.trans hid'
    obtain ⟨session', user', hlive', hverifies', -, rfl⟩ := (Db.loadRequestContext_eq_some hkid).1 hload'
    cases hlive.symm.trans hlive'
    rw [hkeys, Bool.not_eq_true'] at hverifies'
    exact ⟨hverifies', rfl⟩
  · rintro ⟨hstages, rfl⟩
    refine ⟨⟨id, hid, (Db.loadRequestContext_eq_some hkid).2 ⟨session, user, hlive, ?_, hmay, rfl⟩⟩, hdecodes, hsub,
      htenant⟩
    rw [hkeys, hstages]
    rfl

/-- **A rotation and the tokens in use.** A token the database accepts just before a successful rotation is accepted,
with the same result, just after it, unless the rotation keeps the previous key and that key has signed the token. -/
theorem verify_after_rotation {v : AccessTokenVerifier DecodingKey} {time : CallTime} {token kid : String}
    {requestId requestId' : RequestId} {k : SigningKey} {value : VerifiedAccessToken}
    (hrotate : rotateSigningKey p db = .ok (some k, db')) (hkid : accessTokenKeyId v.jwt token = some kid)
    (h : verify v time token requestId db = .ok value) :
    (p.stages kid db = false → verify v time token requestId' db' = .ok value) ∧
      (p.stages kid db = true → ∀ value', verify v time token requestId' db' ≠ .ok value') := by
  obtain ⟨decoded, row, hdecoded, haccepts, rfl⟩ := verify_eq_ok.1 h
  obtain ⟨hdecodedKid, hvalid⟩ := validKid_of_decode hdecoded
  cases hkid.symm.trans hdecodedKid
  have hafter := acceptsWith_rotate hrotate (ne_empty_of_validKid hvalid) haccepts
  refine ⟨fun hstages => verify_eq_ok.2 ⟨decoded, row, hdecoded, (hafter row).2 ⟨hstages, rfl⟩, rfl⟩, ?_⟩
  intro hstages value' hvalue'
  obtain ⟨decoded', row', hdecoded', haccepts', -⟩ := verify_eq_ok.1 hvalue'
  cases hdecoded.symm.trans hdecoded'
  rw [((hafter row').1 haccepts').1] at hstages
  cases hstages

end Rotation

def rotateToK2 (retirePrevious : Bool) : RotateSigningKey where
  sessionId := ⟨2⟩
  keyId := "k2"
  retirePrevious := retirePrevious
  nowMs := 0

theorem exists_rotation {db : Db} {retirePrevious : Bool} {p : Db → Bool}
    (h : ((rotateSigningKey (rotateToK2 retirePrevious) db).toOption.any fun r => r.1.isSome && p r.2) = true) :
    ∃ k db', rotateSigningKey (rotateToK2 retirePrevious) db = .ok (some k, db') ∧ p db' = true := by
  obtain ⟨⟨r, db'⟩, hok, htest⟩ := exists_ok_of_any h
  obtain ⟨hsome, hp⟩ := Bool.and_eq_true_iff.1 htest
  obtain ⟨k, rfl⟩ := Option.isSome_iff_exists.1 hsome
  exact ⟨k, db', hok, hp⟩

theorem exists_before_rotation : ∃ db value, Reachable postgres db ∧
    verify founderVerifier ⟨10, 10⟩ "k1" sampleRequest db = .ok value ∧
      (∃ k db', rotateSigningKey (rotateToK2 true) db = .ok (some k, db')) ∧
        ∃ k db', rotateSigningKey (rotateToK2 false) db = .ok (some k, db') ∧
          verify founderVerifier ⟨10, 10⟩ "k1" sampleRequest db' = .error .invalidToken := by
  obtain ⟨db, hreach, htest⟩ := exists_reachable_of_run postgres (foundAcme ++ configureKeys)
    (fun db => (verify founderVerifier ⟨10, 10⟩ "k1" sampleRequest db).toOption.any (fun _ => true) &&
      ((rotateSigningKey (rotateToK2 true) db).toOption.any (fun r => r.1.isSome && true) &&
        (rotateSigningKey (rotateToK2 false) db).toOption.any fun r => r.1.isSome &&
          decide (verify founderVerifier ⟨10, 10⟩ "k1" sampleRequest r.2 = .error .invalidToken)))
    (by decide +kernel)
  obtain ⟨hverify, htest⟩ := Bool.and_eq_true_iff.1 htest
  obtain ⟨hretire, hstage⟩ := Bool.and_eq_true_iff.1 htest
  obtain ⟨value, hvalue, -⟩ := exists_ok_of_any hverify
  obtain ⟨k, db₁, hrotate, -⟩ := exists_rotation (p := fun _ => true) hretire
  obtain ⟨k', db₂, hrotate', hrefused⟩ := exists_rotation
    (p := fun db => decide (verify founderVerifier ⟨10, 10⟩ "k1" sampleRequest db = .error .invalidToken)) hstage
  exact ⟨db, value, hreach, hvalue, ⟨k, db₁, hrotate⟩, k', db₂, hrotate', of_decide_eq_true hrefused⟩

theorem founder_after_retirement : ∃ db value k db', Reachable postgres db ∧
    rotateSigningKey (rotateToK2 true) db = .ok (some k, db') ∧
      verify founderVerifier ⟨10, 10⟩ "k1" sampleRequest db = .ok value ∧
        verify founderVerifier ⟨10, 10⟩ "k1" sampleRequest db' = .ok value := by
  obtain ⟨db, value, hreach, hvalue, ⟨k, db', hrotate⟩, -⟩ := exists_before_rotation
  exact ⟨db, value, k, db', hreach, hrotate, hvalue, (verify_after_rotation hrotate rfl hvalue).1 rfl⟩

/-- The previous key is kept, and its tokens are refused. -/
theorem founder_after_staging : ∃ db value k db', Reachable postgres db ∧
    rotateSigningKey (rotateToK2 false) db = .ok (some k, db') ∧
      verify founderVerifier ⟨10, 10⟩ "k1" sampleRequest db = .ok value ∧
        verify founderVerifier ⟨10, 10⟩ "k1" sampleRequest db' = .error .invalidToken := by
  obtain ⟨db, value, hreach, hvalue, -, k, db', hrotate, hrefused⟩ := exists_before_rotation
  exact ⟨db, value, k, db', hreach, hrotate, hvalue, hrefused⟩

end WasiAuth
