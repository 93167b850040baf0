import WasiAuth.Postgres.Queries

/-! # Signing keys and policy bundles

`rotate_signing_key.sql`, `sync_signing_keys.sql` and `publish_policy_bundle.sql`. Both tables have a
partial unique index that allows one active row; PostgreSQL checks it at every row write.
-/

namespace WasiAuth

/-! ## Signing keys -/

/-- `auth_one_active_signing_key_idx` would be violated by making `keyId` active. -/
def Db.otherActiveKey (keyId : String) (db : Db) : Bool :=
  db.signingKeys.rows.any fun k => decide (k.keyId ≠ keyId ∧ k.status = .active)

/-- `rotate_signing_key.sql`. -/
structure RotateSigningKey where
  sessionId : Uuid
  keyId : String
  retirePrevious : Bool
  nowMs : Int

/-- `changed_previous`: the active key steps down unless it is the target itself. -/
def Db.changePrevious (p : RotateSigningKey) (db : Db) : Db :=
  { db with
    signingKeys := db.signingKeys.update (fun k => decide (k.keyId ≠ p.keyId ∧ k.status = .active))
      fun k => { k with
        status := if p.retirePrevious then .retired else .next
        retiredAtMs := if p.retirePrevious then some p.nowMs else none
        activatedAtMs := none } }

/-- signing.rs:159 -/
def rotateSigningKey (p : RotateSigningKey) (db : Db) : Except SqlError (Option SigningKey × Db) :=
  match db.administratorActor p.sessionId p.nowMs,
      (db.signingKeys.find? p.keyId).filter fun k => decide (k.status ≠ .revoked) && k.secretReference.isSome with
  | some _, some target =>
    -- `change_guard` makes `activated` wait for `changed_previous`
    let changed := db.changePrevious p
    if changed.otherActiveKey p.keyId then .error .uniqueViolation
    else
      let activated := { target with
        status := .active, activatedAtMs := some p.nowMs, retiredAtMs := none, revokedAtMs := none }
      .ok (some activated, { changed with signingKeys := changed.signingKeys.set activated })
  | _, _ => .ok (none, db)

/-- One element of the JSON array `$1` of `sync_signing_keys.sql` (tokens.rs `descriptors`). -/
structure KeyDescriptor where
  kid : String
  algorithm : SigningAlgorithm
  status : SigningKeyStatus
  publicJwk : String
  hasPrivateMaterial : Bool

/-- `sync_signing_keys.sql`. -/
structure SyncSigningKeys where
  configured : List KeyDescriptor
  keyVersion : String
  nowMs : Int

/-- The row `retired_missing` selects: a usable key that is no longer configured. -/
def SyncSigningKeys.missing (p : SyncSigningKeys) (k : SigningKey) : Bool :=
  decide (k.status = .active ∨ k.status = .next) && !p.configured.any fun d => decide (d.kid = k.keyId)

/-- The columns `retired_missing` assigns. -/
def SyncSigningKeys.retire (p : SyncSigningKeys) (k : SigningKey) : SigningKey :=
  { k with status := .retired, activatedAtMs := none, retiredAtMs := some p.nowMs }

/-- `retired`: keys that are no longer configured. -/
def Db.retireMissing (p : SyncSigningKeys) (db : Db) : Db :=
  { db with signingKeys := db.signingKeys.update p.missing p.retire }

/-- `ON CONFLICT (key_id) DO UPDATE`: the material of a stored key is refreshed and its status kept. -/
def SyncSigningKeys.refreshed (p : SyncSigningKeys) (d : KeyDescriptor) (key : SigningKey) : SigningKey :=
  { key with
    algorithm := d.algorithm, publicJwk := d.publicJwk, keyVersion := p.keyVersion
    secretReference := some ("runtime-key-ring:" ++ d.kid) }

/-- The row `synced` inserts. -/
def SyncSigningKeys.fresh (p : SyncSigningKeys) (d : KeyDescriptor) : SigningKey where
  keyId := d.kid
  algorithm := d.algorithm
  status := d.status
  publicJwk := d.publicJwk
  keyVersion := p.keyVersion
  secretReference := some ("runtime-key-ring:" ++ d.kid)
  createdAtMs := p.nowMs
  activatedAtMs := if d.status = .active then some p.nowMs else none
  retiredAtMs := if d.status = .retired then some p.nowMs else none
  revokedAtMs := if d.status = .revoked then some p.nowMs else none

/-- `synced` for one descriptor. -/
def Db.syncKey (p : SyncSigningKeys) (d : KeyDescriptor) (db : Db) : Except SqlError Db :=
  match db.signingKeys.find? d.kid with
  | some key => .ok { db with signingKeys := db.signingKeys.set (p.refreshed d key) }
  | none =>
    if decide (d.status = .active) && db.otherActiveKey d.kid then .error .uniqueViolation
    else do
      let keys ← db.signingKeys.insertOr .uniqueViolation (p.fresh d)
      pure { db with signingKeys := keys }

def Db.syncKeys (p : SyncSigningKeys) : List KeyDescriptor → Db → Except SqlError Db
  | [], db => .ok db
  | d :: ds, db => do
    let db ← db.syncKey p d
    syncKeys p ds db

/-- A descriptor without private material is not stored. Two descriptors of one key would make the
upsert touch a row twice, which PostgreSQL refuses. -/
def syncSigningKeys (p : SyncSigningKeys) (db : Db) : Except SqlError (Nat × Db) :=
  let usable := p.configured.filter (·.hasPrivateMaterial)
  if (usable.map (·.kid)).Nodup then do
    let db ← (db.retireMissing p).syncKeys p usable
    pure (usable.length, db)
  else .error .uniqueViolation

/-! ## Policy bundles -/

/-- `publish_policy_bundle.sql`. The CTEs `retired` and `published` do not depend on each other, so
either may run first; `retireFirst` is the order PostgreSQL takes. -/
structure PublishPolicyBundle where
  sessionId : Uuid
  policyRevision : String
  cedarSchema : String
  cedarPolicy : String
  entities : String
  checksum : Bytes
  nowMs : Int
  retireFirst : Bool

/-- `retired`: every active bundle of the snapshot with another checksum. -/
def Db.retireBundles (snapshot : Db) (checksum : Bytes) (db : Db) : Db :=
  { db with
    policyBundles := db.policyBundles.update
      (fun b => (snapshot.policyBundles.find? b.policyRevision).any fun old =>
        decide (old.status = .active ∧ old.checksum ≠ checksum))
      fun b => { b with status := .retired } }

/-- `auth_one_active_policy_idx` would be violated by making the revision active. -/
def Db.otherActiveBundle (policyRevision : String) (db : Db) : Bool :=
  db.policyBundles.rows.any fun b => decide (b.policyRevision ≠ policyRevision ∧ b.status = .active)

/-- `published`: a new active bundle, or the one with that checksum made active again. -/
def Db.putBundle (p : PublishPolicyBundle) (user : Uuid) (db : Db) : Except SqlError (PolicyBundle × Db) :=
  match db.policyBundles.rows.find? fun b => decide (b.checksum = p.checksum) with
  | some bundle =>
    if db.otherActiveBundle bundle.policyRevision then .error .uniqueViolation
    else
      let active := { bundle with status := .active, activatedAtMs := some p.nowMs }
      .ok (active, { db with policyBundles := db.policyBundles.set active })
  | none =>
    if db.otherActiveBundle p.policyRevision then .error .uniqueViolation
    else do
      let active : PolicyBundle :=
        { policyRevision := p.policyRevision, cedarSchema := p.cedarSchema, cedarPolicy := p.cedarPolicy,
          entities := p.entities, checksum := p.checksum, status := .active, createdBy := user,
          createdAtMs := p.nowMs, activatedAtMs := some p.nowMs }
      let bundles ← db.policyBundles.insertOr .uniqueViolation active
      pure (active, { db with policyBundles := bundles })

def publishPolicyBundle (p : PublishPolicyBundle) (db : Db) : Except SqlError (Option PolicyBundle × Db) :=
  match db.administratorActor p.sessionId p.nowMs with
  | none => .ok (none, db)
  | some (_, user) => do
    let first := if p.retireFirst then Db.retireBundles db p.checksum db else db
    let (bundle, published) ← first.putBundle p user.userId
    pure (some bundle, if p.retireFirst then published else Db.retireBundles db p.checksum published)

end WasiAuth
