import Mathlib.Data.List.Infix
import WasiAuth.Base.Epoch
import WasiAuth.Identity.Tokens
import WasiAuth.Postgres.Commands

/-! # The ingress: its tracker and its caches

The tracker's counter carries the ghost floors of `Base/Epoch.lean`: a notification raises the floor to the
commit it announces, a local `invalidate` to the version the database has at that moment. Cached values
carry, as a ghost field, the version of the database they were loaded from.

The generation is an `AtomicU64` in the source and a `Nat` here, so that it never wraps; `current_epoch` loads the flag
and the generation one after the other, which is one step here.
-/

namespace WasiAuth

/-! ## The tracker -/

/-- `PostgresInvalidationTracker` (native.rs:54) -/
structure Tracker where
  trackerId : Nat
  /-- `generation`, with its floors. -/
  counter : Epoch.Counter
  healthy : Bool
  /-- Notifications that were sent and not yet processed, oldest first, each by the version it announces. -/
  inbox : List Nat

namespace Tracker

/-- After `connect`. -/
def connected (trackerId : Nat) : Tracker := ⟨trackerId, .start 1, true, []⟩

/-- native.rs:153 -/
def currentEpoch (t : Tracker) : Option AuthorizationInvalidationEpoch :=
  if t.healthy then some ⟨t.trackerId, t.counter.generation⟩ else none

def notify (version : Nat) (t : Tracker) : Tracker := { t with inbox := t.inbox ++ [version] }

/-- The listener takes the next notification off the connection. -/
def deliver (t : Tracker) : Option (Nat × Tracker) :=
  match t.inbox with
  | version :: inbox =>
    if t.healthy then some (version, { t with counter := t.counter.raise version, inbox := inbox }) else none
  | [] => none

def disconnect (t : Tracker) : Tracker := { t with healthy := false, counter := t.counter.raise 0 }

/-- `invalidate`, called when the database is at `version`. -/
def invalidate (version : Nat) (t : Tracker) : Tracker := { t with counter := t.counter.raise version }

end Tracker

/-- One of the eight tables with a statement trigger of migration 0009 has changed. A statement that writes
one of them notifies also when it changes no row. -/
def touchesContext (db db' : Db) : Bool :=
  decide (db'.users.rows ≠ db.users.rows) || decide (db'.sessions.rows ≠ db.sessions.rows) ||
    decide (db'.organizations.rows ≠ db.organizations.rows) || decide (db'.memberships.rows ≠ db.memberships.rows) ||
    decide (db'.rolePermissions.rows ≠ db.rolePermissions.rows) ||
    decide (db'.policyBundles.rows ≠ db.policyBundles.rows) ||
    decide (db'.systemAdministrators.rows ≠ db.systemAdministrators.rows) ||
    decide (db'.signingKeys.rows ≠ db.signingKeys.rows)

/-! ## The token cache -/

/-- What the ingress is started with. -/
structure IngressConfig (DecodingKey : Type) where
  verifier : AccessTokenVerifier DecodingKey
  /-- `cache_key`: SHA-256 of the token. -/
  cacheKey : String → Bytes
  tokenCacheCapacity : Nat
  cacheRevalidateMs : Nat
  nativeAuthorizationEnabled : Bool
  /-- `CedarProvider::new_validated` accepts the active bundle, or the built-in policy when there is none. -/
  validPolicy : Option PolicyBundle → Bool

/-- main.rs:97 -/
structure CachedToken where
  key : Bytes
  verified : VerifiedAccessToken
  epoch : AuthorizationInvalidationEpoch
  validatedAtMs : Nat
  /-- Ghost: the version the snapshot was loaded from. -/
  version : Nat
deriving DecidableEq

/-- A time: as `CallTime`, and in milliseconds for the age of a cache entry. -/
structure IngressTime extends CallTime where
  nowUnixMillis : Nat

section TokenCache

variable {DecodingKey : Type} (config : IngressConfig DecodingKey)

/-- The rest of the cache after `remove(position)`. -/
def removeCachedToken (token : String) (cache : List CachedToken) : List CachedToken :=
  cache.eraseP fun entry => decide (entry.key = config.cacheKey token)

/-- main.rs:176: an entry in use moves to the back, one that is expired or due is dropped. -/
def cachedToken (time : IngressTime) (token : String) (cache : List CachedToken) :
    Option CachedToken × List CachedToken :=
  match cache.find? fun entry => decide (entry.key = config.cacheKey token) with
  | none => (none, cache)
  | some entry =>
    let rest := removeCachedToken config token cache
    if entry.verified.expiresAtSeconds ≤ time.nowUnixSeconds ∨
        config.cacheRevalidateMs < time.nowUnixMillis - entry.validatedAtMs then (none, rest)
    else (some entry, rest ++ [entry])

/-- main.rs:194: the newest entry stands at the back, the oldest leave at the front. -/
def cacheToken (time : IngressTime) (token : String) (verified : VerifiedAccessToken)
    (epoch : AuthorizationInvalidationEpoch) (version : Nat) (cache : List CachedToken) : List CachedToken :=
  let cache := removeCachedToken config token cache ++
    [⟨config.cacheKey token, verified, epoch, time.nowUnixMillis, version⟩]
  cache.drop (cache.length - config.tokenCacheCapacity)

variable {config} {time : IngressTime} {token : String} {cache : List CachedToken}

theorem mem_of_mem_removeCachedToken {entry : CachedToken} (h : entry ∈ removeCachedToken config token cache) :
    entry ∈ cache := List.mem_of_mem_eraseP h

theorem mem_of_cachedToken : (∀ entry, (cachedToken config time token cache).1 = some entry → entry ∈ cache ∧
      time.nowUnixMillis - entry.validatedAtMs ≤ config.cacheRevalidateMs) ∧
    ∀ entry ∈ (cachedToken config time token cache).2, entry ∈ cache := by
  unfold cachedToken
  split
  · simp
  · rename_i found hfound
    have hmem := List.mem_of_find?_eq_some hfound
    dsimp only
    split
    · exact ⟨fun entry h => by simp at h, fun entry h => mem_of_mem_removeCachedToken h⟩
    · rename_i hdue
      simp only [not_or, not_le, not_lt] at hdue
      refine ⟨fun entry h => ?_, fun entry h => ?_⟩
      · cases h
        exact ⟨hmem, hdue.2⟩
      · rcases List.mem_append.1 h with h | h
        · exact mem_of_mem_removeCachedToken h
        · exact List.mem_singleton.1 h ▸ hmem

theorem mem_of_mem_cacheToken {verified : VerifiedAccessToken} {epoch : AuthorizationInvalidationEpoch}
    {version : Nat} {entry : CachedToken} (h : entry ∈ cacheToken config time token verified epoch version cache) :
    entry ∈ cache ∨ entry = ⟨config.cacheKey token, verified, epoch, time.nowUnixMillis, version⟩ := by
  rcases List.mem_append.1 (List.mem_of_mem_drop h) with h | h
  · exact .inl (mem_of_mem_removeCachedToken h)
  · exact .inr (List.mem_singleton.1 h)

end TokenCache

/-! ## The policy cache and the requests -/

/-- main.rs:81 -/
structure CachedCedar where
  provider : Option PolicyBundle
  epoch : AuthorizationInvalidationEpoch
  /-- Ghost: the version the bundle was loaded from. -/
  version : Nat
deriving DecidableEq

/-- `load_active_policy_bundle.sql` -/
def loadActivePolicyBundle (db : Db) : Option PolicyBundle :=
  db.policyBundles.rows.find? fun bundle => decide (bundle.status = .active)

inductive Method
  | get | head | options | post | put | patch | delete | other (name : String)
deriving DecidableEq

/-- main.rs:765 -/
def mutationMayChangeAuthorization (method : Method) (path : String) : Bool :=
  !(decide (method = .get) || decide (method = .head) || decide (method = .options)) &&
    !"/api/authorization/".toList.isPrefixOf path.toList &&
      !decide ("authorization.v1.AuthorizationService/".toList <:+: path.toList)

inductive Credential
  | bearer (token : String) | sessionCookie (sessionId : SessionId)
deriving DecidableEq

structure ProxyRequest where
  method : Method
  path : String
  credential : Option Credential
deriving DecidableEq

/-- The two routes the ingress answers itself. -/
def IngressConfig.answersNatively {DecodingKey : Type} (config : IngressConfig DecodingKey)
    (request : ProxyRequest) : Bool :=
  config.nativeAuthorizationEnabled && (match request.credential with | some (.bearer _) => true | _ => false) &&
    decide (request.method = .post) &&
      (decide (request.path = "/api/authorization/check") || decide (request.path = "/api/authorization/batch-check"))

end WasiAuth
