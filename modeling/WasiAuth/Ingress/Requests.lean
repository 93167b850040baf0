import WasiAuth.Base.Transition
import WasiAuth.Ingress.Caches

/-! # The ingress at work

Any number of requests run at once (`proxy_request`, main.rs:430-540), each a sequence of steps between which
anything else may happen: a reading of the epoch, a look into a cache, a query, a wait for a lock. The
database commits on its own and for forwarded requests; the tracker processes the notifications in order and
as late as it likes.

| here | source (main.rs) |
|---|---|
| `readEpoch` … `storeToken` | `NativeAuthenticator::authenticate` 103-160 |
| `readPolicyEpoch` … `finishPolicyLoad` | `current_cedar`, `load_consistent_cedar` 636-670 |

What a request was given is kept in `source` and `policy`. The ghost data are the versions, what the tracker
had processed when an epoch was read, and which mutations had been relayed when a request came in.
-/

namespace WasiAuth

/-- A forwarded mutation. -/
structure Mutation where
  /-- The version when the ingress called `invalidate`, right before forwarding. -/
  invalidatedAt : Nat
  /-- The versions the backend committed for it. -/
  commits : List Nat
deriving DecidableEq

/-- What the request was authenticated with. -/
inductive Source
  | anonymous
  /-- From the token cache, `ageMs` after it was stored; `processed` is the last commit the tracker had processed
  when the epoch was read. -/
  | cached (snapshot : VerifiedAccessToken) (version processed ageMs : Nat)
  | loaded (version : Nat)
deriving DecidableEq

/-- Which policy the request was decided with. -/
inductive PolicySource
  | cached (provider : Option PolicyBundle) (version processed : Nat)
  | loaded (version : Nat)
deriving DecidableEq

/-- Where a request is in `proxy_request`. -/
inductive RequestPhase
  | received
  | epochRead (before : Option AuthorizationInvalidationEpoch) (processed : Nat)
  | querying (before : Option AuthorizationInvalidationEpoch)
  | verified (before : Option AuthorizationInvalidationEpoch) (snapshot : VerifiedAccessToken) (version : Nat)
  | storing (after : AuthorizationInvalidationEpoch) (snapshot : VerifiedAccessToken) (version : Nat)
  | authenticated
  | policyEpochRead (current : AuthorizationInvalidationEpoch) (processed : Nat)
  | policyWaiting
  | policyLocked
  | policyAttempt (left : Nat)
  | policyQuerying (left : Nat) (before : AuthorizationInvalidationEpoch)
  | policyLoaded (left : Nat) (before : AuthorizationInvalidationEpoch) (provider : Option PolicyBundle) (version : Nat)
  | forwarded (mutation : Option Mutation)
  | answered
  | failed
deriving DecidableEq

structure IngressRequest where
  request : ProxyRequest
  /-- Ghost: the mutations whose responses had been relayed when the request came in. -/
  relayedBefore : List Mutation
  source : Source := .anonymous
  policy : Option PolicySource := none
  phase : RequestPhase := .received
deriving DecidableEq

/-- `AppState` (main.rs:63), with the database and the requests. -/
structure Ingress where
  /-- The earlier versions, oldest first. -/
  past : List Db
  db : Db
  tracker : Tracker
  /-- Ghost: the last commit whose notification the tracker has processed. -/
  processed : Nat
  tokenCache : List CachedToken
  /-- Empty until the startup load. -/
  cedar : Option CachedCedar
  /-- The request that holds the write lock of `cedar`. -/
  cedarWriter : Option Nat
  requests : List IngressRequest
  /-- Ghost: the relayed mutations. -/
  relayed : List Mutation

namespace Ingress

variable {DecodingKey : Type} (config : IngressConfig DecodingKey)

/-- The number of commits so far. -/
def version (w : Ingress) : Nat := w.past.length

def set (i : Nat) (r : IngressRequest) (w : Ingress) : Ingress := { w with requests := w.requests.set i r }

def withRequest (i : Nat) (w : Ingress) (f : IngressRequest → Option Ingress) : Option Ingress :=
  w.requests[i]?.bind f

/-! ## Database and tracker -/

/-- A transaction commits; one that touches the context notifies. -/
def commit (c : Command) (notify : Bool) (w : Ingress) : Option Ingress :=
  match c.execute w.db with
  | .error _ => none
  | .ok db' =>
    if touchesContext w.db db' && !notify then none
    else some { w with
      past := w.past ++ [w.db]
      db := db'
      tracker := if notify then w.tracker.notify (w.version + 1) else w.tracker }

def deliver (w : Ingress) : Option Ingress :=
  w.tracker.deliver.map fun (version, tracker) => { w with tracker := tracker, processed := version }

/-- `load_consistent_cedar` at startup. The epoch stood still around the query, so the whole load counts as
one step at the query. -/
def start (w : Ingress) : Option Ingress :=
  match w.cedar, w.tracker.currentEpoch with
  | none, some epoch =>
    let provider := loadActivePolicyBundle w.db
    if config.validPolicy provider then some { w with cedar := some ⟨provider, epoch, w.version⟩ } else none
  | _, _ => none

def receive (request : ProxyRequest) (w : Ingress) : Option Ingress :=
  if w.cedar.isSome then some { w with requests := w.requests ++ [{ request := request, relayedBefore := w.relayed }] }
  else none

/-! ## Authentication -/

/-- `epoch_before`. -/
def readEpoch (i : Nat) (w : Ingress) : Option Ingress :=
  w.withRequest i fun r =>
    match r.phase, r.request.credential with
    | .received, some (.bearer _) =>
      some (w.set i { r with phase := .epochRead w.tracker.currentEpoch w.processed })
    | _, _ => none

/-- The look into the token cache, and what `verify_invalidation_cached` says to a hit. -/
def lookup (i : Nat) (time : IngressTime) (w : Ingress) : Option Ingress :=
  w.withRequest i fun r =>
    match r.phase, r.request.credential with
    | .epochRead before processed, some (.bearer token) =>
      let (found, cache) := cachedToken config time token w.tokenCache
      let w := { w with tokenCache := cache }
      match found, before with
      | some entry, some current =>
        match verifyInvalidationCached config.verifier time.toCallTime token entry.verified entry.epoch current with
        | .ok (some _) =>
          let ageMs := time.nowUnixMillis - entry.validatedAtMs
          some (w.set i
            { r with source := .cached entry.verified entry.version processed ageMs, phase := .authenticated })
        | .ok none => some (w.set i { r with phase := .querying before })
        | .error _ =>
          some ({ w with tokenCache := removeCachedToken config token w.tokenCache }.set i { r with phase := .failed })
      | _, _ => some (w.set i { r with phase := .querying before })
    | _, _ => none

/-- `verify`: one query, of the version the database has when it runs. -/
def queryToken (i : Nat) (time : CallTime) (requestId : RequestId) (w : Ingress) : Option Ingress :=
  w.withRequest i fun r =>
    match r.phase, r.request.credential with
    | .querying before, some (.bearer token) =>
      match verify config.verifier time token requestId w.db with
      | .ok snapshot => some (w.set i { r with phase := .verified before snapshot w.version })
      | .error _ => some (w.set i { r with phase := .failed })
    | _, _ => none

/-- `epoch_after`, and its comparison with `epoch_before`. -/
def readEpochAfter (i : Nat) (w : Ingress) : Option Ingress :=
  w.withRequest i fun r =>
    match r.phase with
    | .verified before snapshot version =>
      match before, w.tracker.currentEpoch with
      | some before, some after =>
        if before = after then some (w.set i { r with phase := .storing after snapshot version })
        else some (w.set i { r with source := .loaded version, phase := .authenticated })
      | _, _ => some (w.set i { r with source := .loaded version, phase := .authenticated })
    | _ => none

/-- `cache_token`. -/
def storeToken (i : Nat) (time : IngressTime) (w : Ingress) : Option Ingress :=
  w.withRequest i fun r =>
    match r.phase, r.request.credential with
    | .storing after snapshot version, some (.bearer token) =>
      some ({ w with tokenCache := cacheToken config time token snapshot after version w.tokenCache }.set i
        { r with source := .loaded version, phase := .authenticated })
    | _, _ => none

/-- A session cookie is looked up in the database every time; a request may also have no credential. -/
def authenticateUncached (i : Nat) (time : CallTime) (requestId : RequestId) (w : Ingress) : Option Ingress :=
  w.withRequest i fun r =>
    match r.phase, r.request.credential with
    | .received, some (.sessionCookie sessionId) =>
      match loadVerifiedSession sessionId requestId time.nowUnixSeconds w.db with
      | .ok _ => some (w.set i { r with source := .loaded w.version, phase := .authenticated })
      | .error _ => some (w.set i { r with phase := .failed })
    | .received, none => some (w.set i { r with phase := .authenticated })
    | _, _ => none

/-! ## The Cedar policy -/

/-- `current_epoch` at the head of `current_cedar`. -/
def readPolicyEpoch (i : Nat) (w : Ingress) : Option Ingress :=
  w.withRequest i fun r =>
    match r.phase with
    | .authenticated =>
      if config.answersNatively r.request then
        match w.tracker.currentEpoch with
        | some current => some (w.set i { r with phase := .policyEpochRead current w.processed })
        | none => some (w.set i { r with phase := .failed })
      else none
    | _ => none

def readPolicy (i : Nat) (w : Ingress) : Option Ingress :=
  w.withRequest i fun r =>
    match r.phase, w.cedar, w.cedarWriter with
    | .policyEpochRead current processed, some cedar, none =>
      if cedar.epoch = current then
        some (w.set i { r with policy := some (.cached cedar.provider cedar.version processed), phase := .answered })
      else some (w.set i { r with phase := .policyWaiting })
    | _, _, _ => none

def lockPolicy (i : Nat) (w : Ingress) : Option Ingress :=
  w.withRequest i fun r =>
    match r.phase, w.cedarWriter with
    | .policyWaiting, none => some ({ w with cedarWriter := some i }.set i { r with phase := .policyLocked })
    | _, _ => none

def recheckPolicy (i : Nat) (w : Ingress) : Option Ingress :=
  w.withRequest i fun r =>
    match r.phase, w.cedar, w.tracker.currentEpoch with
    | .policyLocked, some cedar, some current =>
      if cedar.epoch = current then
        some ({ w with cedarWriter := none }.set i
          { r with policy := some (.cached cedar.provider cedar.version w.processed), phase := .answered })
      else some (w.set i { r with phase := .policyAttempt 3 })
    | .policyLocked, _, none => some ({ w with cedarWriter := none }.set i { r with phase := .failed })
    | _, _, _ => none

/-- `epoch_before` of one of the three attempts. -/
def beginPolicyLoad (i : Nat) (w : Ingress) : Option Ingress :=
  w.withRequest i fun r =>
    match r.phase, w.tracker.currentEpoch with
    | .policyAttempt (left + 1), some before => some (w.set i { r with phase := .policyQuerying left before })
    -- `UnstableRevision`, or the listener is gone
    | .policyAttempt _, _ => some ({ w with cedarWriter := none }.set i { r with phase := .failed })
    | _, _ => none

/-- `load_cedar`. -/
def queryPolicy (i : Nat) (w : Ingress) : Option Ingress :=
  w.withRequest i fun r =>
    match r.phase with
    | .policyQuerying left before =>
      let provider := loadActivePolicyBundle w.db
      if config.validPolicy provider then
        some (w.set i { r with phase := .policyLoaded left before provider w.version })
      else some ({ w with cedarWriter := none }.set i { r with phase := .failed })
    | _ => none

/-- `epoch_after`; the provider is stored and the lock released, or the next attempt begins. -/
def finishPolicyLoad (i : Nat) (w : Ingress) : Option Ingress :=
  w.withRequest i fun r =>
    match r.phase, w.tracker.currentEpoch with
    | .policyLoaded left before provider version, some after =>
      if before = after then
        some ({ w with cedar := some ⟨provider, after, version⟩, cedarWriter := none }.set i
          { r with policy := some (.loaded version), phase := .answered })
      else some (w.set i { r with phase := .policyAttempt left })
    | .policyLoaded .., none => some ({ w with cedarWriter := none }.set i { r with phase := .failed })
    | _, _ => none

/-! ## Forwarding -/

/-- `proxy_request` (main.rs:496), up to the backend. -/
def forward (i : Nat) (w : Ingress) : Option Ingress :=
  w.withRequest i fun r =>
    match r.phase with
    | .authenticated =>
      if config.answersNatively r.request then none
      else if mutationMayChangeAuthorization r.request.method r.request.path then
        some ({ w with tracker := w.tracker.invalidate w.version }.set i
          { r with phase := .forwarded (some ⟨w.version, []⟩) })
      else some (w.set i { r with phase := .forwarded none })
    | _ => none

def backendCommit (i : Nat) (c : Command) (notify : Bool) (w : Ingress) : Option Ingress :=
  w.withRequest i fun r =>
    match r.phase with
    | .forwarded mutation =>
      (w.commit c notify).map fun w' =>
        let mutation := mutation.map fun m => { m with commits := m.commits ++ [w'.version] }
        w'.set i { r with phase := .forwarded mutation }
    | _ => none

/-- The backend's response goes back to the caller (main.rs:520). -/
def relay (i : Nat) (w : Ingress) : Option Ingress :=
  w.withRequest i fun r =>
    match r.phase with
    | .forwarded mutation =>
      some ({ w with relayed := w.relayed ++ mutation.toList }.set i { r with phase := .answered })
    | _ => none

def fail (i : Nat) (w : Ingress) : Option Ingress :=
  w.withRequest i fun r =>
    some ({ w with cedarWriter := if w.cedarWriter = some i then none else w.cedarWriter }.set i
      { r with phase := .failed })

end Ingress

/-! ## The system -/

inductive IngressAction
  | start
  | commit (c : Command) (notify : Bool)
  | deliver
  | disconnect
  | receive (request : ProxyRequest)
  | readEpoch (i : Nat)
  | lookup (i : Nat) (time : IngressTime)
  | queryToken (i : Nat) (time : CallTime) (requestId : RequestId)
  | readEpochAfter (i : Nat)
  | storeToken (i : Nat) (time : IngressTime)
  | authenticateUncached (i : Nat) (time : CallTime) (requestId : RequestId)
  | readPolicyEpoch (i : Nat)
  | readPolicy (i : Nat)
  | lockPolicy (i : Nat)
  | recheckPolicy (i : Nat)
  | beginPolicyLoad (i : Nat)
  | queryPolicy (i : Nat)
  | finishPolicyLoad (i : Nat)
  | forward (i : Nat)
  | backendCommit (i : Nat) (c : Command) (notify : Bool)
  | relay (i : Nat)
  | fail (i : Nat)

def Ingress.next {DecodingKey : Type} (config : IngressConfig DecodingKey) (w : Ingress) :
    IngressAction → Option Ingress
  | .start => w.start config
  | .commit c notify => w.commit c notify
  | .deliver => w.deliver
  | .disconnect => if w.tracker.healthy then some { w with tracker := w.tracker.disconnect } else none
  | .receive request => w.receive request
  | .readEpoch i => w.readEpoch i
  | .lookup i time => w.lookup config i time
  | .queryToken i time requestId => w.queryToken config i time requestId
  | .readEpochAfter i => w.readEpochAfter i
  | .storeToken i time => w.storeToken config i time
  | .authenticateUncached i time requestId => w.authenticateUncached i time requestId
  | .readPolicyEpoch i => w.readPolicyEpoch config i
  | .readPolicy i => w.readPolicy i
  | .lockPolicy i => w.lockPolicy i
  | .recheckPolicy i => w.recheckPolicy i
  | .beginPolicyLoad i => w.beginPolicyLoad i
  | .queryPolicy i => w.queryPolicy config i
  | .finishPolicyLoad i => w.finishPolicyLoad i
  | .forward i => w.forward config i
  | .backendCommit i c notify => w.backendCommit i c notify
  | .relay i => w.relay i
  | .fail i => w.fail i

def ingressSystem {DecodingKey : Type} (config : IngressConfig DecodingKey) (db : Db) :
    Transition.System Ingress IngressAction where
  init :=
    { past := [], db := db, tracker := .connected 1, processed := 0, tokenCache := [], cedar := none
      cedarWriter := none, requests := [], relayed := [] }
  next := Ingress.next config

end WasiAuth
