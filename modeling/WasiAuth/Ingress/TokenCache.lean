import WasiAuth.Base.Recency
import WasiAuth.Identity.Cached
import WasiAuth.Identity.Values
import WasiAuth.Ingress.Caches

/-! # The token cache over whole runs

The three operations themselves are modelled in `Ingress.Caches`. They act on the deque as the actions of
`Base.Recency`: a hit uses the key, a lookup that misses or finds an entry due drops it, and caching puts one.

Histories are newest first.
-/

namespace WasiAuth

/-- `cached_token`, `cache_token` and `remove_cached_token` (main.rs:176-227). -/
inductive TokenCacheOp
  | lookup (time : IngressTime) (token : String)
  | insert (time : IngressTime) (token : String) (verified : VerifiedAccessToken)
      (epoch : AuthorizationInvalidationEpoch) (version : Nat)
  | remove (token : String)

section TokenCache
variable {DecodingKey : Type} (config : IngressConfig DecodingKey) {entry : CachedToken}

def TokenCacheOp.apply : TokenCacheOp → List CachedToken → List CachedToken
  | .lookup time token, cache => (cachedToken config time token cache).2
  | .insert time token verified epoch version, cache => cacheToken config time token verified epoch version cache
  | .remove token, cache => removeCachedToken config token cache

/-- The deque behind the mutex after any sequence of them. -/
def tokenCache : List TokenCacheOp → List CachedToken
  | [] => []
  | op :: past => op.apply config (tokenCache past)

/-- What the operation does to the deque. -/
def TokenCacheOp.action : TokenCacheOp → List CachedToken → Recency.Action CachedToken Bytes
  | .lookup time token, cache =>
    if (cachedToken config time token cache).1.isSome then .use (config.cacheKey token)
    else .drop (config.cacheKey token)
  | .insert time token verified epoch version, _ =>
    .put ⟨config.cacheKey token, verified, epoch, time.nowUnixMillis, version⟩
  | .remove token, _ => .drop (config.cacheKey token)

def TokenCacheOp.millis : TokenCacheOp → Option Nat
  | .lookup time _ | .insert time _ _ _ _ => some time.nowUnixMillis
  | .remove _ => none

/-- The clock does not go back. -/
def ClockMonotone (history : List TokenCacheOp) : Prop := (history.filterMap TokenCacheOp.millis).Pairwise (· ≥ ·)

def TokenCacheOp.replaces (token : String) : TokenCacheOp → Bool
  | .lookup _ _ => false
  | .insert _ token' _ _ _ | .remove token' => decide (token' = token)

/-- The number of the last operation that cached the key or returned its entry. -/
def lastUse (key : Bytes) (history : List TokenCacheOp) : Nat :=
  Recency.lastUse CachedToken.key (TokenCacheOp.action config) config.tokenCacheCapacity key history

/-- The entry is what was last cached for the token; since then nothing has replaced it, and it was there all along. -/
def LastCached (history : List TokenCacheOp) (token : String) (cachedAt : IngressTime) (entry : CachedToken) : Prop :=
  ∃ since verified epoch version before,
    history = since ++ .insert cachedAt token verified epoch version :: before ∧
    entry = ⟨config.cacheKey token, verified, epoch, cachedAt.nowUnixMillis, version⟩ ∧
    (∀ op ∈ since, op.replaces token = false) ∧
    ∀ later, later <:+ since →
      entry ∈ tokenCache config (later ++ .insert cachedAt token verified epoch version :: before)

/-- `op` caches another token and `entry` leaves. -/
def Evicts (op : TokenCacheOp) (history : List TokenCacheOp) (entry : CachedToken) : Prop :=
  entry ∈ tokenCache config history ∧ entry ∉ tokenCache config (op :: history) ∧
    ∃ time token verified epoch version, op = .insert time token verified epoch version ∧
      entry.key ≠ config.cacheKey token

variable {config} {time : IngressTime} {token : String} {cache : List CachedToken} {history : List TokenCacheOp}

theorem cachedToken_eq_some (h : (cachedToken config time token cache).1 = some entry) :
    entry ∈ cache ∧ entry.key = config.cacheKey token ∧ time.nowUnixSeconds < entry.verified.expiresAtSeconds ∧
      time.nowUnixMillis ≤ entry.validatedAtMs + config.cacheRevalidateMs := by
  unfold cachedToken at h
  cases hfind : cache.find? fun entry => decide (entry.key = config.cacheKey token) with
  | none => simp [hfind] at h
  | some found =>
    have hkey := List.find?_some hfind
    simp only [hfind] at h
    split at h
    · cases h
    next hlive =>
      cases h
      refine ⟨List.mem_of_find?_eq_some hfind, of_decide_eq_true hkey, ?_, ?_⟩ <;> omega

theorem apply_eq_action (op : TokenCacheOp) :
    op.apply config cache = (op.action config cache).apply CachedToken.key config.tokenCacheCapacity cache := by
  cases op with
  | insert => rfl
  | remove => rfl
  | lookup time token =>
    simp only [TokenCacheOp.apply, TokenCacheOp.action]
    unfold cachedToken
    cases hfind : cache.find? fun entry => decide (entry.key = config.cacheKey token) with
    | none =>
      have habsent := List.find?_eq_none.1 hfind
      simp [Recency.Action.apply, Recency.erase, List.eraseP_of_forall_not habsent]
    | some entry =>
      dsimp only
      split
      · rfl
      · simp only [Option.isSome_some, if_true, Recency.Action.apply, Recency.use, Recency.find?, hfind]
        rfl

theorem tokenCache_eq_entries : ∀ history : List TokenCacheOp,
    tokenCache config history =
      Recency.entries CachedToken.key (TokenCacheOp.action config) config.tokenCacheCapacity history
  | [] => rfl
  | op :: past => by rw [tokenCache, apply_eq_action, tokenCache_eq_entries past, Recency.entries]

theorem eq_insert_of_action_eq_put {op : TokenCacheOp} (h : op.action config cache = .put entry) :
    ∃ time token verified epoch version, op = .insert time token verified epoch version ∧
      entry = ⟨config.cacheKey token, verified, epoch, time.nowUnixMillis, version⟩ := by
  cases op with
  | insert time token verified epoch version =>
    cases h
    exact ⟨time, token, verified, epoch, version, rfl, rfl⟩
  | remove token => cases h
  | lookup time token =>
    rw [TokenCacheOp.action] at h
    split at h <;> cases h

/-- An operation that keeps the entry of the token's key neither caches the token anew nor removes it. -/
theorem not_replaces_of_keeps {op : TokenCacheOp}
    (h : (op.action config cache).keeps CachedToken.key (config.cacheKey token) = true) :
    op.replaces token = false := by
  cases op with
  | lookup => rfl
  | insert _ token' _ _ _ => exact decide_eq_false fun hsame => of_decide_eq_true h (hsame ▸ rfl)
  | remove token' => exact decide_eq_false fun hsame => of_decide_eq_true h (hsame ▸ rfl)

theorem exists_lastCached_of_mem (hinjective : config.cacheKey.Injective)
    (hmem : entry ∈ tokenCache config history) (hkey : entry.key = config.cacheKey token) :
    ∃ cachedAt, LastCached config history token cachedAt entry := by
  rw [tokenCache_eq_entries] at hmem
  obtain ⟨since, op, before, rfl, hput, hkeeps, hall⟩ := Recency.exists_put_of_mem_entries hmem
  obtain ⟨cachedAt, token', verified, epoch, version, rfl, rfl⟩ := eq_insert_of_action_eq_put hput
  obtain rfl : token' = token := hinjective hkey
  refine ⟨cachedAt, since, verified, epoch, version, before, rfl, rfl, fun op hop => ?_, fun later hlater => ?_⟩
  · obtain ⟨newer, later, rfl⟩ := List.append_of_mem hop
    exact not_replaces_of_keeps (hkeeps op later ⟨newer, rfl⟩)
  · rw [tokenCache_eq_entries]
    exact hall later hlater

theorem LastCached.millis_le {cachedAt : IngressTime}
    (h : LastCached config history token cachedAt entry) (hclock : ClockMonotone (.lookup time token :: history)) :
    entry.validatedAtMs = cachedAt.nowUnixMillis ∧ cachedAt.nowUnixMillis ≤ time.nowUnixMillis := by
  obtain ⟨since, verified, epoch, version, before, rfl, rfl, -⟩ := h
  refine ⟨rfl, (List.pairwise_cons.1 hclock).1 _ (List.mem_filterMap.2 ?_)⟩
  exact ⟨.insert cachedAt token verified epoch version, List.mem_append_right _ List.mem_cons_self, rfl⟩

theorem evicted_of_evicts {time : IngressTime} {verified : VerifiedAccessToken} {epoch : AuthorizationInvalidationEpoch}
    {version : Nat}
    (h : Evicts config (.insert time token verified epoch version) history entry) :
    Recency.Evicted CachedToken.key config.tokenCacheCapacity
      ⟨config.cacheKey token, verified, epoch, time.nowUnixMillis, version⟩ (tokenCache config history) entry := by
  obtain ⟨hmem, hleft, _, _, _, _, _, hop, hkey⟩ := h
  cases hop
  exact ⟨hmem, hkey, hleft⟩

variable (config) in
/-- Over every history: keys are distinct and the capacity is kept. A hit returns what was last cached for the token and
has been in the cache since; it is not expired and was validated within the window. Caching drives out the least
recently used entry, one at a time and only when the cache is full. -/
theorem token_cache_is_lru (hinjective : config.cacheKey.Injective) (history : List TokenCacheOp) :
    ((tokenCache config history).map CachedToken.key).Nodup ∧
    (tokenCache config history).length ≤ config.tokenCacheCapacity ∧
    (∀ time token entry, ClockMonotone (.lookup time token :: history) →
      (cachedToken config time token (tokenCache config history)).1 = some entry →
      ∃ cachedAt, LastCached config history token cachedAt entry ∧
        time.nowUnixSeconds < entry.verified.expiresAtSeconds ∧ cachedAt.nowUnixMillis ≤ time.nowUnixMillis ∧
        time.nowUnixMillis ≤ cachedAt.nowUnixMillis + config.cacheRevalidateMs) ∧
    ∀ op evicted, Evicts config op history evicted →
      (∀ kept ∈ tokenCache config (op :: history),
        lastUse config evicted.key (op :: history) < lastUse config kept.key (op :: history)) ∧
      (∀ other, Evicts config op history other → other = evicted) ∧
      (tokenCache config history).length = config.tokenCacheCapacity := by
  have hentries : tokenCache config history = Recency.entries _ _ _ history := tokenCache_eq_entries history
  refine ⟨?_, ?_, fun time token entry hclock h => ?_, fun op evicted h => ?_⟩
  · rw [hentries]
    exact (Recency.ordered_entries history).nodup
  · rw [hentries]
    exact Recency.length_entries_le history
  · obtain ⟨hmem, hkey, hexpires, hdue⟩ := cachedToken_eq_some h
    obtain ⟨cachedAt, hlast⟩ := exists_lastCached_of_mem hinjective hmem hkey
    obtain ⟨hvalidated, hle⟩ := hlast.millis_le hclock
    exact ⟨cachedAt, hlast, hexpires, hle, hvalidated ▸ hdue⟩
  · obtain ⟨time, token, verified, epoch, version, rfl, -⟩ := h.2.2
    have hput : TokenCacheOp.action config (.insert time token verified epoch version)
        (Recency.entries CachedToken.key (TokenCacheOp.action config) config.tokenCacheCapacity history) =
        .put ⟨config.cacheKey token, verified, epoch, time.nowUnixMillis, version⟩ := rfl
    obtain ⟨hleast, hone, hfull⟩ := Recency.lastUse_lt_of_evicted hput (hentries ▸ evicted_of_evicts h)
    rw [tokenCache_eq_entries (_ :: history), hentries]
    exact ⟨hleast, fun other hother => hone other (hentries ▸ evicted_of_evicts hother), hfull⟩

end TokenCache

section Samples

def smallIngress : IngressConfig Unit where
  verifier := founderVerifier
  cacheKey := utf8Bytes
  tokenCacheCapacity := 2
  cacheRevalidateMs := 1000
  nativeAuthorizationEnabled := false
  validPolicy _ := true

theorem utf8Bytes_injective : utf8Bytes.Injective := fun _ _ h =>
  String.toByteArray_inj.1 (ByteArray.ext (Array.toList_inj.1 h))

def sampleVerified : VerifiedAccessToken where
  userId := "user-1"
  organizationId := none
  sessionId := "session-1"
  permissions := []
  roleIds := []
  policyRevision := none
  assurance := .aal1
  systemAdministrator := false
  issuedAtSeconds := 1
  expiresAtSeconds := 60
  authorizationFingerprint := ⟨"user-1", "session-1", none, .aal1, 60000, 1, 1, none, none, none, false⟩

def cacheAt (seconds : Nat) (token : String) : TokenCacheOp :=
  .insert ⟨⟨seconds, seconds⟩, seconds * 1000⟩ token sampleVerified ⟨1, 1⟩ 0

def entryAt (seconds : Nat) (token : String) : CachedToken :=
  ⟨utf8Bytes token, sampleVerified, ⟨1, 1⟩, seconds * 1000, 0⟩

def lookupAt (seconds : Nat) (token : String) : TokenCacheOp := .lookup ⟨⟨seconds, seconds⟩, seconds * 1000⟩ token

/-- The first token is cached before the second and used after it; the third drives out the second. -/
theorem second_token_evicted :
    (∃ cachedAt, LastCached smallIngress [cacheAt 1 "b", cacheAt 1 "a"] "a" cachedAt (entryAt 1 "a")) ∧
    lastUse smallIngress (utf8Bytes "b") [cacheAt 2 "c", lookupAt 2 "a", cacheAt 1 "b", cacheAt 1 "a"] <
      lastUse smallIngress (utf8Bytes "a") [cacheAt 2 "c", lookupAt 2 "a", cacheAt 1 "b", cacheAt 1 "a"] := by
  constructor
  · obtain ⟨cachedAt, hlast, -⟩ := (token_cache_is_lru smallIngress utf8Bytes_injective
      [cacheAt 1 "b", cacheAt 1 "a"]).2.2.1 ⟨⟨2, 2⟩, 2000⟩ "a" (entryAt 1 "a")
      (by unfold ClockMonotone; decide) (by decide +kernel)
    exact ⟨cachedAt, hlast⟩
  · exact ((token_cache_is_lru smallIngress utf8Bytes_injective
      [lookupAt 2 "a", cacheAt 1 "b", cacheAt 1 "a"]).2.2.2 (cacheAt 2 "c") (entryAt 1 "b")
      ⟨by decide +kernel, by decide +kernel, _, _, _, _, _, rfl, by decide +kernel⟩).1 (entryAt 1 "a")
        (by decide +kernel)

end Samples

end WasiAuth
