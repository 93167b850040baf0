import WasiAuth.Identity.Cached
import WasiAuth.Ingress.Requests

/-! # What the caches serve

`Ingress.Sound` is the invariant of every run. Everything it says about versions is said about a `View`: the
tracker's counter with its floors, and the versions of the database so far. Steps of a request leave the view
alone, and the few steps that move it (`View.Later`) keep what was said before.

A hit is at least as new as the last commit the tracker had processed when the request read its epoch
(`cache_hits_are_fresh`), and at least as new as the database was when the ingress invalidated for any mutation
relayed before the request came in (`hits_after_relay`). It can be older than what that mutation committed:
a load between `invalidate` and the commit fills the cache under an epoch that stands until the notification
is processed (`stale_hit_after_relay`).
-/

namespace WasiAuth

open Transition

variable {DecodingKey : Type} {config : IngressConfig DecodingKey}

/-! ## Views -/

/-- What the invariants look at: the counter and all versions of the database so far. -/
structure View where
  counter : Epoch.Counter
  versions : List Db

def Ingress.view (w : Ingress) : View := ⟨w.tracker.counter, w.past ++ [w.db]⟩

namespace View

/-- `v'` is a later view: what was known of a generation or a version stays true. -/
structure Later (v v' : View) : Prop where
  read : ∀ {g p}, v.counter.Read g p → v'.counter.Read g p
  fresh : ∀ {g k}, v.counter.Fresh g k → v'.counter.Fresh g k
  floor : v.counter.floor ≤ v'.counter.floor
  kept : ∀ {k : Nat} {db : Db}, v.versions[k]? = some db → v'.versions[k]? = some db

theorem Later.raise {v : View} (n : Nat) : v.Later { v with counter := v.counter.raise n } :=
  ⟨fun h => h.raise n, fun h => h.raise n, by simp, id⟩

theorem Later.commit {v : View} (db : Db) : v.Later { v with versions := v.versions ++ [db] } :=
  ⟨id, id, le_rfl, fun h => List.getElem?_append_left (List.getElem?_eq_some_iff.1 h).1 ▸ h⟩

/-- `verify` returned the snapshot on version `k`. -/
def Snapshot (config : IngressConfig DecodingKey) (v : View) (snapshot : VerifiedAccessToken) (k : Nat) : Prop :=
  ∃ db time token requestId, v.versions[k]? = some db ∧
    verify config.verifier time token requestId db = .ok snapshot

/-- The policy was active in version `k`. -/
def Policy (v : View) (provider : Option PolicyBundle) (k : Nat) : Prop :=
  ∃ db, v.versions[k]? = some db ∧ loadActivePolicyBundle db = provider

variable {v v' : View}

theorem Snapshot.later {snapshot : VerifiedAccessToken} {k : Nat} (h : v.Snapshot config snapshot k) (hl : v.Later v') :
    v'.Snapshot config snapshot k := by
  obtain ⟨db, time, token, requestId, hdb, hverify⟩ := h
  exact ⟨db, time, token, requestId, hl.kept hdb, hverify⟩

theorem Policy.later {provider : Option PolicyBundle} {k : Nat} (h : v.Policy provider k) (hl : v.Later v') :
    v'.Policy provider k := by
  obtain ⟨db, hdb, hload⟩ := h
  exact ⟨db, hl.kept hdb, hload⟩

end View

/-! ## The invariant -/

/-- What a request was given is a snapshot as new as it must be. -/
def Source.Sound (config : IngressConfig DecodingKey) (v : View) (relayed : List Mutation) : Source → Prop
  | .cached snapshot version processed ageMs => v.Snapshot config snapshot version ∧ processed ≤ version ∧
    (∀ m ∈ relayed, m.invalidatedAt ≤ version) ∧ ageMs ≤ config.cacheRevalidateMs
  | _ => True

def PolicySource.Sound (v : View) : PolicySource → Prop
  | .cached provider version processed => v.Policy provider version ∧ processed ≤ version
  | .loaded _ => True

def RequestPhase.Sound (config : IngressConfig DecodingKey) (v : View) (relayed : List Mutation) : RequestPhase → Prop
  | .epochRead before processed => ∀ e, before = some e →
    v.counter.Read e.generation processed ∧ ∀ m ∈ relayed, v.counter.Read e.generation m.invalidatedAt
  | .querying before => ∀ e, before = some e → v.counter.Read e.generation 0
  | .verified before snapshot version =>
    v.Snapshot config snapshot version ∧ ∀ e, before = some e → v.counter.Fresh e.generation version
  | .storing after snapshot version => v.Snapshot config snapshot version ∧ v.counter.Fresh after.generation version
  | .policyEpochRead current processed => v.counter.Read current.generation processed
  | .policyQuerying _ before => v.counter.Read before.generation 0
  | .policyLoaded _ before provider version => v.Policy provider version ∧ v.counter.Fresh before.generation version
  | .forwarded mutation => ∀ m, mutation = some m → m.invalidatedAt ≤ v.counter.floor
  | _ => True

structure IngressRequest.Sound (config : IngressConfig DecodingKey) (v : View) (r : IngressRequest) : Prop where
  source : r.source.Sound config v r.relayedBefore
  policy : ∀ policy, r.policy = some policy → policy.Sound v
  relayed : ∀ m ∈ r.relayedBefore, m.invalidatedAt ≤ v.counter.floor
  phase : r.phase.Sound config v r.relayedBefore

/-- The invariant of every reachable state. -/
structure Ingress.Sound (config : IngressConfig DecodingKey) (w : Ingress) : Prop where
  floor : w.tracker.counter.floor ≤ w.version
  inbox : ∀ version ∈ w.tracker.inbox, version ≤ w.version
  processed : w.processed ≤ w.tracker.counter.floor
  tokens : ∀ entry ∈ w.tokenCache, w.view.Snapshot config entry.verified entry.version ∧
    w.tracker.counter.Fresh entry.epoch.generation entry.version
  cedar : ∀ cedar, w.cedar = some cedar → w.view.Policy cedar.provider cedar.version ∧
    w.tracker.counter.Fresh cedar.epoch.generation cedar.version
  relayed : ∀ m ∈ w.relayed, m.invalidatedAt ≤ w.tracker.counter.floor
  requests : ∀ r ∈ w.requests, r.Sound config w.view

section Later

variable {v v' : View} {relayed : List Mutation}

theorem Source.Sound.later {source : Source} (h : source.Sound config v relayed) (hl : v.Later v') :
    source.Sound config v' relayed := by
  cases source with
  | cached snapshot version processed ageMs => exact ⟨h.1.later hl, h.2⟩
  | _ => trivial

theorem PolicySource.Sound.later {policy : PolicySource} (h : policy.Sound v) (hl : v.Later v') : policy.Sound v' := by
  cases policy with
  | cached provider version processed => exact ⟨h.1.later hl, h.2⟩
  | loaded => trivial

theorem RequestPhase.Sound.later {phase : RequestPhase} (h : phase.Sound config v relayed) (hl : v.Later v') :
    phase.Sound config v' relayed := by
  cases phase with
  | epochRead before processed => exact fun e he => ⟨hl.read (h e he).1, fun m hm => hl.read ((h e he).2 m hm)⟩
  | querying before => exact fun e he => hl.read (h e he)
  | verified before snapshot version => exact ⟨h.1.later hl, fun e he => hl.fresh (h.2 e he)⟩
  | storing after snapshot version => exact ⟨h.1.later hl, hl.fresh h.2⟩
  | policyEpochRead current processed => exact hl.read h
  | policyQuerying left before => exact hl.read h
  | policyLoaded left before provider version => exact ⟨h.1.later hl, hl.fresh h.2⟩
  | forwarded mutation => exact fun m hm => (h m hm).trans hl.floor
  | _ => trivial

theorem IngressRequest.Sound.later {r : IngressRequest} (h : r.Sound config v) (hl : v.Later v') : r.Sound config v' :=
  ⟨h.source.later hl, fun policy hp => (h.policy policy hp).later hl, fun m hm => (h.relayed m hm).trans hl.floor,
    h.phase.later hl⟩

end Later

/-! ## Small moves -/

section Moves

variable {v : View} {r : IngressRequest} {phase : RequestPhase}

theorem IngressRequest.Sound.inPhase (h : r.Sound config v) (hphase : r.phase = phase) :
    phase.Sound config v r.relayedBefore := hphase ▸ h.phase

theorem IngressRequest.Sound.move (h : r.Sound config v) (hphase : phase.Sound config v r.relayedBefore) :
    IngressRequest.Sound config v { r with phase := phase } :=
  { h with phase := hphase }

theorem IngressRequest.Sound.answer {source : Source} (h : r.Sound config v)
    (hsource : source.Sound config v r.relayedBefore) :
    IngressRequest.Sound config v { r with source := source, phase := .authenticated } :=
  { h with source := hsource, phase := trivial }

theorem IngressRequest.Sound.decide {policy : PolicySource} (h : r.Sound config v) (hpolicy : policy.Sound v) :
    IngressRequest.Sound config v { r with policy := some policy, phase := .answered } :=
  { h with policy := fun _ heq => Option.some.inj heq ▸ hpolicy, phase := trivial }

end Moves

namespace Ingress

variable {w w' : Ingress} {i : Nat} {r : IngressRequest}

theorem versions_version : w.view.versions[w.version]? = some w.db := by
  simp [view, version]

namespace Sound

theorem read {e : AuthorizationInvalidationEpoch} {p : Nat} (he : w.tracker.currentEpoch = some e)
    (hp : p ≤ w.tracker.counter.floor) : w.tracker.counter.Read e.generation p := by
  unfold Tracker.currentEpoch at he
  split at he
  · cases he
    exact Epoch.Counter.read_of_le hp
  · cases he

variable (h : w.Sound config)
include h

theorem withRequest {f : IngressRequest → Option Ingress} (hnext : w.withRequest i f = some w')
    (hf : ∀ r ∈ w.requests, r.Sound config w.view → f r = some w' → w'.Sound config) : w'.Sound config := by
  obtain ⟨r, hr, hnext⟩ := Option.bind_eq_some_iff.1 hnext
  have hmem := List.mem_of_getElem? hr
  exact hf r hmem (h.requests r hmem) hnext

theorem set (hr : r.Sound config w.view) : (w.set i r).Sound config := by
  refine { h with requests := fun r' hr' => ?_ }
  rcases List.mem_or_eq_of_mem_set hr' with hr' | rfl
  · exact h.requests r' hr'
  · exact hr

theorem lock (writer : Option Nat) : Ingress.Sound config { w with cedarWriter := writer } :=
  { h with }

theorem withTokens {cache : List CachedToken}
    (hcache : ∀ entry ∈ cache, w.view.Snapshot config entry.verified entry.version ∧
      w.tracker.counter.Fresh entry.epoch.generation entry.version) :
    Ingress.Sound config { w with tokenCache := cache } :=
  { h with tokens := hcache }

theorem withCedar {cedar : CachedCedar} (hpolicy : w.view.Policy cedar.provider cedar.version)
    (hfresh : w.tracker.counter.Fresh cedar.epoch.generation cedar.version) :
    Ingress.Sound config { w with cedar := some cedar } := by
  refine { h with cedar := fun cedar' heq => ?_ }
  cases heq
  exact ⟨hpolicy, hfresh⟩

theorem advance {past : List Db} {db : Db} {tracker : Tracker} {processed : Nat}
    (hl : w.view.Later ⟨tracker.counter, past ++ [db]⟩) (hfloor : tracker.counter.floor ≤ past.length)
    (hinbox : ∀ version ∈ tracker.inbox, version ≤ past.length) (hprocessed : processed ≤ tracker.counter.floor) :
    Ingress.Sound config { w with past := past, db := db, tracker := tracker, processed := processed } where
  floor := hfloor
  inbox := hinbox
  processed := hprocessed
  tokens entry hentry := ⟨(h.tokens entry hentry).1.later hl, hl.fresh (h.tokens entry hentry).2⟩
  cedar cedar hcedar := ⟨(h.cedar cedar hcedar).1.later hl, hl.fresh (h.cedar cedar hcedar).2⟩
  relayed m hm := (h.relayed m hm).trans hl.floor
  requests r hr := (h.requests r hr).later hl

/-! ## Database and tracker -/

theorem commit {c : Command} {notify : Bool} (hnext : w.commit c notify = some w') :
    w'.Sound config ∧ w.view.Later w'.view := by
  unfold Ingress.commit at hnext
  split at hnext
  · cases hnext
  · rename_i db' _
    split at hnext
    · cases hnext
    · cases hnext
      have hlength : (w.past ++ [w.db]).length = w.version + 1 := by simp [version]
      have hl := View.Later.commit (v := w.view) db'
      have hfloor := h.floor
      cases notify with
      | true =>
        refine ⟨h.advance hl (by simp only [Tracker.notify, hlength, ite_true]; omega) ?_ h.processed, hl⟩
        intro version hversion
        rw [hlength]
        rcases List.mem_append.1 hversion with hversion | hversion
        · exact (h.inbox version hversion).trans (Nat.le_succ _)
        · exact (List.mem_singleton.1 hversion).le
      | false =>
        refine ⟨h.advance hl (by rw [hlength]; exact hfloor.trans (Nat.le_succ _)) ?_ h.processed, hl⟩
        intro version hversion
        rw [hlength]
        exact (h.inbox version hversion).trans (Nat.le_succ _)

theorem raise {n processed : Nat} {healthy : Bool} {inbox : List Nat} (hn : n ≤ w.version)
    (hinbox : ∀ version ∈ inbox, version ≤ w.version) (hprocessed : processed ≤ max w.tracker.counter.floor n) :
    Ingress.Sound config
      { w with
        tracker := ⟨w.tracker.trackerId, w.tracker.counter.raise n, healthy, inbox⟩
        processed := processed } := by
  have hfloor := h.floor
  refine h.advance (View.Later.raise n) ?_ hinbox (by simpa using hprocessed)
  simp only [Epoch.Counter.floor_raise, version] at *
  omega

theorem deliver (hnext : w.deliver = some w') : w'.Sound config := by
  obtain ⟨⟨version, tracker⟩, hdeliver, rfl⟩ := Option.map_eq_some_iff.1 hnext
  unfold Tracker.deliver at hdeliver
  split at hdeliver
  · rename_i version' inbox hinbox
    have hversion := fun n hn => h.inbox n (hinbox ▸ hn)
    split at hdeliver
    · cases hdeliver
      exact h.raise (hversion version (by simp)) (fun n hn => hversion n (by simp [hn])) (le_max_right _ _)
    · cases hdeliver
  · cases hdeliver

theorem disconnect : Ingress.Sound config { w with tracker := w.tracker.disconnect } :=
  h.raise (Nat.zero_le _) h.inbox (h.processed.trans (le_max_left _ _))

theorem invalidate :
    Ingress.Sound config { w with tracker := w.tracker.invalidate w.version } :=
  h.raise le_rfl h.inbox (h.processed.trans (le_max_left _ _))

theorem start (hnext : w.start config = some w') : w'.Sound config := by
  unfold Ingress.start at hnext
  split at hnext
  · rename_i epoch _ hepoch
    dsimp only at hnext
    split at hnext
    · cases hnext
      exact h.withCedar ⟨w.db, versions_version, rfl⟩ ((read hepoch (Nat.zero_le _)).fresh h.floor)
    · cases hnext
  · cases hnext

theorem receive {request : ProxyRequest} (hnext : w.receive request = some w') :
    w'.Sound config := by
  unfold Ingress.receive at hnext
  split at hnext
  · cases hnext
    refine { h with requests := fun r hr => ?_ }
    rcases List.mem_append.1 hr with hr | hr
    · exact h.requests r hr
    · cases List.mem_singleton.1 hr
      exact ⟨trivial, by simp, h.relayed, trivial⟩
  · cases hnext

/-! ## Authentication -/

theorem readEpoch (hnext : w.readEpoch i = some w') : w'.Sound config := by
  refine h.withRequest hnext fun r hr hsound hnext => ?_
  split at hnext
  · cases hnext
    refine h.set (hsound.move fun e he => ?_)
    exact ⟨read he h.processed, fun m hm => read he (hsound.relayed m hm)⟩
  · cases hnext

theorem lookup {time : IngressTime} (hnext : w.lookup config i time = some w') :
    w'.Sound config := by
  refine h.withRequest hnext fun r hr hsound hnext => ?_
  split at hnext
  · rename_i before processed token hphase hcredential
    obtain ⟨hfound, hkept⟩ := @mem_of_cachedToken _ config time token w.tokenCache
    generalize cachedToken config time token w.tokenCache = result at hfound hkept hnext
    obtain ⟨found, cache⟩ := result
    have hread := hsound.inPhase hphase
    have hcache := h.withTokens fun entry hentry => h.tokens entry (hkept entry hentry)
    have hmiss : RequestPhase.Sound config w.view r.relayedBefore (.querying before) :=
      fun e he => ⟨(hread e he).1.1, Nat.zero_le _⟩
    dsimp only at hnext
    split at hnext
    · rename_i entry current
      obtain ⟨hmem, hage⟩ := hfound entry rfl
      obtain ⟨hsnapshot, hfresh⟩ := h.tokens entry hmem
      obtain ⟨hprocessed, hrelayed⟩ := hread current rfl
      split at hnext
      · rename_i value hhit
        cases hnext
        -- the hit was stored under the epoch that was read
        have hepoch := (verifyInvalidationCached_eq_some hhit).1
        rw [hepoch] at hfresh
        exact hcache.set (hsound.answer
          ⟨hsnapshot, hprocessed.le_of_fresh hfresh, fun m hm => (hrelayed m hm).le_of_fresh hfresh, hage⟩)
      · cases hnext
        exact hcache.set (hsound.move hmiss)
      · cases hnext
        refine Sound.set (hcache.withTokens fun entry hentry => ?_) (hsound.move trivial)
        exact hcache.tokens entry (mem_of_mem_removeCachedToken hentry)
    · cases hnext
      exact hcache.set (hsound.move hmiss)
  · cases hnext

theorem queryToken {time : CallTime} {requestId : RequestId}
    (hnext : w.queryToken config i time requestId = some w') : w'.Sound config := by
  refine h.withRequest hnext fun r hr hsound hnext => ?_
  split at hnext
  · rename_i before token hphase hcredential
    have hread := hsound.inPhase hphase
    split at hnext
    · rename_i snapshot hverify
      cases hnext
      refine h.set (hsound.move ⟨⟨w.db, time, token, requestId, versions_version, hverify⟩, fun e he => ?_⟩)
      exact (hread e he).fresh h.floor
    · cases hnext
      exact h.set (hsound.move trivial)
  · cases hnext

theorem readEpochAfter (hnext : w.readEpochAfter i = some w') : w'.Sound config := by
  refine h.withRequest hnext fun r hr hsound hnext => ?_
  split at hnext
  · rename_i before snapshot version hphase
    obtain ⟨hsnapshot, hfresh⟩ := hsound.inPhase hphase
    split at hnext
    · rename_i before after hafter
      split at hnext
      · rename_i hsame
        cases hnext
        exact h.set (hsound.move ⟨hsnapshot, hsame ▸ hfresh before rfl⟩)
      · cases hnext
        exact h.set (hsound.answer trivial)
    · cases hnext
      exact h.set (hsound.answer trivial)
  · cases hnext

theorem storeToken {time : IngressTime} (hnext : w.storeToken config i time = some w') :
    w'.Sound config := by
  refine h.withRequest hnext fun r hr hsound hnext => ?_
  split at hnext
  · rename_i after snapshot version token hphase hcredential
    have hstored := hsound.inPhase hphase
    cases hnext
    refine Sound.set (h.withTokens fun entry hentry => ?_) (hsound.answer trivial)
    rcases mem_of_mem_cacheToken hentry with hentry | rfl
    · exact h.tokens entry hentry
    · exact hstored
  · cases hnext

theorem authenticateUncached {time : CallTime} {requestId : RequestId}
    (hnext : w.authenticateUncached i time requestId = some w') : w'.Sound config := by
  refine h.withRequest hnext fun r hr hsound hnext => ?_
  split at hnext
  · split at hnext
    · cases hnext
      exact h.set (hsound.answer trivial)
    · cases hnext
      exact h.set (hsound.move trivial)
  · cases hnext
    exact h.set (hsound.move trivial)
  · cases hnext

/-! ## The Cedar policy -/

theorem readPolicyEpoch (hnext : w.readPolicyEpoch config i = some w') : w'.Sound config := by
  refine h.withRequest hnext fun r hr hsound hnext => ?_
  split at hnext
  · split at hnext
    · split at hnext
      · rename_i current hcurrent
        cases hnext
        exact h.set (hsound.move (read hcurrent h.processed))
      · cases hnext
        exact h.set (hsound.move trivial)
    · cases hnext
  · cases hnext

theorem policy_cached {cedar : CachedCedar} {processed : Nat} (hcedar : w.cedar = some cedar)
    (hread : w.tracker.counter.Read cedar.epoch.generation processed) :
    (PolicySource.cached cedar.provider cedar.version processed).Sound w.view := by
  obtain ⟨hpolicy, hfresh⟩ := h.cedar cedar hcedar
  exact ⟨hpolicy, hread.le_of_fresh hfresh⟩

theorem readPolicy (hnext : w.readPolicy i = some w') : w'.Sound config := by
  refine h.withRequest hnext fun r hr hsound hnext => ?_
  split at hnext
  · rename_i current processed cedar hphase hcedar hwriter
    have hread := hsound.inPhase hphase
    split at hnext
    · rename_i hsame
      cases hnext
      exact h.set (hsound.decide (h.policy_cached hcedar (hsame ▸ hread)))
    · cases hnext
      exact h.set (hsound.move trivial)
  · cases hnext

theorem lockPolicy (hnext : w.lockPolicy i = some w') : w'.Sound config := by
  refine h.withRequest hnext fun r hr hsound hnext => ?_
  split at hnext
  · cases hnext
    exact (h.lock (some i)).set ((h.requests r hr).move trivial)
  · cases hnext

theorem recheckPolicy (hnext : w.recheckPolicy i = some w') : w'.Sound config := by
  refine h.withRequest hnext fun r hr hsound hnext => ?_
  split at hnext
  · rename_i cedar current hphase hcedar hcurrent
    split at hnext
    · rename_i hsame
      cases hnext
      exact (h.lock none).set (hsound.decide (h.policy_cached hcedar (hsame ▸ read hcurrent h.processed)))
    · cases hnext
      exact h.set (hsound.move trivial)
  · cases hnext
    exact (h.lock none).set (hsound.move trivial)
  · cases hnext

theorem beginPolicyLoad (hnext : w.beginPolicyLoad i = some w') : w'.Sound config := by
  refine h.withRequest hnext fun r hr hsound hnext => ?_
  split at hnext
  · rename_i left before hphase hbefore
    cases hnext
    exact h.set (hsound.move (read hbefore (Nat.zero_le _)))
  · cases hnext
    exact (h.lock none).set (hsound.move trivial)
  · cases hnext

theorem queryPolicy (hnext : w.queryPolicy config i = some w') : w'.Sound config := by
  refine h.withRequest hnext fun r hr hsound hnext => ?_
  split at hnext
  · rename_i left before hphase
    have hread : w.tracker.counter.Read before.generation 0 := hsound.inPhase hphase
    dsimp only at hnext
    split at hnext
    · cases hnext
      exact h.set (hsound.move ⟨⟨w.db, versions_version, rfl⟩, hread.fresh h.floor⟩)
    · cases hnext
      exact (h.lock none).set (hsound.move trivial)
  · cases hnext

theorem finishPolicyLoad (hnext : w.finishPolicyLoad i = some w') : w'.Sound config := by
  refine h.withRequest hnext fun r hr hsound hnext => ?_
  split at hnext
  · rename_i left before provider version after hphase hafter
    obtain ⟨hpolicy, hfresh⟩ := hsound.inPhase hphase
    split at hnext
    · rename_i hsame
      cases hnext
      have hstored := @withCedar _ config w h ⟨provider, after, version⟩ hpolicy (hsame ▸ hfresh)
      exact (hstored.lock none).set (hsound.decide trivial)
    · cases hnext
      exact h.set (hsound.move trivial)
  · cases hnext
    exact (h.lock none).set (hsound.move trivial)
  · cases hnext

/-! ## Forwarding -/

theorem forward (hnext : w.forward config i = some w') : w'.Sound config := by
  refine h.withRequest hnext fun r hr hsound hnext => ?_
  split at hnext
  · split at hnext
    · cases hnext
    · split at hnext
      · cases hnext
        refine h.invalidate.set ((h.invalidate.requests r hr).move fun m hm => ?_)
        cases hm
        exact (le_max_right _ _).trans_eq Epoch.Counter.floor_raise.symm
      · cases hnext
        exact h.set (hsound.move (by simp [RequestPhase.Sound]))
  · cases hnext

theorem backendCommit {c : Command} {notify : Bool}
    (hnext : w.backendCommit i c notify = some w') : w'.Sound config := by
  refine h.withRequest hnext fun r hr hsound hnext => ?_
  split at hnext
  · rename_i mutation hphase
    obtain ⟨w₁, hcommit, rfl⟩ := Option.map_eq_some_iff.1 hnext
    obtain ⟨hw₁, hl⟩ := h.commit hcommit
    have hsound := (h.requests r hr).later hl
    have hforwarded := hsound.inPhase hphase
    refine hw₁.set (hsound.move fun m hm => ?_)
    obtain ⟨m₀, hm₀, rfl⟩ := Option.map_eq_some_iff.1 hm
    exact hforwarded m₀ hm₀
  · cases hnext

theorem relay (hnext : w.relay i = some w') : w'.Sound config := by
  refine h.withRequest hnext fun r hr hsound hnext => ?_
  split at hnext
  · rename_i mutation hphase
    have hforwarded := hsound.inPhase hphase
    cases hnext
    refine Sound.set { h with relayed := fun m hm => ?_ } (hsound.move trivial)
    rcases List.mem_append.1 hm with hm | hm
    · exact h.relayed m hm
    · exact hforwarded m (Option.mem_toList.1 hm)
  · cases hnext

theorem fail (hnext : w.fail i = some w') : w'.Sound config := by
  refine h.withRequest hnext fun r hr hsound hnext => ?_
  cases hnext
  exact (h.lock _).set ((h.requests r hr).move trivial)

/-! ## Runs -/

theorem next {a : IngressAction} (hnext : w.next config a = some w') : w'.Sound config := by
  cases a with
  | start => exact h.start hnext
  | commit c notify => exact (h.commit hnext).1
  | deliver => exact h.deliver hnext
  | disconnect =>
    simp only [Ingress.next] at hnext
    split at hnext
    · cases hnext
      exact h.disconnect
    · cases hnext
  | receive request => exact h.receive hnext
  | readEpoch i => exact h.readEpoch hnext
  | lookup i time => exact h.lookup hnext
  | queryToken i time requestId => exact h.queryToken hnext
  | readEpochAfter i => exact h.readEpochAfter hnext
  | storeToken i time => exact h.storeToken hnext
  | authenticateUncached i time requestId => exact h.authenticateUncached hnext
  | readPolicyEpoch i => exact h.readPolicyEpoch hnext
  | readPolicy i => exact h.readPolicy hnext
  | lockPolicy i => exact h.lockPolicy hnext
  | recheckPolicy i => exact h.recheckPolicy hnext
  | beginPolicyLoad i => exact h.beginPolicyLoad hnext
  | queryPolicy i => exact h.queryPolicy hnext
  | finishPolicyLoad i => exact h.finishPolicyLoad hnext
  | forward i => exact h.forward hnext
  | backendCommit i c notify => exact h.backendCommit hnext
  | relay i => exact h.relay hnext
  | fail i => exact h.fail hnext

omit h in
theorem of_reachable {db : Db} (h : Reachable (ingressSystem config db) w) : w.Sound config := by
  refine ReachableBy.invariant (S := ingressSystem config db) ?_ (fun hs _ hnext => hs.next hnext) h
  exact
    { floor := le_rfl, inbox := by simp [ingressSystem, Tracker.connected], processed := Nat.zero_le _
      tokens := by simp [ingressSystem], cedar := by simp [ingressSystem], relayed := by simp [ingressSystem]
      requests := by simp [ingressSystem] }

end Sound

end Ingress

/-! ## Hits -/

variable {db : Db} {w : Ingress} {r : IngressRequest}

/-- In every run, every hit of either cache is a snapshot at least as new as the last commit the tracker had
processed when the request read its epoch. -/
theorem cache_hits_are_fresh (h : Reachable (ingressSystem config db) w) (hr : r ∈ w.requests) :
    (∀ snapshot version processed ageMs, r.source = .cached snapshot version processed ageMs →
      w.view.Snapshot config snapshot version ∧ processed ≤ version) ∧
    ∀ provider version processed, r.policy = some (.cached provider version processed) →
      w.view.Policy provider version ∧ processed ≤ version := by
  have hsound := (Ingress.Sound.of_reachable h).requests r hr
  refine ⟨fun snapshot version processed ageMs hsource => ?_, fun provider version processed hpolicy => ?_⟩
  · have hcached := hsound.source
    rw [hsource] at hcached
    exact ⟨hcached.1, hcached.2.1⟩
  · exact hsound.policy _ hpolicy

section Samples

def sampleIngress : IngressConfig Unit where
  verifier := founderVerifier
  cacheKey token := token.toUTF8.toList
  tokenCacheCapacity := 16
  cacheRevalidateMs := 1000
  nativeAuthorizationEnabled := true
  validPolicy _ := true

def sampleTime : IngressTime := ⟨⟨10, 10⟩, 10000⟩

def checkRequest : ProxyRequest := ⟨.post, "/api/authorization/check", some (.bearer "k2")⟩

theorem founderCookie_valid : validateIdentifier "00000000-0000-0000-0000-000000000002" = .ok () := by
  decide +kernel

def mutationRequest : ProxyRequest :=
  ⟨.post, "/api/sessions", some (.sessionCookie ⟨"00000000-0000-0000-0000-000000000002", founderCookie_valid⟩)⟩

def beginMutation (i : Nat) : List IngressAction :=
  [.receive mutationRequest, .authenticateUncached i sampleTime.toCallTime sampleRequest, .forward i]

def hitToken (i : Nat) : List IngressAction := [.receive checkRequest, .readEpoch i, .lookup i sampleTime]

def loadToken (i : Nat) : List IngressAction :=
  hitToken i ++ [.queryToken i sampleTime.toCallTime sampleRequest, .readEpochAfter i, .storeToken i sampleTime]

/-- Acme is founded, a forwarded mutation rotates to the second key and its notification is processed. -/
def rotatedRun : List IngressAction :=
  (foundAcme ++ rotateToSecond.take 1).map (IngressAction.commit · true) ++ List.replicate 6 IngressAction.deliver ++
    [IngressAction.start] ++ beginMutation 0 ++ (rotateToSecond.drop 1).map (IngressAction.backendCommit 0 · true) ++
      [IngressAction.relay 0, .deliver]

/-- One check fills both caches, and the next is served from them. -/
def warmRun : List IngressAction :=
  rotatedRun ++ loadToken 1 ++
      [IngressAction.readPolicyEpoch 1, .readPolicy 1, .lockPolicy 1, .recheckPolicy 1, .beginPolicyLoad 1,
        .queryPolicy 1, .finishPolicyLoad 1] ++
      hitToken 2 ++ [IngressAction.readPolicyEpoch 2, .readPolicy 2]

/-- A second mutation is forwarded, a check fills the token cache, and only then is the founder's session
revoked. The response is relayed before the notification is processed. -/
def staleRun : List IngressAction :=
  warmRun ++ beginMutation 3 ++ loadToken 4 ++
    [.backendCommit 3 (.revokeSession { sessionId := ⟨2⟩, actorSessionId := ⟨2⟩, nowMs := 15000 }) true, .relay 3] ++
      hitToken 5

/-- A second mutation is relayed, and the checks come before its notification is processed. -/
def lateRun : List IngressAction :=
  rotatedRun ++ beginMutation 1 ++ (joinAcme.take 1).map (IngressAction.backendCommit 1 · true) ++ [.relay 1] ++
    loadToken 2 ++ hitToken 3

/-- A request served from the token cache, with the versions of the hit. -/
def IngressRequest.hit (r : IngressRequest) : Option (Nat × Nat × Nat) :=
  match r.source with
  | .cached _ version processed ageMs => some (version, processed, ageMs)
  | _ => none

theorem IngressRequest.source_of_hit {r : IngressRequest} {version processed ageMs : Nat}
    (h : r.hit = some (version, processed, ageMs)) :
    ∃ snapshot, r.source = .cached snapshot version processed ageMs := by
  unfold IngressRequest.hit at h
  split at h
  · rename_i snapshot version' processed' ageMs' hsource
    cases h
    exact ⟨snapshot, hsource⟩
  · cases h

theorem sample_hits : ∃ w, Reachable (ingressSystem sampleIngress postgres.init) w ∧
    (∃ r ∈ w.requests, r.hit = some (7, 7, 0) ∧ r.policy = some (.cached none 7 7) ∧ r.relayedBefore = [⟨6, [7]⟩]) ∧
    (∃ r ∈ w.requests, r.hit = some (7, 7, 0) ∧ ⟨7, [8]⟩ ∈ r.relayedBefore) ∧
      verify founderVerifier sampleTime.toCallTime "k2" sampleRequest w.db = .error .invalidToken := by
  obtain ⟨w, hreach, hp⟩ := exists_reachable_of_run (ingressSystem sampleIngress postgres.init) staleRun
    (fun w => decide ((∃ r ∈ w.requests,
        r.hit = some (7, 7, 0) ∧ r.policy = some (.cached none 7 7) ∧ r.relayedBefore = [⟨6, [7]⟩]) ∧
      (∃ r ∈ w.requests, r.hit = some (7, 7, 0) ∧ ⟨7, [8]⟩ ∈ r.relayedBefore) ∧
        verify founderVerifier sampleTime.toCallTime "k2" sampleRequest w.db = .error .invalidToken))
    (by decide +kernel)
  exact ⟨w, hreach, of_decide_eq_true hp⟩

end Samples

/-- Both caches answer for the version of the seventh commit, the last one processed. -/
theorem warm_hits_are_fresh : ∃ w r snapshot, Reachable (ingressSystem sampleIngress postgres.init) w ∧
    r ∈ w.requests ∧ r.source = .cached snapshot 7 7 0 ∧ r.policy = some (.cached none 7 7) ∧
      w.view.Snapshot sampleIngress snapshot 7 ∧ w.view.Policy none 7 := by
  obtain ⟨w, hreach, ⟨r, hr, hhit, hpolicy, -⟩, -⟩ := sample_hits
  obtain ⟨snapshot, hsource⟩ := r.source_of_hit hhit
  have hfresh := cache_hits_are_fresh hreach hr
  exact ⟨w, r, snapshot, hreach, hr, hsource, hpolicy, (hfresh.1 _ _ _ _ hsource).1, (hfresh.2 _ _ _ hpolicy).1⟩

/-- A mutation was forwarded and relayed before the last check came in. The check is authenticated from a
snapshot older than what the mutation committed, though the session it names is revoked. -/
theorem stale_hit_after_relay : ∃ w r, Reachable (ingressSystem sampleIngress postgres.init) w ∧ r ∈ w.requests ∧
    ∃ snapshot version processed ageMs, r.source = .cached snapshot version processed ageMs ∧
      (∃ m ∈ r.relayedBefore, ∃ commit ∈ m.commits, version < commit) ∧
      verify founderVerifier sampleTime.toCallTime "k2" sampleRequest w.db = .error .invalidToken := by
  obtain ⟨w, hreach, -, ⟨r, hr, hhit, hrelayed⟩, hrefused⟩ := sample_hits
  obtain ⟨snapshot, hsource⟩ := r.source_of_hit hhit
  exact ⟨w, r, hreach, hr, snapshot, 7, 7, 0, hsource, ⟨_, hrelayed, 8, by decide⟩, hrefused⟩

/-- What does hold once a mutation has been relayed: a later hit is at least as new as the database was when the
ingress invalidated for the mutation, as new as any of its commits whose notification had been processed when
the request read its epoch, and stored no longer ago than the revalidation interval. -/
theorem hits_after_relay (h : Reachable (ingressSystem config db) w) (hr : r ∈ w.requests)
    {snapshot : VerifiedAccessToken} {version processed ageMs : Nat}
    (hsource : r.source = .cached snapshot version processed ageMs) :
    w.view.Snapshot config snapshot version ∧ ageMs ≤ config.cacheRevalidateMs ∧
      ∀ m ∈ r.relayedBefore, m.invalidatedAt ≤ version ∧
        ∀ commit ∈ m.commits, commit ≤ processed → commit ≤ version := by
  have hcached := ((Ingress.Sound.of_reachable h).requests r hr).source
  rw [hsource] at hcached
  obtain ⟨hsnapshot, hprocessed, hrelayed, hage⟩ := hcached
  exact ⟨hsnapshot, hage, fun m hm => ⟨hrelayed m hm, fun commit _ hcommit => hcommit.trans hprocessed⟩⟩

/-- Two mutations were relayed before the last check, and the first one's commit has been processed. -/
theorem warm_hit_after_relay : ∃ w r snapshot, Reachable (ingressSystem sampleIngress postgres.init) w ∧
    r ∈ w.requests ∧ r.source = .cached snapshot 8 7 0 ∧ r.relayedBefore = [⟨6, [7]⟩, ⟨7, [8]⟩] ∧
      ∀ m ∈ r.relayedBefore, m.invalidatedAt ≤ 8 ∧ ∀ commit ∈ m.commits, commit ≤ 7 → commit ≤ 8 := by
  obtain ⟨w, hreach, htest⟩ := exists_reachable_of_run (ingressSystem sampleIngress postgres.init) lateRun
    (fun w => decide (∃ r ∈ w.requests, r.hit = some (8, 7, 0) ∧ r.relayedBefore = [⟨6, [7]⟩, ⟨7, [8]⟩]))
    (by decide +kernel)
  obtain ⟨r, hr, hhit, hrelayed⟩ := of_decide_eq_true htest
  obtain ⟨snapshot, hsource⟩ := r.source_of_hit hhit
  exact ⟨w, r, snapshot, hreach, hr, hsource, hrelayed, (hits_after_relay hreach hr hsource).2.2⟩

end WasiAuth
