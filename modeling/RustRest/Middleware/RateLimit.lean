import RustRest.Lib.FiniteMap
import RustRest.Lib.FixedWindow
import RustRest.Http1.Head
import RustRest.Session.Store
import RustRest.Header

/-!
# The rate limiter

`RateLimit` counts the requests of each client in windows of a fixed size. It keeps one bucket for each of at most
`max_clients` clients, sweeps out expired ones from time to time, and lets all other clients share one bucket.

Main results: **`rateLimit_refines`**, **`retryAfter_admitted`**.
-/

namespace RustRest

open FiniteMap FixedWindow List

variable {K : Type} [DecidableEq K]

/-! ## The model -/

/-- `u32::MAX`. -/
def u32Max : ℕ := 4294967295

/-- `RateLimit`, with the last instant that the platform can represent. No two instants are `u64::MAX` seconds apart. -/
structure RateLimit where
  maxRequests : ℕ
  window : ℕ
  maxClients : ℕ
  maxInstant : ℕ
  maxRequests_le : maxRequests ≤ u32Max
  window_pos : 0 < window
  maxClients_pos : 0 < maxClients
  maxInstant_lt : maxInstant < u64Max * second

/-- The window of a client. -/
structure RateBucket where
  start : ℕ
  count : ℕ
  deriving DecidableEq

/-- The buckets, the one of clients beyond the limit, the next sweep. -/
structure RateState (K : Type) where
  buckets : Map K RateBucket
  overflow : Option RateBucket
  nextCleanup : ℕ

def tooManyRequests (message : String) : HttpError := .new 429 "too_many_requests" message

/-- The answer to a request that is refused. -/
structure RateRefusal where
  error : HttpError
  retryAfter : String
  deriving DecidableEq

/-- The rest of the window, rounded up, at least 1. -/
def retryAfterSeconds (remaining : ℕ) : ℕ :=
  max (min (remaining / second + if remaining % second ≠ 0 then 1 else 0) u64Max) 1

namespace RateLimit

variable (cfg : RateLimit)

def cleanupInterval : ℕ := min cfg.window (60 * second)

def nextCleanup (now : ℕ) : ℕ :=
  if now + cfg.cleanupInterval ≤ cfg.maxInstant then now + cfg.cleanupInterval else now

/-- The state that `into_middleware` starts with. -/
def newState (now : ℕ) : RateState K := ⟨∅, none, cfg.nextCleanup now⟩

/-- The bucket is renewed after its window, then counted up. -/
def checkRateBucket (bucket : RateBucket) (now : ℕ) : Option ℕ × RateBucket :=
  let bucket : RateBucket := if now - bucket.start ≥ cfg.window then ⟨now, 0⟩ else bucket
  let bucket : RateBucket := { bucket with count := min (bucket.count + 1) u32Max }
  (if bucket.count > cfg.maxRequests then some (cfg.window - (now - bucket.start)) else none, bucket)

/-- `remove_expired_rate_buckets`. -/
def removeExpiredRateBuckets (state : RateState K) (now : ℕ) : RateState K :=
  { state with
    buckets := retain (fun _ bucket => now - bucket.start < cfg.window) state.buckets
    overflow := if state.overflow.any fun bucket => now - bucket.start ≥ cfg.window then none else state.overflow }

/-- The sweep of `check_rate_limit_state`. -/
def cleanup (state : RateState K) (now : ℕ) : RateState K :=
  if now ≥ state.nextCleanup then
    { cfg.removeExpiredRateBuckets state now with nextCleanup := cfg.nextCleanup now }
  else state

/-- `check_rate_limit_state`: one request, under the lock. -/
def checkRateLimitState (state : RateState K) (key : K) (now : ℕ) : Option ℕ × RateState K :=
  let state := cfg.cleanup state now
  let hasCapacity := state.buckets.keys.card < cfg.maxClients
  match state.buckets.lookup key with
  | some bucket =>
    let (overLimit, bucket) := cfg.checkRateBucket bucket now
    (overLimit, { state with buckets := state.buckets.insert key bucket })
  | none =>
    if hasCapacity then
      let (overLimit, bucket) := cfg.checkRateBucket ⟨now, 0⟩ now
      (overLimit, { state with buckets := state.buckets.insert key bucket })
    else
      let (overLimit, bucket) := cfg.checkRateBucket (state.overflow.getD ⟨now, 0⟩) now
      (overLimit, { state with overflow := some bucket })

end RateLimit

/-! ## Histories -/

structure RateRequest (cfg : RateLimit) (K : Type) where
  key : K
  now : ℕ
  now_le : now ≤ cfg.maxInstant

namespace RateLimit

variable (cfg : RateLimit) (created : ℕ)

/-- The state after some requests. -/
def after (requests : List (RateRequest cfg K)) : RateState K :=
  requests.foldl (fun state r => (cfg.checkRateLimitState state r.key r.now).2) (cfg.newState created)

def decision (before : List (RateRequest cfg K)) (r : RateRequest cfg K) : Option ℕ :=
  (cfg.checkRateLimitState (cfg.after created before) r.key r.now).1

/-- The answer of the middleware, if it does not call the next layer. -/
def reply (before : List (RateRequest cfg K)) (r : RateRequest cfg K) : Option RateRefusal :=
  (cfg.decision created before r).map fun remaining =>
    ⟨tooManyRequests "Too Many Requests", decimalText (retryAfterSeconds remaining)⟩

def unboundedBuckets (requests : List (RateRequest cfg K)) : K → Option RateBucket :=
  requests.foldl (fun buckets r =>
    Function.update buckets r.key (some (cfg.checkRateBucket ((buckets r.key).getD ⟨r.now, 0⟩) r.now).2)) fun _ => none

/-- What that limiter tells a request. -/
def unboundedDecision (before : List (RateRequest cfg K)) (r : RateRequest cfg K) : Option ℕ :=
  (cfg.checkRateBucket ((cfg.unboundedBuckets before r.key).getD ⟨r.now, 0⟩) r.now).1

/-- The instants of a client's requests. -/
def instantsOf (requests : List (RateRequest cfg K)) (key : K) : List ℕ :=
  (requests.filter fun r => r.key = key).map RateRequest.now

/-- The window of a request, after others. -/
def windowOf (before : List (RateRequest cfg K)) (r : RateRequest cfg K) : Window :=
  advance cfg.window (FixedWindow.window cfg.window (cfg.instantsOf before r.key)) r.now

def exactDecision (before : List (RateRequest cfg K)) (r : RateRequest cfg K) : Option ℕ :=
  if cfg.maxRequests < (cfg.windowOf before r).count then some (cfg.window - (r.now - (cfg.windowOf before r).start))
  else none

end RateLimit

/-! ## Buckets and windows -/

namespace RateLimit

variable (cfg : RateLimit)

/-- A window as a bucket holds it. -/
def bucketOf (w : Window) : RateBucket := ⟨w.start, min w.count u32Max⟩

/-- What a request is told in its window. -/
def windowDecision (w : Window) (now : ℕ) : Option ℕ :=
  if min w.count u32Max > cfg.maxRequests then some (cfg.window - (now - w.start)) else none

theorem checkRateBucket_ended {bucket : RateBucket} {now : ℕ} (h : cfg.window ≤ now - bucket.start) :
    cfg.checkRateBucket bucket now = (cfg.windowDecision ⟨now, 1⟩ now, bucketOf ⟨now, 1⟩) := by
  unfold checkRateBucket
  rw [if_pos h]
  rfl

theorem checkRateBucket_new (now : ℕ) :
    cfg.checkRateBucket ⟨now, 0⟩ now = (cfg.windowDecision ⟨now, 1⟩ now, bucketOf ⟨now, 1⟩) := by
  have hpos := cfg.window_pos
  unfold checkRateBucket
  rw [if_neg (by dsimp only; omega)]
  rfl

theorem checkRateBucket_bucketOf (w : Window) (now : ℕ) : cfg.checkRateBucket (bucketOf w) now =
    (cfg.windowDecision (advance cfg.window (some w) now) now, bucketOf (advance cfg.window (some w) now)) := by
  by_cases hended : w.Ended cfg.window now
  · have hfirst : advance cfg.window (some w) now = ⟨now, 1⟩ := if_pos hended
    rw [hfirst]
    exact cfg.checkRateBucket_ended hended
  · have hcurrent : ¬ now - (bucketOf w).start ≥ cfg.window := hended
    have hcount : min (min w.count u32Max + 1) u32Max = min (w.count + 1) u32Max := by omega
    rw [advance_of_not_ended hended]
    unfold checkRateBucket
    rw [if_neg hcurrent]
    unfold windowDecision bucketOf
    dsimp only
    rw [hcount]

theorem checkRateBucket_getD (w : Option Window) (now : ℕ) :
    cfg.checkRateBucket ((w.map bucketOf).getD ⟨now, 0⟩) now =
      (cfg.windowDecision (advance cfg.window w now) now, bucketOf (advance cfg.window w now)) := by
  cases w with
  | none => exact cfg.checkRateBucket_new now
  | some w => exact cfg.checkRateBucket_bucketOf w now

theorem windowDecision_eq_none {w : Window} {now : ℕ} (h : w.count ≤ cfg.maxRequests) :
    cfg.windowDecision w now = none := if_neg (by omega)

theorem windowDecision_of_lt (hmax : cfg.maxRequests < u32Max) (w : Window) (now : ℕ) : cfg.windowDecision w now =
    if cfg.maxRequests < w.count then some (cfg.window - (now - w.start)) else none := by
  unfold windowDecision
  have hiff : min w.count u32Max > cfg.maxRequests ↔ cfg.maxRequests < w.count := by omega
  simp only [hiff]

theorem lt_count_of_windowDecision {w : Window} {now remaining : ℕ} (h : cfg.windowDecision w now = some remaining) :
    cfg.maxRequests < w.count ∧ remaining = cfg.window - (now - w.start) := by
  obtain ⟨hlt, hremaining⟩ := Option.ite_none_right_eq_some.1 h
  exact ⟨by omega, (Option.some.inj hremaining).symm⟩

/-! ### One more request -/

variable {cfg}

theorem instantsOf_concat (before : List (RateRequest cfg K)) (r : RateRequest cfg K) (key : K) :
    cfg.instantsOf (before ++ [r]) key = cfg.instantsOf before key ++ if r.key = key then [r.now] else [] := by
  unfold instantsOf
  rw [filter_append, map_append, filter_singleton]
  by_cases hkey : r.key = key <;> simp [hkey]

theorem window_instantsOf_concat (before : List (RateRequest cfg K)) (r : RateRequest cfg K) (key : K) :
    FixedWindow.window cfg.window (cfg.instantsOf (before ++ [r]) key) =
      if r.key = key then some (cfg.windowOf before r)
      else FixedWindow.window cfg.window (cfg.instantsOf before key) := by
  rw [instantsOf_concat]
  split
  · next hkey =>
    subst hkey
    exact window_concat _ _
  · rw [append_nil]

theorem unboundedBuckets_eq (requests : List (RateRequest cfg K)) (key : K) : cfg.unboundedBuckets requests key =
    (FixedWindow.window cfg.window (cfg.instantsOf requests key)).map bucketOf := by
  induction requests using List.reverseRecOn generalizing key with
  | nil => rfl
  | append_singleton before r ih =>
    unfold unboundedBuckets at ih ⊢
    rw [foldl_append, foldl_cons, foldl_nil, Function.update_apply, ih, ih, window_instantsOf_concat]
    by_cases hkey : r.key = key
    · rw [if_pos hkey.symm, if_pos hkey, Option.map_some, checkRateBucket_getD]
      rfl
    · rw [if_neg (Ne.symm hkey), if_neg hkey]

theorem unboundedDecision_eq (before : List (RateRequest cfg K)) (r : RateRequest cfg K) :
    cfg.unboundedDecision before r = cfg.windowDecision (cfg.windowOf before r) r.now := by
  rw [unboundedDecision, unboundedBuckets_eq, checkRateBucket_getD]
  rfl

/-! ## The buckets of a history -/

def clients (requests : List (RateRequest cfg K)) : Finset K := (requests.map RateRequest.key).toFinset

variable {requests : List (RateRequest cfg K)}

theorem mem_clients {key : K} : key ∈ clients requests ↔ ∃ r ∈ requests, r.key = key := by
  rw [clients, mem_toFinset, mem_map]

theorem clients_subset {requests requests' : List (RateRequest cfg K)} (h : requests ⊆ requests') :
    clients requests ⊆ clients requests' := by
  intro key hkey
  obtain ⟨r, hr, hr'⟩ := mem_clients.1 hkey
  exact mem_clients.2 ⟨r, h hr, hr'⟩

theorem key_mem_clients (before : List (RateRequest cfg K)) (r : RateRequest cfg K) : r.key ∈ clients (before ++ [r]) :=
  mem_clients.2 ⟨r, mem_append_right _ (mem_singleton.2 rfl), rfl⟩

structure Tracks (state : RateState K) (before : List (RateRequest cfg K)) (now : ℕ) : Prop where
  known : ∀ key ∈ state.buckets.keys, key ∈ clients before
  bucket : ∀ key bucket, state.buckets.lookup key = some bucket →
    (FixedWindow.window cfg.window (cfg.instantsOf before key)).map bucketOf = some bucket
  ended : ∀ key, state.buckets.lookup key = none → ∀ w,
    FixedWindow.window cfg.window (cfg.instantsOf before key) = some w → w.Ended cfg.window now

variable {state : RateState K} {before : List (RateRequest cfg K)} {now : ℕ}

theorem Tracks.mono (h : Tracks state before now) {now' : ℕ} (hle : now ≤ now') : Tracks state before now' :=
  { h with ended := fun key hkey w hw => (h.ended key hkey w hw).mono hle }

theorem Tracks.cleanup (h : Tracks state before now) : Tracks (cfg.cleanup state now) before now := by
  unfold RateLimit.cleanup
  split
  · have hlookup : ∀ key, (cfg.removeExpiredRateBuckets state now).buckets.lookup key =
        (state.buckets.lookup key).filter fun bucket => now - bucket.start < cfg.window := fun key =>
      lookup_retain _ _ key
    refine ⟨fun key hkey => ?_, fun key bucket hbucket => ?_, fun key hkey w hw => ?_⟩
    · obtain ⟨bucket, hbucket⟩ := Finmap.mem_iff.1 (Finmap.mem_keys.1 hkey)
      exact h.known key (mem_keys_of_lookup (Option.filter_eq_some_iff.1 ((hlookup key).symm.trans hbucket)).1)
    · exact h.bucket key bucket (Option.filter_eq_some_iff.1 ((hlookup key).symm.trans hbucket)).1
    · cases hbucket : state.buckets.lookup key with
      | none => exact h.ended key hbucket w hw
      | some bucket =>
        -- The bucket was there, so the sweep found that its window has ended.
        have hswept := (hlookup key).symm.trans hkey
        have hstart := h.bucket key bucket hbucket
        rw [hw, Option.map_some] at hstart
        obtain rfl := Option.some.inj hstart
        rw [hbucket, Option.filter_some] at hswept
        refine Nat.le_of_not_lt fun (hcurrent : now - (bucketOf w).start < cfg.window) => ?_
        rw [if_pos (decide_eq_true hcurrent)] at hswept
        cases hswept
  · exact h

variable {r : RateRequest cfg K}

theorem Tracks.capacity (h : Tracks state before now) (hkey : state.buckets.lookup r.key = none)
    (hclients : (clients (before ++ [r])).card ≤ cfg.maxClients) : state.buckets.keys.card < cfg.maxClients := by
  have hnew : r.key ∉ state.buckets.keys := fun hmem => Finmap.lookup_eq_none.1 hkey (Finmap.mem_keys.1 hmem)
  have hsubset : insert r.key state.buckets.keys ⊆ clients (before ++ [r]) := by
    intro key hmem
    rcases Finset.mem_insert.1 hmem with rfl | hmem
    · exact key_mem_clients before r
    · exact clients_subset (subset_append_left _ _) (h.known key hmem)
  calc state.buckets.keys.card < (insert r.key state.buckets.keys).card := by
        rw [Finset.card_insert_of_notMem hnew]
        exact Nat.lt_succ_self _
    _ ≤ (clients (before ++ [r])).card := Finset.card_le_card hsubset
    _ ≤ cfg.maxClients := hclients

theorem Tracks.check (h : Tracks state before r.now)
    (hclients : (clients (before ++ [r])).card ≤ cfg.maxClients) :
    cfg.checkRateLimitState state r.key r.now = (cfg.windowDecision (cfg.windowOf before r) r.now,
      { cfg.cleanup state r.now with
        buckets := (cfg.cleanup state r.now).buckets.insert r.key (bucketOf (cfg.windowOf before r)) }) := by
  have hswept := h.cleanup
  unfold checkRateLimitState
  dsimp only
  cases hbucket : (cfg.cleanup state r.now).buckets.lookup r.key with
  | none =>
    have hwindow : cfg.windowOf before r = ⟨r.now, 1⟩ := advance_of_ended (hswept.ended r.key hbucket)
    rw [if_pos (hswept.capacity hbucket hclients), checkRateBucket_new, hwindow]
  | some bucket =>
    obtain ⟨w, hw, rfl⟩ := Option.map_eq_some_iff.1 (hswept.bucket r.key bucket hbucket)
    have hwindow : cfg.windowOf before r = advance cfg.window (some w) r.now := by rw [windowOf, hw]
    dsimp only
    rw [checkRateBucket_bucketOf, hwindow]

theorem Tracks.next (h : Tracks state before r.now)
    (hclients : (clients (before ++ [r])).card ≤ cfg.maxClients) :
    Tracks (cfg.checkRateLimitState state r.key r.now).2 (before ++ [r]) r.now := by
  have hswept := h.cleanup
  rw [h.check hclients]
  refine ⟨fun key hkey => ?_, fun key bucket hbucket => ?_, fun key hkey w hw => ?_⟩
  · rw [Finmap.mem_keys, Finmap.mem_insert] at hkey
    rcases hkey with rfl | hkey
    · exact key_mem_clients before r
    · exact clients_subset (subset_append_left _ _) (hswept.known key (Finmap.mem_keys.2 hkey))
  · rw [lookup_insert_eq] at hbucket
    rw [window_instantsOf_concat]
    by_cases hkey : key = r.key
    · rw [if_pos hkey] at hbucket
      rw [if_pos hkey.symm, Option.map_some, hbucket]
    · rw [if_neg hkey] at hbucket
      rw [if_neg (Ne.symm hkey)]
      exact hswept.bucket key bucket hbucket
  · rw [lookup_insert_eq] at hkey
    split at hkey
    · cases hkey
    · next hne =>
      rw [window_instantsOf_concat, if_neg (Ne.symm hne)] at hw
      exact hswept.ended key hkey w hw

variable (created : ℕ)

theorem after_concat (before : List (RateRequest cfg K)) (r : RateRequest cfg K) :
    cfg.after created (before ++ [r]) = (cfg.checkRateLimitState (cfg.after created before) r.key r.now).2 := by
  rw [after, foldl_append]
  rfl

/-- The buckets after every history. -/
theorem tracks_after (hsorted : requests.Pairwise fun r r' => r.now ≤ r'.now)
    (hclients : (clients requests).card ≤ cfg.maxClients) {now : ℕ} (hnow : ∀ r ∈ requests, r.now ≤ now) :
    Tracks (cfg.after created requests) requests now := by
  induction requests using List.reverseRecOn generalizing now with
  | nil =>
    refine ⟨fun key hkey => ?_, fun key bucket hbucket => ?_, fun key _ w hw => ?_⟩
    · exact absurd hkey (by simp [after, newState])
    · cases hbucket
    · cases hw
  | append_singleton before r ih =>
    obtain ⟨hbefore, -, hlast⟩ := pairwise_append.1 hsorted
    have hfewer : (clients before).card ≤ cfg.maxClients :=
      (Finset.card_le_card (clients_subset (subset_append_left _ _))).trans hclients
    have htracks := ih hbefore hfewer fun r' hr' => hlast r' hr' r (mem_singleton.2 rfl)
    rw [after_concat]
    exact (htracks.next hclients).mono (hnow r (mem_append_right _ (mem_singleton.2 rfl)))

theorem card_buckets_cleanup_le (state : RateState K) (now : ℕ) :
    (cfg.cleanup state now).buckets.keys.card ≤ state.buckets.keys.card := by
  unfold RateLimit.cleanup
  split
  · refine Finset.card_le_card fun key hkey => ?_
    obtain ⟨bucket, hbucket⟩ := Finmap.mem_iff.1 (Finmap.mem_keys.1 hkey)
    have hkept := (lookup_retain _ state.buckets key).symm.trans hbucket
    exact mem_keys_of_lookup (Option.filter_eq_some_iff.1 hkept).1
  · exact Nat.le_refl _

theorem card_buckets_check_le {state : RateState K} (h : state.buckets.keys.card ≤ cfg.maxClients) (key : K) (now : ℕ) :
    (cfg.checkRateLimitState state key now).2.buckets.keys.card ≤ cfg.maxClients := by
  have hswept : (cfg.cleanup state now).buckets.keys.card ≤ cfg.maxClients := (card_buckets_cleanup_le state now).trans h
  unfold checkRateLimitState
  dsimp only
  cases hbucket : (cfg.cleanup state now).buckets.lookup key with
  | some bucket =>
    have hcard := card_keys_of_lookup (lookup_insert_eq (cfg.cleanup state now).buckets key
      (cfg.checkRateBucket bucket now).2)
    rw [hbucket] at hcard
    exact (Nat.add_right_cancel hcard).trans_le hswept
  | none =>
    dsimp only
    split
    · next hroom =>
      have hcard := card_keys_of_lookup (lookup_insert_eq (cfg.cleanup state now).buckets key
        (cfg.checkRateBucket ⟨now, 0⟩ now).2)
      rw [hbucket] at hcard
      exact hcard.trans_le hroom
    · exact hswept

theorem card_buckets_le (requests : List (RateRequest cfg K)) :
    (cfg.after created requests).buckets.keys.card ≤ cfg.maxClients := by
  induction requests using List.reverseRecOn with
  | nil => exact Nat.zero_le _
  | append_singleton before r ih =>
    rw [after_concat]
    exact card_buckets_check_le ih r.key r.now

theorem decision_eq {requests before after : List (RateRequest cfg K)}
    (hsorted : requests.Pairwise fun r r' => r.now ≤ r'.now) (hclients : (clients requests).card ≤ cfg.maxClients)
    (hrequests : requests = before ++ r :: after) :
    cfg.decision created before r = cfg.windowDecision (cfg.windowOf before r) r.now := by
  subst hrequests
  obtain ⟨hbefore, -, hlast⟩ := pairwise_append.1 hsorted
  have hfewer : ∀ {part}, part <+: before ++ r :: after → (clients part).card ≤ cfg.maxClients := fun hpart =>
    (Finset.card_le_card (clients_subset hpart.subset)).trans hclients
  have htracks := tracks_after created hbefore (hfewer (prefix_append _ _))
    fun r' hr' => hlast r' hr' r mem_cons_self
  have hnext : before ++ [r] <+: before ++ r :: after := ⟨after, by simp⟩
  rw [decision, htracks.check (hfewer hnext)]

theorem pairwise_instantsOf (hsorted : requests.Pairwise fun r r' => r.now ≤ r'.now) (key : K) :
    (cfg.instantsOf requests key).Pairwise (· ≤ ·) :=
  pairwise_map.2 (hsorted.filter _)

def requestsWithin (requests : List (RateRequest cfg K)) (key : K) (first last : ℕ) : ℕ :=
  requests.countP fun r => r.key = key ∧ first ≤ r.now ∧ r.now ≤ last

theorem countP_instantsOf (requests : List (RateRequest cfg K)) (key : K) (p : ℕ → Bool) :
    (cfg.instantsOf requests key).countP p = requests.countP fun r => r.key = key ∧ p r.now = true := by
  rw [instantsOf, countP_map, countP_filter]
  refine countP_congr fun r _ => ?_
  simp [and_comm]

theorem windowOf_spec {requests before after : List (RateRequest cfg K)}
    (hsorted : requests.Pairwise fun r r' => r.now ≤ r'.now) (hrequests : requests = before ++ r :: after) :
    (cfg.windowOf before r).start ≤ r.now ∧ r.now - (cfg.windowOf before r).start < cfg.window ∧
      (cfg.windowOf before r).count ≤ requestsWithin requests r.key (cfg.windowOf before r).start r.now := by
  have hpart : before ++ [r] <+: requests := ⟨after, by rw [hrequests, append_assoc, singleton_append]⟩
  have hsorted' := hsorted.sublist hpart.sublist
  have hlast : ∀ r' ∈ before ++ [r], r'.now ≤ r.now := by
    intro r' hr'
    rcases mem_append.1 hr' with hr' | hr'
    · exact (pairwise_append.1 hsorted').2.2 r' hr' r (mem_singleton.2 rfl)
    · rw [mem_singleton.1 hr']
  have hinstants : ∀ t ∈ cfg.instantsOf before r.key, t ≤ r.now := by
    intro t ht
    obtain ⟨r', hr', rfl⟩ := mem_map.1 ht
    exact hlast r' (mem_append_left _ (mem_filter.1 hr').1)
  have hwindow := window_instantsOf_concat before r r.key
  rw [if_pos rfl] at hwindow
  refine ⟨(window_current cfg.window_pos hinstants).1, (window_current cfg.window_pos hinstants).2, ?_⟩
  calc (cfg.windowOf before r).count
      ≤ (cfg.instantsOf (before ++ [r]) r.key).countP fun t => (cfg.windowOf before r).start ≤ t :=
        count_le (pairwise_instantsOf hsorted' r.key) hwindow
    _ = requestsWithin (before ++ [r]) r.key (cfg.windowOf before r).start r.now := by
        rw [countP_instantsOf]
        refine countP_congr fun r' hr' => ?_
        simp [hlast r' hr']
    _ ≤ requestsWithin requests r.key (cfg.windowOf before r).start r.now := hpart.sublist.countP_le

end RateLimit

open RateLimit

/-- **The rate limiter and its windows.** Whatever the requests, no more clients are tracked than allowed. As long as
there are no more clients than that, every decision is the one of a limiter that keeps a bucket for every client and
never sweeps; below `u32::MAX` it is the one of a limiter that counts exactly. And a client with no more than
`max_requests` requests in any interval shorter than the window is never refused. -/
theorem rateLimit_refines (cfg : RateLimit) (created : ℕ) (requests : List (RateRequest cfg K))
    (hsorted : requests.Pairwise fun r r' => r.now ≤ r'.now) :
    (∀ before after, requests = before ++ after → (cfg.after created before).buckets.keys.card ≤ cfg.maxClients) ∧
    ((clients requests).card ≤ cfg.maxClients →
      (∀ before r after, requests = before ++ r :: after →
        cfg.decision created before r = cfg.unboundedDecision before r ∧
        (cfg.maxRequests < u32Max → cfg.decision created before r = cfg.exactDecision before r)) ∧
      ∀ key, (∀ first last, last - first < cfg.window → requestsWithin requests key first last ≤ cfg.maxRequests) →
        ∀ before r after, requests = before ++ r :: after → r.key = key → cfg.decision created before r = none) := by
  refine ⟨fun before _ _ => card_buckets_le created before, fun hclients => ⟨?_, ?_⟩⟩
  · intro before r after hrequests
    have hdecision := decision_eq created hsorted hclients hrequests
    refine ⟨hdecision.trans (unboundedDecision_eq before r).symm, fun hmax => ?_⟩
    rw [hdecision, windowDecision_of_lt cfg hmax]
    rfl
  · rintro key hquota before r after hrequests rfl
    obtain ⟨-, hcurrent, hcount⟩ := windowOf_spec hsorted hrequests
    rw [decision_eq created hsorted hclients hrequests]
    exact cfg.windowDecision_eq_none (hcount.trans (hquota _ _ hcurrent))

/-- One request in ten seconds, for two clients. -/
def smallRate : RateLimit where
  maxRequests := 1
  window := 10 * second
  maxClients := 2
  maxInstant := 100 * second
  maxRequests_le := by decide
  window_pos := by decide
  maxClients_pos := Nat.zero_lt_two
  maxInstant_lt := by decide

def fewRequests : List (RateRequest smallRate ℕ) :=
  [⟨0, 0, by decide⟩, ⟨1, second, by decide⟩, ⟨0, 2 * second, by decide⟩, ⟨0, 70 * second, by decide⟩]

/-- The second client keeps to the limit. -/
theorem rateLimit_refines_few : (clients fewRequests).card ≤ smallRate.maxClients ∧
    (smallRate.after 0 (fewRequests.take 2)).buckets.keys.card ≤ 2 ∧
    smallRate.decision 0 (fewRequests.take 3) ⟨0, 70 * second, by decide⟩ =
      smallRate.unboundedDecision (fewRequests.take 3) ⟨0, 70 * second, by decide⟩ ∧
    smallRate.decision 0 (fewRequests.take 1) ⟨1, second, by decide⟩ = none := by
  have hclients : (clients fewRequests).card ≤ smallRate.maxClients := by decide +kernel
  obtain ⟨hcard, hrest⟩ := rateLimit_refines smallRate 0 fewRequests (by decide +kernel)
  obtain ⟨hsame, hquota⟩ := hrest hclients
  refine ⟨hclients, hcard _ (fewRequests.drop 2) rfl, (hsame _ _ [] rfl).1, ?_⟩
  refine hquota 1 (fun first last _ => ?_) _ _ (fewRequests.drop 2) rfl rfl
  have hkey : ∀ r ∈ fewRequests, decide (r.key = 1 ∧ first ≤ r.now ∧ r.now ≤ last) = true → decide (r.key = 1) = true :=
    fun r _ h => decide_eq_true (of_decide_eq_true h).1
  calc requestsWithin fewRequests 1 first last ≤ fewRequests.countP fun r => r.key = 1 := countP_mono_left hkey
    _ = 1 := by decide +kernel

/-! ## Waiting -/

namespace RateLimit

theorem retryAfterSeconds_pos (remaining : ℕ) : 1 ≤ retryAfterSeconds remaining := Nat.le_max_right _ _

theorem retryAfterSeconds_le {remaining window : ℕ} (hpos : 0 < window) (hle : remaining ≤ window) :
    retryAfterSeconds remaining ≤ (window + second - 1) / second := by
  unfold retryAfterSeconds second
  split <;> omega

theorem le_retryAfterSeconds (remaining : ℕ) :
    remaining ≤ retryAfterSeconds remaining * second ∨ u64Max ≤ retryAfterSeconds remaining := by
  unfold retryAfterSeconds second
  split <;> omega

variable {cfg : RateLimit} {created : ℕ}

theorem start_between (before : List (RateRequest cfg K)) (r : RateRequest cfg K) (between : List (RateRequest cfg K))
    (h : ∀ seen x later, between = seen ++ x :: later → x.key = r.key → 1 < (cfg.windowOf (before ++ r :: seen) x).count) :
    ∃ w, FixedWindow.window cfg.window (cfg.instantsOf (before ++ r :: between) r.key) = some w ∧
      w.start = (cfg.windowOf before r).start := by
  induction between using List.reverseRecOn with
  | nil =>
    rw [window_instantsOf_concat, if_pos rfl]
    exact ⟨_, rfl, rfl⟩
  | append_singleton between x ih =>
    obtain ⟨w, hw, hstart⟩ := ih fun seen y later hbetween =>
      h seen y (later ++ [x]) (by rw [hbetween, append_assoc, cons_append])
    rw [← cons_append, ← append_assoc, window_instantsOf_concat]
    split
    · next hkey =>
      have hcount := h between x [] rfl hkey
      rw [windowOf, hkey, hw] at hcount ⊢
      exact ⟨_, rfl, (start_advance hcount).trans hstart⟩
    · exact ⟨w, hw, hstart⟩

theorem reply_eq_some {before : List (RateRequest cfg K)} {r : RateRequest cfg K} {refusal : RateRefusal} :
    cfg.reply created before r = some refusal ↔ ∃ remaining, cfg.decision created before r = some remaining ∧
      refusal = ⟨tooManyRequests "Too Many Requests", decimalText (retryAfterSeconds remaining)⟩ := by
  rw [reply, Option.map_eq_some_iff]
  simp only [eq_comm]

end RateLimit

/-- **Waiting as told.** A request that is refused is told a number of seconds, at least one and no more than the window
takes. The next request of the client after this time is admitted, if none was in between. -/
theorem retryAfter_admitted (cfg : RateLimit) (created : ℕ) (requests : List (RateRequest cfg K))
    (hsorted : requests.Pairwise fun r r' => r.now ≤ r'.now) (hclients : (clients requests).card ≤ cfg.maxClients)
    (hmax : 1 ≤ cfg.maxRequests) (before : List (RateRequest cfg K)) (r : RateRequest cfg K)
    (rest : List (RateRequest cfg K)) (hrequests : requests = before ++ r :: rest) (refusal : RateRefusal)
    (hrefused : cfg.reply created before r = some refusal) :
    ∃ seconds, refusal = ⟨tooManyRequests "Too Many Requests", decimalText seconds⟩ ∧
      1 ≤ seconds ∧ seconds ≤ (cfg.window + second - 1) / second ∧
      ∀ between r' after, rest = between ++ r' :: after → r'.key = r.key → r.now + seconds * second ≤ r'.now →
        (∀ seen x later, between = seen ++ x :: later → x.key = r.key →
          cfg.reply created (before ++ r :: seen) x ≠ none) →
        cfg.reply created (before ++ r :: between) r' = none := by
  obtain ⟨remaining, hdecision, rfl⟩ := reply_eq_some.1 hrefused
  rw [decision_eq created hsorted hclients hrequests] at hdecision
  obtain ⟨-, hremaining⟩ := cfg.lt_count_of_windowDecision hdecision
  obtain ⟨hstart, -, -⟩ := windowOf_spec hsorted hrequests
  refine ⟨retryAfterSeconds remaining, rfl, retryAfterSeconds_pos remaining,
    retryAfterSeconds_le cfg.window_pos (hremaining ▸ Nat.sub_le _ _), ?_⟩
  rintro between r' after rfl hkey hlater hbetween
  have hsplit : ∀ {seen x later}, between ++ r' :: after = seen ++ x :: later →
      before ++ r :: (between ++ r' :: after) = (before ++ r :: seen) ++ x :: later := fun h => by
    rw [h, append_assoc, cons_append]
  -- A refused request is not the first of its window, so until `r'` the window is the one of `r`.
  have hcounts : ∀ seen x later, between = seen ++ x :: later → x.key = r.key →
      1 < (cfg.windowOf (before ++ r :: seen) x).count := by
    rintro seen x later rfl hx
    obtain ⟨refusal', hrefused'⟩ := Option.ne_none_iff_exists'.1 (hbetween seen x later rfl hx)
    obtain ⟨remaining', hdecision', -⟩ := reply_eq_some.1 hrefused'
    rw [decision_eq created hsorted hclients
      (hrequests.trans (hsplit (append_assoc seen (x :: later) (r' :: after))))] at hdecision'
    exact hmax.trans_lt (cfg.lt_count_of_windowDecision hdecision').1
  obtain ⟨w, hw, hwstart⟩ := start_between before r between hcounts
  have hended : w.Ended cfg.window r'.now := by
    have hlast := r'.now_le
    have hplatform := cfg.maxInstant_lt
    rcases le_retryAfterSeconds remaining with henough | hsaturated
    · show cfg.window ≤ r'.now - w.start
      omega
    · have hfar := Nat.mul_le_mul_right second hsaturated
      omega
  have hwindow : cfg.windowOf (before ++ r :: between) r' = ⟨r'.now, 1⟩ := by
    rw [windowOf, hkey, hw]
    exact if_pos hended
  rw [reply, decision_eq created hsorted hclients (hrequests.trans (hsplit rfl)), hwindow,
    cfg.windowDecision_eq_none hmax]
  rfl

/-- The first client is told eight seconds, and is admitted later on. -/
theorem retryAfter_admitted_later :
    smallRate.reply 0 (fewRequests.take 2) ⟨0, 2 * second, by decide⟩ =
      some ⟨tooManyRequests "Too Many Requests", "8"⟩ ∧
    smallRate.reply 0 (fewRequests.take 3) ⟨0, 70 * second, by decide⟩ = none := by
  have hrefused : smallRate.reply 0 (fewRequests.take 2) ⟨0, 2 * second, by decide⟩ =
      some ⟨tooManyRequests "Too Many Requests", "8"⟩ := by decide +kernel
  obtain ⟨seconds, -, -, hle, hadmitted⟩ := retryAfter_admitted smallRate 0 fewRequests (by decide +kernel)
    (by decide +kernel) (by decide) (fewRequests.take 2) ⟨0, 2 * second, by decide⟩ (fewRequests.drop 3) rfl _ hrefused
  have hseconds : seconds ≤ 10 := hle
  refine ⟨hrefused, hadmitted [] ⟨0, 70 * second, by decide⟩ [] rfl rfl ?_ fun seen x later hnone => ?_⟩
  · show 2 * second + seconds * second ≤ 70 * second
    unfold second
    omega
  · cases seen <;> cases hnone

end RustRest
