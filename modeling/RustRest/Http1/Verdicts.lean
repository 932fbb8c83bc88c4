import RustRest.Http1.Sequence
import RustRest.Header

/-!
# Verdicts and requests

The inspector pushes a verdict for each head and the service takes one for each request Hyper dispatches. The calls of
`push` that a read makes, with their answers, are its `pushes`; a connection records them for all reads, together with
the answers of `next`.

Main result: **`verdicts_in_order`**.
-/

namespace RustRest

open Framing Http1InspectedIo List

/-! ## The calls of `push` -/

namespace Http1InspectedIo

variable (httparse : ℕ → HeadScanner RequestHead)

def turnPushes (s : Http1InspectedIo × Http1Verdicts) (input : List UInt8) : List (HeadVerdict × Bool) :=
  (observeTurn httparse s.1 [] input).1.2.map fun v => (v, (s.2.push v).1)

/-- The calls of `push` in one read. -/
def pushes (s : Http1InspectedIo × Http1Verdicts) (input : List UInt8) : List (HeadVerdict × Bool) :=
  if _hne : input = [] then []
  else if _hrest : (observeTurn httparse s.1 s.2 input).2 = [] then turnPushes httparse s input
  else turnPushes httparse s input ++
    pushes (observeTurn httparse s.1 s.2 input).1 (observeTurn httparse s.1 s.2 input).2
termination_by weight s.1 input
decreasing_by exact observeTurn_lt httparse s.1 s.2 _hne _hrest

end Http1InspectedIo

/-- The verdicts that were accepted. -/
def accepted (calls : List (HeadVerdict × Bool)) : List HeadVerdict :=
  (calls.filter fun call => call.2).map Prod.fst

theorem accepted_append (calls calls' : List (HeadVerdict × Bool)) :
    accepted (calls ++ calls') = accepted calls ++ accepted calls' := by
  rw [accepted, filter_append, map_append]
  rfl

theorem accepted_replicate (k : ℕ) :
    accepted (List.replicate k (.persistent, true)) = List.replicate k .persistent := by
  rw [accepted, filter_replicate]
  simp

inductive Calls : InspectState → InspectState → List (HeadVerdict × Bool) → Prop where
  | live {s s' : InspectState} (k : ℕ) : s ≠ .passthrough → s' ≠ .passthrough →
      Calls s s' (List.replicate k (.persistent, true))
  | stops {s : InspectState} (k : ℕ) {call : HeadVerdict × Bool} : s ≠ .passthrough → call ≠ (.persistent, true) →
      Calls s .passthrough (List.replicate k (.persistent, true) ++ [call])
  | stopped : Calls .passthrough .passthrough []

theorem Calls.append {s s' s'' : InspectState} {calls calls' : List (HeadVerdict × Bool)} (h : Calls s s' calls)
    (h' : Calls s' s'' calls') : Calls s s'' (calls ++ calls') := by
  cases h with
  | live k hs hs' =>
    cases h' with
    | live k' _ hs'' =>
      rw [replicate_append_replicate]
      exact .live _ hs hs''
    | stops k' _ hcall =>
      rw [← append_assoc, replicate_append_replicate]
      exact .stops _ hs hcall
    | stopped => exact absurd rfl hs'
  | stops k hs hcall =>
    cases h' with
    | live _ hs' | stops _ hs' => exact absurd rfl hs'
    | stopped =>
      rw [append_nil]
      exact .stops k hs hcall
  | stopped => exact h'

variable {calls : List (HeadVerdict × Bool)}

theorem Calls.of_live {s s' : InspectState} (h : Calls s s' calls)
    (hs' : s' ≠ .passthrough) : ∃ k, calls = List.replicate k (.persistent, true) := by
  cases h with
  | live k => exact ⟨k, rfl⟩
  | stops | stopped => exact absurd rfl hs'

theorem Calls.of_stops {s s' : InspectState} (h : Calls s s' calls)
    (hs : s ≠ .passthrough) (hs' : s' = .passthrough) :
    ∃ k call, calls = List.replicate k (.persistent, true) ++ [call] ∧ call ≠ (.persistent, true) := by
  cases h with
  | live _ _ hlive => exact absurd hs' hlive
  | stops k _ hcall => exact ⟨k, _, rfl, hcall⟩
  | stopped => exact absurd rfl hs

theorem Calls.of_stopped {s s' : InspectState} (h : Calls s s' calls)
    (hs : s = .passthrough) : calls = [] := by
  cases h with
  | live _ hlive | stops _ hlive => exact absurd hs hlive
  | stopped => rfl

theorem observeTurn_pushes (httparse : ℕ → HeadScanner RequestHead) (s : Http1InspectedIo × Http1Verdicts)
    (input : List UInt8) :
    Calls s.1.state (observeTurn httparse s.1 s.2 input).1.1.state (turnPushes httparse s input) ∧
      (observeTurn httparse s.1 s.2 input).1.2 = s.2 ++ accepted (turnPushes httparse s input) := by
  unfold turnPushes
  obtain ⟨io', rest, hturn, hstate, -⟩ | ⟨io₁, v, l, rest, hturn, hstate, -⟩ := observeTurn_cases httparse s.1 input
  · rw [hturn, hturn]
    refine ⟨?_, (append_nil _).symm⟩
    by_cases hs : s.1.state = .passthrough
    · rw [hs, hstate.2 hs]
      exact .stopped
    · exact .live 0 hs (fun h => hs (hstate.1 h))
  · have hlive : s.1.state ≠ .passthrough := by
      rw [hstate]
      exact nofun
    rw [hturn, hturn]
    have hempty : (io₁.finishHead [] v l).2 = [v] := by
      obtain ⟨-, -, hfin⟩ | ⟨-, ⟨-, -, hq⟩ | ⟨hfull, -⟩⟩ := finishHead_cases io₁ [] v l
      · rw [hfin]
        rfl
      · exact hq
      · exact absurd hfull (by decide)
    dsimp only
    rw [hempty]
    obtain ⟨hv, hroom, hfin⟩ | ⟨hpass, ⟨hv, hroom, hq⟩ | ⟨hfull, hq⟩⟩ := finishHead_cases io₁ s.2 v l
    · have hpush : s.2.push v = (true, s.2 ++ [v]) := if_neg (Nat.not_le.2 hroom)
      rw [hfin, map_singleton, hpush]
      subst hv
      refine ⟨.live 1 hlive ?_, rfl⟩
      dsimp only
      split <;> exact nofun
    · have hpush : s.2.push v = (true, s.2 ++ [v]) := if_neg (Nat.not_le.2 hroom)
      rw [hpass, hq, map_singleton, hpush]
      exact ⟨.stops 0 hlive (fun h => hv (congrArg Prod.fst h)), rfl⟩
    · have hpush : s.2.push v = (false, s.2) := if_pos hfull
      rw [hpass, hq, map_singleton, hpush]
      exact ⟨.stops 0 hlive (fun h => nomatch congrArg Prod.snd h), (append_nil _).symm⟩

/-- **One read.** -/
theorem observe_pushes (httparse : ℕ → HeadScanner RequestHead) (s : Http1InspectedIo × Http1Verdicts)
    (input : List UInt8) :
    Calls s.1.state (observe httparse s input).1.state (pushes httparse s input) ∧
      (observe httparse s input).2 = s.2 ++ accepted (pushes httparse s input) := by
  induction s, input using observe.induct httparse with
  | case1 s =>
    rw [observe, dif_pos rfl, pushes, dif_pos rfl]
    refine ⟨?_, (append_nil _).symm⟩
    by_cases hs : s.1.state = .passthrough
    · rw [hs]
      exact .stopped
    · exact .live 0 hs hs
  | case2 s input hne hrest =>
    rw [observe, dif_neg hne, dif_pos hrest, pushes, dif_neg hne, dif_pos hrest]
    exact observeTurn_pushes httparse s input
  | case3 s input hne hrest ih =>
    rw [observe, dif_neg hne, dif_neg hrest, pushes, dif_neg hne, dif_neg hrest]
    obtain ⟨hcalls, hqueue⟩ := observeTurn_pushes httparse s input
    refine ⟨hcalls.append ih.1, ?_⟩
    rw [ih.2, hqueue, append_assoc, ← accepted_append]

theorem accepted_last {call : HeadVerdict × Bool} (h : call ≠ (.persistent, true)) :
    (accepted [call]).length ≤ 1 ∧ .persistent ∉ accepted [call] := by
  obtain ⟨v, a⟩ := call
  cases a with
  | false => exact ⟨Nat.zero_le _, not_mem_nil⟩
  | true =>
    refine ⟨le_rfl, fun hv => ?_⟩
    rw [mem_singleton.1 hv] at h
    exact h rfl

theorem push_length_le {pending : Http1Verdicts} (h : pending.length ≤ maxPendingVerdicts) (v : HeadVerdict) :
    (pending.push v).2.length ≤ maxPendingVerdicts := by
  unfold Http1Verdicts.push
  split
  · exact h
  · rw [length_append, length_singleton]
    omega

theorem finishHead_pending (io : Http1InspectedIo) (pending : Http1Verdicts) (v : HeadVerdict) (l : ℕ) :
    (io.finishHead pending v l).2 = (pending.push v).2 := by
  unfold finishHead
  rcases pending.push v with ⟨a, q⟩
  dsimp only
  split <;> rfl

theorem observe_pending_le (httparse : ℕ → HeadScanner RequestHead) (s : Http1InspectedIo × Http1Verdicts)
    (input : List UInt8) (h : s.2.length ≤ maxPendingVerdicts) :
    (observe httparse s input).2.length ≤ maxPendingVerdicts := by
  refine observe_keeps (P := fun s => s.2.length ≤ maxPendingVerdicts) httparse (fun s input h => ?_) h input
  obtain ⟨io', rest, hturn, -⟩ | ⟨io₁, v, l, rest, hturn, -⟩ := observeTurn_cases httparse s.1 input
  · rw [hturn]
    exact h
  · rw [hturn, finishHead_pending]
    exact push_length_le h v

/-! ## The heads observed -/

def unparsableHead (p : HeadScanner (HeadVerdict × ℕ)) (rest : List UInt8) : List (HeadVerdict × ℕ) :=
  if (List.range (rest.length + 1)).any fun e => EmptyLineEnd (rest.take e) ∧ p.scan (rest.take e) = .invalid then
    [(.terminal, 0)]
  else []

def observedHeads (p : HeadScanner (HeadVerdict × ℕ)) (observed : List UInt8) : List HeadVerdict :=
  (units p.toScanner bodySkip (unparsableHead p) observed).map Prod.fst

def HeadObserved (p : HeadScanner (HeadVerdict × ℕ)) (observed : List UInt8) (i : ℕ) : Prop :=
  i < (observedHeads p observed).length ∨ ∃ v ∈ observedHeads p observed, v ≠ .persistent

instance (p : HeadScanner (HeadVerdict × ℕ)) (observed : List UInt8) (i : ℕ) : Decidable (HeadObserved p observed i) :=
  inferInstanceAs (Decidable (_ ∨ _))

section Heads

variable {p : HeadScanner (HeadVerdict × ℕ)}

theorem unparsableHead_of_undecided {rest : List UInt8} (h : Undecided p rest) : unparsableHead p rest = [] := by
  unfold unparsableHead
  rw [if_neg]
  rw [any_eq_true]
  rintro ⟨e, -, he⟩
  obtain ⟨hend, hi⟩ := of_decide_eq_true he
  exact h.not_invalid e hend hi

theorem map_fst_of_reads {rest rest' : List UInt8} {vs : List (HeadVerdict × ℕ)}
    (h : Reads p.toScanner bodySkip rest vs rest') : vs.map Prod.fst = List.replicate vs.length .persistent := by
  rw [← length_map Prod.fst, eq_replicate_iff]
  refine ⟨rfl, fun v hv => ?_⟩
  obtain ⟨w, hw, rfl⟩ := mem_map.1 hv
  have := h.skip_isSome w hw
  unfold bodySkip at this
  by_contra hne
  rw [if_neg hne] at this
  cases this

theorem observedHeads_of_reads {rest rest' : List UInt8} {vs : List (HeadVerdict × ℕ)}
    (h : Reads p.toScanner bodySkip rest vs rest') :
    observedHeads p rest = List.replicate vs.length .persistent ++ observedHeads p rest' := by
  unfold observedHeads
  rw [h.units_eq, map_append, map_fst_of_reads h]

theorem Tracks.observedHeads_unread {io : Http1InspectedIo} {raw : List UInt8} (ht : Tracks p io raw) :
    observedHeads p (unread io raw []) = [] := by
  unfold observedHeads
  rw [ht.units_unread fun _ hu _ => unparsableHead_of_undecided hu, map_nil]

end Heads

/-! ## A connection -/

structure Connection where
  io : Http1InspectedIo
  pending : Http1Verdicts
  observed : List UInt8
  pushes : List (HeadVerdict × Bool)
  returned : List HeadVerdict

namespace Connection

variable (httparse : ℕ → HeadScanner RequestHead)

def new (maxHeadBytes maxHeaders : ℕ) : Connection := ⟨.new maxHeadBytes maxHeaders, [], [], [], []⟩

/-- A read of the transport, seen by the inspector. -/
def observe (c : Connection) (bytes : List UInt8) : Connection where
  io := (Http1InspectedIo.observe httparse (c.io, c.pending) bytes).1
  pending := (Http1InspectedIo.observe httparse (c.io, c.pending) bytes).2
  observed := c.observed ++ bytes
  pushes := c.pushes ++ Http1InspectedIo.pushes httparse (c.io, c.pending) bytes
  returned := c.returned

/-- Hyper dispatches a request. -/
def next (c : Connection) : Connection :=
  { c with pending := c.pending.next.2, returned := c.returned ++ [c.pending.next.1] }

/-- The verdicts ever pushed. -/
def pushed (c : Connection) : List HeadVerdict := accepted c.pushes

inductive Step (maxHeaders : ℕ) : Connection → Connection → Prop where
  | observe (c : Connection) (bytes : List UInt8) : Step maxHeaders c (c.observe httparse bytes)
  | next (c : Connection) : HeadObserved (inspectHead httparse maxHeaders) c.observed c.returned.length →
      Step maxHeaders c c.next

inductive Phase (p : HeadScanner (HeadVerdict × ℕ)) (c : Connection) : Prop where
  | live (raw : List UInt8) (vs : List (HeadVerdict × ℕ)) : Tracks p c.io raw →
      c.pushes = List.replicate vs.length (.persistent, true) → c.returned.length ≤ vs.length →
      (∀ later, Reads p.toScanner bodySkip (c.observed ++ later) vs (unread c.io raw later)) → Phase p c
  | stopped (cur : List UInt8) (vs : List (HeadVerdict × ℕ)) (call : HeadVerdict × Bool) : c.io.state = .passthrough →
      c.pushes = List.replicate vs.length (.persistent, true) ++ [call] → call ≠ (.persistent, true) →
      (∀ later, Reads p.toScanner bodySkip (c.observed ++ later) vs (cur ++ later)) → Phase p c

/-- What holds of a connection at any time. -/
structure Inv (maxHeaders : ℕ) (c : Connection) : Prop where
  headers : c.io.maxHeaders = maxHeaders
  phase : Phase (inspectHead httparse maxHeaders) c
  pending_eq : c.pending = c.pushed.drop c.returned.length
  pending_le : c.pending.length ≤ maxPendingVerdicts
  returned_eq : ∀ i < c.returned.length, c.returned[i]? = some (c.pushed.getD i .unclassified)

variable {httparse} {maxHeaders : ℕ}

theorem inv_new (maxHeadBytes : ℕ) : Inv httparse maxHeaders (new maxHeadBytes maxHeaders) where
  headers := rfl
  phase := .live [] [] (tracks_new _ _ _) rfl le_rfl fun _ => .nil _
  pending_eq := rfl
  pending_le := Nat.zero_le _
  returned_eq i hi := absurd hi (Nat.not_lt_zero i)

theorem observe_returned (c : Connection) (bytes : List UInt8) : (c.observe httparse bytes).returned = c.returned := rfl

theorem pushed_observe (c : Connection) (bytes : List UInt8) :
    (c.observe httparse bytes).pushed =
      c.pushed ++ accepted (Http1InspectedIo.pushes httparse (c.io, c.pending) bytes) :=
  accepted_append _ _

variable {p : HeadScanner (HeadVerdict × ℕ)}

theorem length_of_stops {max k : ℕ} {cur : List UInt8}
    {pending pending' : Http1Verdicts} {vs : List (HeadVerdict × ℕ)} {call : HeadVerdict × Bool}
    (hvs : vs.map Prod.fst = List.replicate vs.length .persistent) (hcall : call ≠ (.persistent, true))
    (hstops : Stops p max cur (pending ++ vs.map Prod.fst) pending')
    (hpending : pending' = pending ++ accepted (List.replicate k (.persistent, true) ++ [call])) : k = vs.length := by
  rw [accepted_append, accepted_replicate] at hpending
  -- the verdicts accepted are those of the heads passed and perhaps a last one
  have hlast : ∃ tail, pending' = pending ++ (vs.map Prod.fst ++ tail) ∧ .persistent ∉ tail := by
    cases hstops with
    | @pushed v hend =>
      exact ⟨[v], by rw [append_assoc], fun h => hend.ne_persistent (mem_singleton.1 h).symm⟩
    | dropped | full => exact ⟨[], by rw [append_nil], not_mem_nil⟩
  obtain ⟨tail, htail, hnot⟩ := hlast
  have hcount := congrArg (List.count .persistent) (append_cancel_left (htail.symm.trans hpending))
  rw [hvs, count_append, count_append, count_eq_zero.2 hnot, count_eq_zero.2 (accepted_last hcall).2,
    count_replicate_self, count_replicate_self] at hcount
  omega

variable {c : Connection}

theorem Phase.returned_le (h : Phase p c)
    (hlive : c.io.state ≠ .passthrough) : c.returned.length ≤ c.pushed.length := by
  cases h with
  | live raw vs _ hpushes hlen =>
    rw [pushed, hpushes, accepted_replicate, length_replicate]
    exact hlen
  | stopped _ _ _ hstate => exact absurd hstate hlive

theorem Tracks.state_ne {io : Http1InspectedIo} {raw : List UInt8}
    (h : Tracks p io raw) : io.state ≠ .passthrough := by
  cases h with
  | head hstate | body hstate => rw [hstate]; exact nofun

theorem Phase.observe (h : Phase (inspectHead httparse c.io.maxHeaders) c) (bytes : List UInt8) :
    Phase (inspectHead httparse c.io.maxHeaders) (c.observe httparse bytes) := by
  obtain ⟨hcalls, hqueue⟩ := observe_pushes httparse (c.io, c.pending) bytes
  cases h with
  | stopped cur vs call hstate hpushes hcall hreads =>
    have hsame := @observe_passthrough httparse (c.io, c.pending) hstate bytes
    refine .stopped (cur ++ bytes) vs call ?_ ?_ hcall fun later => ?_
    · rw [Connection.observe, hsame]
      exact hstate
    · rw [Connection.observe, hcalls.of_stopped hstate, append_nil]
      exact hpushes
    · rw [append_assoc, Connection.observe, append_assoc]
      exact hreads (bytes ++ later)
  | live raw vs ht hpushes hlen hreads =>
    have hlive := Tracks.state_ne ht
    cases observe_spec (s := (c.io, c.pending)) ht bytes with
    | tracks raw' ws ht' hpend hws =>
      obtain ⟨k, hk⟩ := hcalls.of_live (Tracks.state_ne ht')
      rw [hk, accepted_replicate] at hqueue
      have hlength := congrArg List.length (append_cancel_left (hqueue.symm.trans hpend))
      rw [length_replicate, length_map] at hlength
      refine .live raw' (vs ++ ws) ht' ?_ ?_ fun later => ?_
      · rw [Connection.observe, hpushes, hk, hlength, replicate_append_replicate, length_append]
      · rw [observe_returned, length_append]
        omega
      · rw [Connection.observe, append_assoc]
        exact (hreads (bytes ++ later)).append (hws later)
    | stops cur tail ws hstate hstops hws =>
      obtain ⟨k, call, hk, hcall⟩ := hcalls.of_stops hlive hstate
      rw [hk] at hqueue
      have hlength := length_of_stops (map_fst_of_reads (hws [])) hcall hstops hqueue
      refine .stopped (cur ++ tail) (vs ++ ws) call hstate ?_ hcall fun later => ?_
      · rw [Connection.observe, hpushes, hk, hlength, ← append_assoc, replicate_append_replicate,
          length_append]
      · rw [Connection.observe, append_assoc, append_assoc]
        exact (hreads (bytes ++ later)).append (hws later)

theorem Inv.observe (h : Inv httparse maxHeaders c) (bytes : List UInt8) :
    Inv httparse maxHeaders (c.observe httparse bytes) := by
  obtain ⟨rfl, hphase, hpend, hle, hret⟩ := h
  obtain ⟨hcalls, hqueue⟩ := observe_pushes httparse (c.io, c.pending) bytes
  -- nothing is pushed any more once requests were refused for lack of a verdict
  have hroom : c.returned.length ≤ c.pushed.length ∨
      accepted (Http1InspectedIo.pushes httparse (c.io, c.pending) bytes) = [] := by
    by_cases hlive : c.io.state = .passthrough
    · exact Or.inr (by rw [hcalls.of_stopped hlive]; rfl)
    · exact Or.inl (hphase.returned_le hlive)
  refine ⟨(observe_limits httparse (c.io, c.pending) bytes).2, hphase.observe bytes, ?_, ?_, fun i hi => ?_⟩
  · rw [pushed_observe, observe_returned]
    refine hqueue.trans ?_
    rcases hroom with hroom | hnone
    · rw [drop_append_of_le_length hroom]
      exact congrArg (· ++ _) hpend
    · rw [hnone, append_nil, append_nil]
      exact hpend
  · exact observe_pending_le httparse (c.io, c.pending) bytes hle
  · rw [pushed_observe]
    refine (hret i hi).trans (congrArg some ?_)
    rcases hroom with hroom | hnone
    · rw [getD_append _ _ _ _ (Nat.lt_of_lt_of_le hi hroom)]
    · rw [hnone, append_nil]

theorem Inv.next (h : Inv httparse maxHeaders c)
    (hobserved : HeadObserved (inspectHead httparse maxHeaders) c.observed c.returned.length) :
    Inv httparse maxHeaders c.next := by
  obtain ⟨hheaders, hphase, hpend, hle, hret⟩ := h
  have hnext : c.pending.next = (c.pushed.getD c.returned.length .unclassified, c.pushed.drop (c.returned.length + 1)) := by
    rw [hpend]
    rcases Nat.lt_or_ge c.returned.length c.pushed.length with hlt | hge
    · rw [drop_eq_getElem_cons hlt, getD_eq_getElem _ _ hlt]
      rfl
    · rw [drop_eq_nil_of_le hge, getD_eq_default _ _ hge, drop_eq_nil_of_le (by omega)]
      rfl
  have hlength : c.next.returned.length = c.returned.length + 1 := length_append
  refine ⟨hheaders, ?_, ?_, ?_, fun i hi => ?_⟩
  · cases hphase with
    | stopped cur vs call hstate hpushes hcall hreads => exact .stopped cur vs call hstate hpushes hcall hreads
    | live raw vs ht hpushes hlen hreads =>
      refine .live raw vs ht hpushes ?_ hreads
      -- all heads observed are behind the inspector
      have hheads : observedHeads (inspectHead httparse maxHeaders) c.observed = List.replicate vs.length .persistent := by
        have hr := hreads []
        rw [append_nil] at hr
        rw [observedHeads_of_reads hr, ht.observedHeads_unread, append_nil]
      rw [hlength]
      rcases hobserved with hlt | ⟨v, hv, hne⟩
      · rw [hheads, length_replicate] at hlt
        exact hlt
      · rw [hheads] at hv
        exact absurd (eq_of_mem_replicate hv) hne
  · rw [hlength]
    exact congrArg Prod.snd hnext
  · have : c.next.pending.length ≤ c.pending.length := by
      show c.pending.next.2.length ≤ _
      rw [hnext, hpend, length_drop, length_drop]
      omega
    exact this.trans hle
  · rw [hlength] at hi
    show (c.returned ++ [c.pending.next.1])[i]? = some (c.pushed.getD i .unclassified)
    rw [hnext]
    rcases Nat.lt_succ_iff_lt_or_eq.1 hi with hlt | rfl
    · rw [List.getElem?_append_left hlt]
      exact hret i hlt
    · rw [List.getElem?_append_right le_rfl, Nat.sub_self]
      rfl

theorem Inv.step {c c' : Connection} (h : Inv httparse maxHeaders c) (hstep : Step httparse maxHeaders c c') :
    Inv httparse maxHeaders c' := by
  cases hstep with
  | observe bytes => exact h.observe bytes
  | next hobserved => exact h.next hobserved

theorem Inv.run {c c' : Connection} (h : Inv httparse maxHeaders c)
    (hrun : Relation.ReflTransGen (Step httparse maxHeaders) c c') : Inv httparse maxHeaders c' := by
  induction hrun with
  | refl => exact h
  | tail _ hstep ih => exact ih.step hstep

theorem Phase.pushed_eq (h : Phase p c) :
    ∃ k tail, c.pushed = List.replicate k .persistent ++ tail ∧ tail.length ≤ 1 ∧ .persistent ∉ tail ∧
      List.replicate k .persistent <+: observedHeads p c.observed := by
  cases h with
  | live raw vs _ hpushes _ hreads =>
    refine ⟨vs.length, [], ?_, Nat.zero_le _, not_mem_nil, ?_⟩
    · rw [pushed, hpushes, accepted_replicate, append_nil]
    · have hr := hreads []
      rw [append_nil] at hr
      exact ⟨_, (observedHeads_of_reads hr).symm⟩
  | stopped cur vs call _ hpushes hcall hreads =>
    refine ⟨vs.length, accepted [call], ?_, (accepted_last hcall).1, (accepted_last hcall).2, ?_⟩
    · rw [pushed, hpushes, accepted_append, accepted_replicate]
    · have hr := hreads []
      rw [append_nil] at hr
      exact ⟨_, (observedHeads_of_reads hr).symm⟩

theorem returned_grows {c c' : Connection} (hrun : Relation.ReflTransGen (Step httparse maxHeaders) c c') :
    c.returned <+: c'.returned := by
  induction hrun with
  | refl => exact prefix_rfl
  | tail _ hstep ih =>
    cases hstep with
    | observe bytes => exact ih
    | next => exact ih.trans (prefix_append _ _)

theorem pushes_of_stopped {c c' : Connection} (hstate : c.io.state = .passthrough)
    (hrun : Relation.ReflTransGen (Step httparse maxHeaders) c c') :
    c'.io.state = .passthrough ∧ c'.pushes = c.pushes := by
  induction hrun with
  | refl => exact ⟨hstate, rfl⟩
  | @tail b d _ hstep ih =>
    obtain ⟨hs, hpushes⟩ := ih
    cases hstep with
    | next => exact ⟨hs, hpushes⟩
    | observe bytes =>
      have hcalls := (observe_pushes httparse (b.io, b.pending) bytes).1
      refine ⟨?_, ?_⟩
      · rw [Connection.observe, @observe_passthrough httparse (b.io, b.pending) hs bytes]
        exact hs
      · rw [Connection.observe, hcalls.of_stopped hs, append_nil]
        exact hpushes

end Connection

/-! ## The service -/

/-- `hyper::Version`, of an HTTP/1 message. -/
inductive HttpVersion where
  | http10
  | http11
  deriving DecidableEq, Repr

structure HyperRequest (Rest : Type) where
  version : HttpVersion
  method : String
  rest : Rest

/-- `hyper::Response`. -/
structure HyperResponse (Body : Type) where
  status : ℕ
  version : HttpVersion
  headers : List (String × String)
  body : Body
  deriving DecidableEq, Repr

section Service

variable {Rest Body : Type}

/-- `HeaderMap::insert`. -/
def HyperResponse.insertHeader (response : HyperResponse Body) (name value : String) : HyperResponse Body :=
  { response with headers := response.headers.filter (fun header => header.1 ≠ name) ++ [(name, value)] }

/-- `Connection: close`, in the version of the request. -/
def forceConnectionClose (response : HyperResponse Body) (request : HttpVersion) : HyperResponse Body :=
  let response := response.insertHeader "connection" "close"
  if request = .http10 then { response with version := .http10 } else response

/-- `rejected_head_response`; `fromError` is the finished `Response::from_error`, without its body for `HEAD`. -/
def rejectedHeadResponse (fromError : HttpError → Bool → HyperResponse Body) (code message : String) (isHead : Bool) :
    HyperResponse Body :=
  fromError (.new 400 code message) isHead

def verdictResponse (handle : HyperRequest Rest → HyperResponse Body) (fromError : HttpError → Bool → HyperResponse Body)
    (req : HyperRequest Rest) (verdict : HeadVerdict) : HyperResponse Body :=
  let isHead := req.method == "HEAD"
  match verdict with
  | .ambiguous => rejectedHeadResponse fromError "ambiguous_message_framing"
    "Transfer-Encoding y Content-Length no pueden combinarse" isHead
  | .unclassified => rejectedHeadResponse fromError "unverified_message_framing"
    "La solicitud no pudo verificarse en esta conexion" isHead
  | .persistent => handle req
  | .terminal => handle req

/-- `handle_http1`: any but a persistent head closes the connection. -/
def handleHttp1 (handle : HyperRequest Rest → HyperResponse Body) (fromError : HttpError → Bool → HyperResponse Body)
    (req : HyperRequest Rest) (verdict : HeadVerdict) : HyperResponse Body :=
  let response := verdictResponse handle fromError req verdict
  if verdict ≠ .persistent ∧ response.status ≠ 101 then forceConnectionClose response req.version else response

def LeavesOpen (response : HyperResponse Body) : Prop :=
  ("connection", "close") ∉ response.headers ∧ response.status ≠ 101

theorem not_leavesOpen_forceConnectionClose (response : HyperResponse Body) (request : HttpVersion) :
    ¬LeavesOpen (forceConnectionClose response request) := by
  rintro ⟨hclose, -⟩
  refine hclose ?_
  unfold forceConnectionClose HyperResponse.insertHeader
  dsimp only
  split <;> exact mem_append_right _ (mem_singleton_self _)

theorem handleHttp1_leavesOpen {handle : HyperRequest Rest → HyperResponse Body}
    {fromError : HttpError → Bool → HyperResponse Body} {req : HyperRequest Rest} {verdict : HeadVerdict}
    (h : LeavesOpen (handleHttp1 handle fromError req verdict)) : verdict = .persistent := by
  by_contra hne
  unfold handleHttp1 at h
  dsimp only at h
  split at h
  · exact not_leavesOpen_forceConnectionClose _ _ h
  · rename_i hstatus
    exact hstatus ⟨hne, h.2⟩

end Service

/-- **Verdicts and requests.** On every connection and at every time `c` of it: the verdicts ever pushed are `Persistent`
up to at most one; the `i`-th request got and will have got the `i`-th of them, or `Unclassified` for want of one; at
most 256 wait; after a refused push and after any verdict but `Persistent` no push follows; and the connection is left
open for another HTTP request only after one whose own head was found `Persistent`. -/
theorem verdicts_in_order (httparse : ℕ → HeadScanner RequestHead) (maxHeadBytes maxHeaders : ℕ) {c : Connection}
    (hrun : Relation.ReflTransGen (Connection.Step httparse maxHeaders) (.new maxHeadBytes maxHeaders) c) :
    (∃ k tail, c.pushed = List.replicate k .persistent ++ tail ∧ tail.length ≤ 1 ∧ .persistent ∉ tail) ∧
    (∀ i < c.returned.length, ∀ c', Relation.ReflTransGen (Connection.Step httparse maxHeaders) c c' →
      c.returned[i]? = some (c'.pushed.getD i .unclassified)) ∧
    c.pending.length ≤ 256 ∧
    ((∃ call ∈ c.pushes, call.1 ≠ .persistent ∨ call.2 = false) →
      ∀ c', Relation.ReflTransGen (Connection.Step httparse maxHeaders) c c' → c'.pushes = c.pushes) ∧
    (∀ {Rest Body : Type} (handle : HyperRequest Rest → HyperResponse Body)
      (fromError : HttpError → Bool → HyperResponse Body) (req : HyperRequest Rest) (i : ℕ) (v : HeadVerdict),
      c.returned[i]? = some v → LeavesOpen (handleHttp1 handle fromError req v) →
        v = .persistent ∧ (observedHeads (inspectHead httparse maxHeaders) c.observed)[i]? = some .persistent) := by
  have hinv := (Connection.inv_new maxHeadBytes).run hrun
  obtain ⟨k, tail, hpushed, hlen, hnot, hheads⟩ := hinv.phase.pushed_eq
  refine ⟨⟨k, tail, hpushed, hlen, hnot⟩, fun i hi c' hrun' => ?_, hinv.pending_le, fun hcall c' hrun' => ?_,
    fun handle fromError req i v hv hopen => ?_⟩
  · obtain ⟨more, hmore⟩ := Connection.returned_grows hrun'
    have hi' : i < c'.returned.length := by
      rw [← hmore, length_append]
      omega
    rw [← (hinv.run hrun').returned_eq i hi', ← hmore, List.getElem?_append_left hi]
  · obtain ⟨call, hmem, hcall⟩ := hcall
    cases hinv.phase with
    | stopped cur vs last hstate => exact (Connection.pushes_of_stopped hstate hrun').2
    | live raw vs _ hpushes =>
      rw [hpushes] at hmem
      rw [eq_of_mem_replicate hmem] at hcall
      rcases hcall with h | h
      · exact absurd rfl h
      · cases h
  · obtain rfl := handleHttp1_leavesOpen hopen
    refine ⟨rfl, ?_⟩
    have hi : i < c.returned.length := (List.getElem?_eq_some_iff.1 hv).1
    -- a verdict that is `Persistent` is not the last one pushed, nor one for want of another
    have hk : i < k := by
      by_contra hge
      have hget := Option.some.inj (hv.symm.trans (hinv.returned_eq i hi))
      rw [hpushed, getD_append_right _ _ _ _ (by rw [length_replicate]; omega)] at hget
      rcases Nat.lt_or_ge (i - (List.replicate k HeadVerdict.persistent).length) tail.length with hlt | hge
      · rw [getD_eq_getElem _ _ hlt] at hget
        exact hnot (hget ▸ getElem_mem hlt)
      · rw [getD_eq_default _ _ hge] at hget
        cases hget
    obtain ⟨rest, hrest⟩ := hheads
    rw [← hrest, List.getElem?_append_left (by rw [length_replicate]; exact hk), List.getElem?_replicate_of_lt hk]

def connectHead : List UInt8 := "CONNECT a:1 HTTP/1.1\r\n\r\n".toUTF8.toList

def tunnelParser (_maxHeaders : ℕ) : HeadScanner RequestHead :=
  emptyLineScanner fun b =>
    if b = postHead then some ⟨some "POST", [("Content-Length", [50])]⟩
    else if b = connectHead then some ⟨some "CONNECT", []⟩ else none

/-- The second head comes in two pieces, after the first request has been dispatched. -/
def tunnelStart : Connection :=
  ((Connection.new 40 8).observe tunnelParser (postHead ++ [111, 107] ++ postHead.take 10)).next

def tunnelHeads : Connection := tunnelStart.observe tunnelParser (postHead.drop 10 ++ [111, 107] ++ connectHead)

/-- Two requests after which the connection goes on, and one for a tunnel, after which nothing is inspected. -/
theorem verdicts_in_order_tunnel : tunnelHeads.next.next.returned = [.persistent, .persistent, .terminal] ∧
    (∃ k tail, tunnelHeads.next.next.pushed = List.replicate k .persistent ++ tail ∧ tail.length ≤ 1 ∧
      .persistent ∉ tail) ∧
    (∀ i < 3, tunnelHeads.next.next.returned[i]? = some (tunnelHeads.next.next.pushed.getD i .unclassified)) ∧
    ∀ bytes, (tunnelHeads.next.next.observe tunnelParser bytes).pushes = tunnelHeads.next.next.pushes := by
  have hreturned : tunnelHeads.next.next.returned = [.persistent, .persistent, .terminal] := by decide +kernel
  have hfirst : HeadObserved (inspectHead tunnelParser 8)
      ((Connection.new 40 8).observe tunnelParser (postHead ++ [111, 107] ++ postHead.take 10)).observed 0 := by
    decide +kernel
  have hsecond : HeadObserved (inspectHead tunnelParser 8) tunnelHeads.observed 1 := by decide +kernel
  have hthird : HeadObserved (inspectHead tunnelParser 8) tunnelHeads.next.observed 2 := by decide +kernel
  have hrun : Relation.ReflTransGen (Connection.Step tunnelParser 8) (.new 40 8) tunnelHeads.next.next :=
    ((((Relation.ReflTransGen.single (.observe _ _)).tail (.next _ hfirst)).tail (.observe _ _)).tail
      (.next _ hsecond)).tail (.next _ hthird)
  obtain ⟨hpushed, hindex, -, hstopped, -⟩ := verdicts_in_order tunnelParser 40 8 hrun
  have hlast : ∃ call ∈ tunnelHeads.next.next.pushes, call.1 ≠ .persistent ∨ call.2 = false := by decide +kernel
  refine ⟨hreturned, hpushed, fun i hi => ?_, fun bytes => hstopped hlast _ (.single (.observe _ bytes))⟩
  exact hindex i (by rw [hreturned]; exact hi) _ .refl

end RustRest
