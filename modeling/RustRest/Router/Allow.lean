import RustRest.Router.Scoped

/-!
# The `Allow` header

`allowed_methods` collects the methods of the matching routes, `allow_header_value` adds `HEAD` and `OPTIONS` and joins
them.

Main result: **`allow_exact`**.
-/

namespace RustRest

open SegTrie List

variable {H M C : Type}

/-! ## The methods of the matching routes -/

/-- A method is appended unless it is there. -/
def pushNew (methods : List String) (m : String) : List String :=
  if m ∈ methods then methods else methods ++ [m]

variable {methods : List String}

theorem mem_pushNew {m n : String} : n ∈ pushNew methods m ↔ n ∈ methods ∨ n = m := by
  unfold pushNew
  split
  · rename_i hm
    exact ⟨Or.inl, fun h => h.elim id (fun h => h ▸ hm)⟩
  · rw [mem_append, mem_singleton]

theorem nodup_pushNew (h : methods.Nodup) (m : String) : (pushNew methods m).Nodup := by
  unfold pushNew
  split
  · exact h
  · rename_i hm
    refine nodup_append.2 ⟨h, nodup_singleton _, ?_⟩
    intro a ha b hb
    rw [mem_singleton.1 hb]
    rintro rfl
    exact hm ha

variable {segments : List String} {host : Option String} {r : Router H M C}

theorem allowStep_of_mem {x : Route H M C × Nat}
    (hx : x ∈ r.routes.zipIdx) (methods : List String) : r.allowStep segments host methods (x.2, x.1.method) =
      if x.1.matches segments host = true ∧ x.1.method ≠ methodAll then pushNew methods x.1.method else methods := by
  rw [mem_zipIdx_iff_getElem?] at hx
  rw [Router.allowStep, hx, Route.matches]
  by_cases hall : x.1.method = methodAll <;> by_cases hm : x.1.method ∈ methods <;>
    cases hhost : hostMatches x.1.host host <;> cases hmatch : matchDecodedPattern x.1.pattern.segments segments <;>
    simp [hhost, hmatch, pushNew, hall, hm]

theorem allow_foldl :
    ∀ (l : List (Route H M C × Nat)) (methods : List String), (∀ x ∈ l, x ∈ r.routes.zipIdx) → methods.Nodup →
      let out := (l.map (fun x => (x.2, x.1.method))).foldl (r.allowStep segments host) methods
      out.Nodup ∧ ∀ m, m ∈ out ↔ m ∈ methods ∨
        ∃ x ∈ l, x.1.matches segments host = true ∧ x.1.method ≠ methodAll ∧ x.1.method = m
  | [], methods, _, hnd => ⟨hnd, fun m => by simp⟩
  | x :: l, methods, hl, hnd => by
    have hrest := fun y hy => hl y (mem_cons_of_mem _ hy)
    simp only [map_cons, foldl_cons, mem_cons, exists_eq_or_imp]
    rw [allowStep_of_mem (hl x mem_cons_self)]
    split
    · rename_i hnew
      obtain ⟨hnd', hmem⟩ := allow_foldl l (pushNew methods x.1.method) hrest (nodup_pushNew hnd _)
      refine ⟨hnd', fun m => ?_⟩
      rw [hmem, mem_pushNew, or_assoc, eq_comm]
      simp only [hnew, true_and, ne_eq, not_false_eq_true]
    · rename_i hskip
      obtain ⟨hnd', hmem⟩ := allow_foldl l methods hrest hnd
      refine ⟨hnd', fun m => ?_⟩
      rw [hmem, ← and_assoc]
      simp only [hskip, false_and, false_or]

section Collected

variable {r : Router H M C} {segments : List String} {host : Option String}

/-- What the loop collects. -/
theorem allowedSegments_spec (hfresh : r.Fresh) : (r.allowedSegments segments host).Nodup ∧
    ∀ m, m ∈ r.allowedSegments segments host ↔ ∃ x ∈ r.disclosed segments host, x.1.method = m := by
  have h := @allow_foldl H M C segments host r
    (r.routes.zipIdx.filter (fun x => Fits x.1.pattern.segments segments)) [] (fun x hx => (mem_filter.1 hx).1)
    nodup_nil
  rw [Router.allowedSegments, matchingMethods_eq hfresh]
  refine ⟨h.1, fun m => (h.2 m).trans ?_⟩
  simp only [not_mem_nil, false_or, mem_filter, mem_disclosed]
  constructor
  · rintro ⟨x, ⟨hx, _⟩, hmatch, hall, hm⟩
    exact ⟨x, ⟨hx, hall, hmatch⟩, hm⟩
  · rintro ⟨x, ⟨hx, hall, hmatch⟩, hm⟩
    exact ⟨x, ⟨hx, (matches_iff.1 hmatch).2⟩, hmatch, hall, hm⟩

end Collected

/-! ## The header value -/

def headerElements (value : String) : List String :=
  (value.toList.splitOn ',').map (fun cs => String.ofList (cs.dropWhile (· == ' ')))

theorem not_mem_of_token {m : String} (h : m.toList.all isTokenChar = true) : ',' ∉ m.toList ∧ ' ' ∉ m.toList := by
  rw [all_eq_true] at h
  exact ⟨fun hc => absurd (h _ hc) (by decide), fun hc => absurd (h _ hc) (by decide)⟩

theorem dropWhile_token {m : String} (h : m.toList.all isTokenChar = true) :
    String.ofList (m.toList.dropWhile (· == ' ')) = m := by
  have hdrop : m.toList.dropWhile (· == ' ') = m.toList := by
    cases hm : m.toList with
    | nil => rfl
    | cons c cs =>
      have hc : c ≠ ' ' := by
        rintro rfl
        exact (not_mem_of_token h).2 (by simp [hm])
      simp [hc]
  rw [hdrop, String.ofList_toList]

theorem headerElements_intercalate (hne : methods ≠ [])
    (h : ∀ m ∈ methods, m.toList.all isTokenChar = true) : headerElements (", ".intercalate methods) = methods := by
  have hchars : (", ".intercalate methods).toList = [',', ' '].intercalate (methods.map String.toList) := by
    rw [String.toList_intercalate]
    rfl
  have hcomma : ∀ part ∈ methods.map String.toList, ',' ∉ part := by
    intro part hpart
    obtain ⟨m, hm, rfl⟩ := mem_map.1 hpart
    exact (not_mem_of_token (h m hm)).1
  have hread := map_congr_left fun m hm => dropWhile_token (h m hm)
  rw [headerElements, hchars, map_splitOn_intercalate (by decide) (fun _ => rfl) (by simpa using hne) hcomma,
    map_map]
  exact hread.trans (map_id methods)

theorem allowList_eq (allowed : List String) (implicitHead : Bool) : allowList allowed implicitHead =
    pushNew (if implicitHead then pushNew allowed "HEAD" else allowed) "OPTIONS" := by
  cases implicitHead
  · simp [allowList, pushNew]
  · by_cases h : "HEAD" ∈ allowed <;> simp [allowList, pushNew, h]

variable {allowed : List String}

theorem mem_allowList {implicitHead : Bool} {m : String} :
    m ∈ allowList allowed implicitHead ↔ m ∈ allowed ∨ (m = "HEAD" ∧ implicitHead = true) ∨ m = "OPTIONS" := by
  rw [allowList_eq, mem_pushNew]
  cases implicitHead <;> simp [mem_pushNew, or_assoc]

theorem nodup_allowList (h : allowed.Nodup) (implicitHead : Bool) :
    (allowList allowed implicitHead).Nodup := by
  rw [allowList_eq]
  refine nodup_pushNew ?_ _
  cases implicitHead
  · exact h
  · exact nodup_pushNew h _

/-- The header value lists the methods that were joined. -/
theorem headerElements_allow (h : ∀ m ∈ allowed, m.toList.all isTokenChar = true)
    (implicitHead : Bool) :
    headerElements (allowHeaderValue allowed implicitHead) = allowList allowed implicitHead := by
  refine headerElements_intercalate ?_ ?_
  · exact ne_nil_of_mem (mem_allowList.2 (Or.inr (Or.inr rfl)))
  · intro m hm
    rcases mem_allowList.1 hm with hm | ⟨rfl, _⟩ | rfl
    · exact h m hm
    · decide
    · decide

/-! ## `Allow` and resolution -/

theorem method_ne_all_of_miss (hinv : r.Inv) {method : String}
    (hmiss : r.resolveSegments method segments host = none) {a : Route H M C}
    (ha : a ∈ r.routes) (hmatch : a.matches segments host = true) : a.method ≠ methodAll := by
  intro hall
  have hno := (resolveSegments_eq_none hinv).1 hmiss a ha
  rw [answers_iff.2 ⟨eligible_iff.2 (Or.inr (Or.inr hall)), hmatch⟩] at hno
  cases hno

theorem mem_allowList_iff_answers (hinv : r.Inv) {method : String}
    (hmiss : r.resolveSegments method segments host = none) {m : String}
    (hm : m ≠ "OPTIONS") :
    m ∈ allowList (r.allowedSegments segments host) (r.resolveHttpSegments "GET" segments host).isSome ↔
      ∃ a ∈ r.routes, a.answers m segments host = true := by
  have hget : (r.resolveHttpSegments "GET" segments host).isSome = true ↔
      ∃ a ∈ r.routes, a.answersHttp "GET" segments host = true := by
    rw [Option.isSome_iff_ne_none, ne_eq, resolveHttpSegments_eq_none hinv.fresh]
    simp
  rw [mem_allowList, (allowedSegments_spec hinv.fresh).2, hget]
  constructor
  · rintro (⟨x, hx, rfl⟩ | ⟨rfl, a, ha, hans⟩ | h)
    · obtain ⟨hxr, -, hmatch⟩ := mem_disclosed.1 hx
      exact ⟨x.1, fst_mem_of_mem_zipIdx hxr, answers_iff.2 ⟨eligible_iff.2 (Or.inl rfl), hmatch⟩⟩
    · exact ⟨a, ha, (answers_head_iff hinv ha).2 (Or.inr hans)⟩
    · exact absurd h hm
  · rintro ⟨a, ha, hans⟩
    obtain ⟨helig, hmatch⟩ := answers_iff.1 hans
    have hall := method_ne_all_of_miss hinv hmiss ha hmatch
    rcases eligible_iff.1 helig with h | ⟨rfl, h, hk⟩ | h
    · obtain ⟨i, hi, rfl⟩ := getElem_of_mem ha
      exact Or.inl ⟨(r.routes[i], i), mem_disclosed.2 ⟨by simp [mem_zipIdx_iff_getElem?], hall, hmatch⟩, h⟩
    · exact Or.inr (Or.inl ⟨rfl, a, ha, answersHttp_iff.2 ⟨eligible_iff.2 (Or.inl h), hk, hmatch⟩⟩)
    · exact absurd h hall

/-- **`Allow` is exact**: when a request resolves to nothing although some method is registered for the path, the value
lists `OPTIONS` and exactly those other methods for which the path resolves, each once, and not the refused one. -/
theorem allow_exact {r : Router H M C} {os : List (Origin M)} (hb : Built r os) {method path : String}
    {host : Option String} {allowed : List String} {get : Option (MatchedRoute H M C)}
    (hmiss : r.resolveMethod method path host = .ok none) (hallowed : r.allowedMethods path host = .ok allowed)
    (hne : allowed ≠ []) (hget : r.resolveHttpMethod "GET" path host = .ok get) :
    "OPTIONS" ∈ headerElements (allowHeaderValue allowed get.isSome) ∧
    (∀ m, m ≠ "OPTIONS" → (m ∈ headerElements (allowHeaderValue allowed get.isSome) ↔
      ∃ found, r.resolveMethod m path host = .ok (some found))) ∧
    (headerElements (allowHeaderValue allowed get.isSome)).Nodup ∧
    (method ≠ "OPTIONS" → method ∉ headerElements (allowHeaderValue allowed get.isSome)) := by
  have hinv := hb.inv
  cases hd : decodePathSegments path with
  | error e => rw [Router.resolveMethod, hd] at hmiss; cases hmiss
  | ok segments =>
    have hres : ∀ m, r.resolveMethod m path host = .ok (r.resolveSegments m segments host) := by
      intro m
      rw [Router.resolveMethod, hd, Except.map]
    rw [hres, Except.ok.injEq] at hmiss
    rw [Router.allowedMethods, hd, Except.map, Except.ok.injEq] at hallowed
    rw [Router.resolveHttpMethod, hd, Except.map, Except.ok.injEq] at hget
    subst hallowed hget
    obtain ⟨hnodup, hmem⟩ := @allowedSegments_spec H M C r segments host hinv.fresh
    have htoken : ∀ m ∈ r.allowedSegments segments host, m.toList.all isTokenChar = true := by
      intro m hm
      obtain ⟨x, hx, rfl⟩ := (hmem m).1 hm
      exact (hinv.routes_ok x.1 (fst_mem_of_mem_zipIdx (mem_disclosed.1 hx).1)).method_token
    have hlisted : ∀ m, m ≠ "OPTIONS" → (m ∈ allowList (r.allowedSegments segments host)
        (r.resolveHttpSegments "GET" segments host).isSome ↔
          ∃ found, r.resolveMethod m path host = .ok (some found)) := by
      intro m hm
      rw [mem_allowList_iff_answers hinv hmiss hm, hres]
      have hnone := @resolveSegments_eq_none H M C r segments m host hinv
      constructor
      · rintro ⟨a, ha, hans⟩
        cases hm : r.resolveSegments m segments host with
        | none => rw [hnone.1 hm a ha] at hans; cases hans
        | some found => exact ⟨found, rfl⟩
      · rintro ⟨found, hfound⟩
        by_contra hno
        rw [hnone.2 (fun a ha => by simpa using fun h => hno ⟨a, ha, h⟩)] at hfound
        cases hfound
    rw [headerElements_allow htoken]
    refine ⟨mem_allowList.2 (Or.inr (Or.inr rfl)), hlisted, nodup_allowList hnodup _, fun hm hin => ?_⟩
    obtain ⟨found, hfound⟩ := (hlisted method hm).1 hin
    rw [hres, hmiss] at hfound
    cases hfound

theorem shadowRouter_allow : allowHeaderValue ["GET", "POST"] true = "GET, POST, HEAD, OPTIONS" ∧
    ∀ m, m ≠ "OPTIONS" → (m ∈ headerElements (allowHeaderValue ["GET", "POST"] true) ↔
      ∃ found, shadowRouter.resolveMethod m "/a" none = .ok (some found)) :=
  have hmiss : shadowRouter.resolveMethod "DELETE" "/a" none = .ok none := by decide +kernel
  have hallowed : shadowRouter.allowedMethods "/a" none = .ok ["GET", "POST"] := by decide +kernel
  have hget : shadowRouter.resolveHttpMethod "GET" "/a" none = .ok (some ⟨10, [1], ∅, "/a", .http, none⟩) := by
    decide +kernel
  ⟨by decide +kernel, (allow_exact shadowRouter_built hmiss hallowed (by decide) hget).2.1⟩

end RustRest
