import RustRest.Router.Segments

/-!
# Rendered patterns

`render_pattern` writes a pattern as text, with its static segments percent-encoded. The text of a pattern that was
parsed, or joined from parsed ones, is a pattern again, and the same one.

Main result: **`parse_rendered`**.
-/

namespace RustRest

open SegTrie List

/-- The patterns that parsing and joining produce. -/
inductive Parsed : RoutePattern → Prop where
  | parse {path : String} {pattern : RoutePattern} : RoutePattern.parse path = .ok pattern → Parsed pattern
  | join {pre suf pattern : RoutePattern} : Parsed pre → Parsed suf → RoutePattern.join pre suf = .ok pattern →
      Parsed pattern

structure RoutePattern.WellFormed (pattern : RoutePattern) : Prop where
  validated : validateSegments pattern.segments = .ok pattern
  statics : ∀ s, .static s ∈ pattern.segments → s ≠ "" ∧ s.toList.any isControl = false

/-! ## What parsing establishes -/

theorem exists_of_mem_mapM {ε α β : Type} {f : α → Except ε β} {l : List α} {m : List β} (h : l.mapM f = .ok m) :
    ∀ b ∈ m, ∃ a ∈ l, f a = .ok b := by
  induction l generalizing m with
  | nil =>
    cases h
    exact fun b hb => absurd hb not_mem_nil
  | cons a l ih =>
    rw [mapM_cons] at h
    obtain ⟨b, hb, h⟩ := bind_eq_ok.1 h
    obtain ⟨m', hm', h⟩ := bind_eq_ok.1 h
    cases h
    intro b' hb'
    rcases mem_cons.1 hb' with rfl | hb'
    · exact ⟨a, mem_cons_self, hb⟩
    · obtain ⟨a', ha', hf⟩ := ih hm' b' hb'
      exact ⟨a', mem_cons_of_mem _ ha', hf⟩

theorem percentDecode_ne_nil {bytes : List UInt8} (h : bytes ≠ []) : percentDecode bytes ≠ [] := by
  match bytes with
  | [a] => exact cons_ne_nil _ _
  | [a, b] => exact cons_ne_nil _ _
  | a :: b :: c :: rest =>
    rw [percentDecode]
    split <;> exact cons_ne_nil _ _

theorem decodeRouteStaticSegment_ok {raw s : String} (hraw : raw ≠ "") (h : decodeRouteStaticSegment raw = .ok s) :
    s ≠ "" ∧ s.toList.any isControl = false := by
  have hbytes : percentDecode (utf8 raw) ≠ [] := percentDecode_ne_nil fun hnil => hraw (utf8_injective hnil)
  unfold decodeRouteStaticSegment at h
  split at h
  · exact nomatch h
  split at h
  · exact nomatch h
  next decoded hdecoded =>
  split at h
  · exact nomatch h
  next hcontrol =>
  cases h
  refine ⟨?_, Bool.eq_false_iff.2 hcontrol⟩
  rintro rfl
  exact hbytes (utf8_of_fromUtf8 hdecoded).symm

theorem static_of_segmentOf {raw s : String} (h : segmentOf raw = .ok (.static s)) :
    decodeRouteStaticSegment raw = .ok s := by
  unfold segmentOf at h
  split at h
  · cases h
  · cases h
  · obtain ⟨value, hvalue, h⟩ := bind_eq_ok.1 h
    cases h
    exact hvalue

variable {pattern : RoutePattern}

theorem Parsed.wellFormed (h : Parsed pattern) : pattern.WellFormed := by
  induction h with
  | @parse path pattern h =>
    obtain ⟨-, segments, hmap, hvalidate⟩ := parse_ok.1 h
    obtain ⟨-, -, hpattern⟩ := validateSegments_ok.1 hvalidate
    have hsegments : pattern.segments = segments := by rw [hpattern]; rfl
    rw [← hsegments] at hmap hvalidate
    refine ⟨hvalidate, fun s hs => ?_⟩
    obtain ⟨raw, hraw, hsegment⟩ := exists_of_mem_mapM hmap _ hs
    exact decodeRouteStaticSegment_ok (mem_pathSegments hraw).1 (static_of_segmentOf hsegment)
  | @join pre suf pattern _ _ h hpre hsuf =>
    obtain ⟨-, -, hpattern⟩ := validateSegments_ok.1 h
    have hsegments : pattern.segments = pre.segments ++ suf.segments := by rw [hpattern]; rfl
    refine ⟨by rw [hsegments]; exact h, fun s hs => ?_⟩
    rw [hsegments] at hs
    rcases mem_append.1 hs with hs | hs
    · exact hpre.statics s hs
    · exact hsuf.statics s hs

/-! ## Reading back -/

def renderSegment : Segment → String
  | .static s => encodePathSegment s
  | .param name => ":" ++ name
  | .wildcard name => "*" ++ name

theorem renderPattern_eq (segments : List Segment) : renderPattern segments =
    if segments.isEmpty then "/" else String.join ((segments.map renderSegment).map ("/" ++ ·)) := by
  unfold renderPattern
  rw [map_map]
  congr 3

theorem RoutePattern.WellFormed.names (h : pattern.WellFormed) :
    ∀ segment ∈ pattern.segments, ∀ name ∈ segment.name?, NameOk name := fun segment hsegment name hname =>
  (validateSegments_ok.1 h.validated).2.1 name (mem_filterMap.2 ⟨segment, hsegment, hname⟩)

theorem slash_not_mem_of_nameOk {name : String} (h : NameOk name) : '/' ∉ name.toList := fun hmem =>
  absurd (all_eq_true.1 h.2 _ hmem) (by decide)

theorem renderSegment_ok (h : pattern.WellFormed) {segment : Segment}
    (hsegment : segment ∈ pattern.segments) :
    renderSegment segment ≠ "" ∧ '/' ∉ (renderSegment segment).toList := by
  cases segment with
  | static s => exact ⟨encodePathSegment_ne (h.statics s hsegment).1, not_mem_encodePathSegment (.inl rfl)⟩
  | param name | wildcard name =>
    have hslash := slash_not_mem_of_nameOk (h.names _ hsegment name rfl)
    refine ⟨fun hempty => ?_, ?_⟩
    · simpa [renderSegment] using congrArg String.toList hempty
    · simpa [renderSegment] using hslash

theorem encodePathSegment_head {s : String} {c : Char} (hc : c = ':' ∨ c = '*') (rest : List Char) :
    (encodePathSegment s).toList ≠ c :: rest := fun h =>
  not_mem_encodePathSegment (.inr hc) (h ▸ mem_cons_self)

/-- The text of a segment denotes it. -/
theorem segmentOf_render (h : pattern.WellFormed) {segment : Segment}
    (hsegment : segment ∈ pattern.segments) : segmentOf (renderSegment segment) = .ok segment := by
  unfold segmentOf
  cases segment with
  | static s =>
    split
    · next hname => exact absurd hname (encodePathSegment_head (.inl rfl) _)
    · next hname => exact absurd hname (encodePathSegment_head (.inr rfl) _)
    · rw [renderSegment, decodeRouteStaticSegment_encode (h.statics s hsegment).2]
      rfl
  | param name | wildcard name => simp [renderSegment]

theorem mapM_eq_ok {ε α β : Type} {f : α → Except ε β} {g : β → α} {m : List β} (h : ∀ b ∈ m, f (g b) = .ok b) :
    (m.map g).mapM f = .ok m := by
  induction m with
  | nil => rfl
  | cons b m ih =>
    rw [map_cons, mapM_cons, h b mem_cons_self, ih fun b' hb' => h b' (mem_cons_of_mem _ hb')]
    rfl

/-- The raw segments of a rendered pattern. -/
theorem pathSegments_render (h : pattern.WellFormed) :
    pathSegments (renderPattern pattern.segments) = pattern.segments.map renderSegment := by
  rw [renderPattern_eq]
  split
  · next hempty =>
    rw [isEmpty_iff.1 hempty]
    decide +kernel
  · rw [pathSegments_join, flatMap_pathSegments]
    intro part hpart
    obtain ⟨segment, hsegment, rfl⟩ := mem_map.1 hpart
    exact renderSegment_ok h hsegment

theorem head?_renderPattern (segments : List Segment) : (renderPattern segments).toList.head? = some '/' := by
  rw [renderPattern_eq]
  cases segments with
  | nil => rfl
  | cons segment segments => simp [String.join_cons]

/-- **Rendered patterns are read back.** The text of every pattern that was parsed, or joined from such patterns, parses
to the pattern itself, and two such patterns with one text have the same segments. -/
theorem parse_rendered :
    (∀ pattern, Parsed pattern → RoutePattern.parse pattern.rendered = .ok pattern) ∧
      ∀ p q, Parsed p → Parsed q → p.rendered = q.rendered → p.segments = q.segments := by
  have hparse : ∀ pattern, Parsed pattern → RoutePattern.parse pattern.rendered = .ok pattern := by
    intro pattern hparsed
    have h := hparsed.wellFormed
    have hrendered : pattern.rendered = renderPattern pattern.segments := by
      obtain ⟨-, -, hpattern⟩ := validateSegments_ok.1 h.validated
      rw [hpattern]
      rfl
    refine parse_ok.2 ⟨?_, pattern.segments, ?_, h.validated⟩
    · rw [hrendered, head?_renderPattern]
    · rw [hrendered, pathSegments_render h]
      exact mapM_eq_ok fun segment hsegment => segmentOf_render h hsegment
  refine ⟨hparse, fun p q hp hq hrendered => ?_⟩
  have hq' := hparse q hq
  rw [← hrendered, hparse p hp] at hq'
  exact congrArg RoutePattern.segments (Except.ok.inj hq')

theorem parse_rendered_escapes : ∃ pattern, RoutePattern.parse "/%3Aa%2F%2A/:id/*rest" = .ok pattern ∧
    pattern.segments = [.static ":a/*", .param "id", .wildcard "rest"] ∧
    RoutePattern.parse pattern.rendered = .ok pattern := by
  have h : RoutePattern.parse "/%3Aa%2F%2A/:id/*rest" =
      .ok (.fromValidatedSegments [.static ":a/*", .param "id", .wildcard "rest"] ["id", "rest"]) := by decide +kernel
  exact ⟨_, h, rfl, parse_rendered.1 _ (.parse h)⟩

end RustRest
