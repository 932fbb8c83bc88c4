import RustRest.Middleware.Compression

/-!
# The negotiation of a content coding

`negotiate_encoding` and `preencoded_is_acceptable` resolve the qualities of an `Accept-Encoding` text separately. They
agree, and the order in which the text lists its codings does not matter.

Main result: **`negotiation_agrees`**.
-/

namespace RustRest

open List

/-! ## Qualities -/

def tokenQuality (tokens : List AcceptEncodingToken) (name : String) : Option ℕ :=
  (findToken tokens name).map AcceptEncodingToken.quality

def clientQuality (header : String) (coding : Encoding) : ℕ :=
  ((tokenQuality (acceptEncodingTokens header) coding.name).or (tokenQuality (acceptEncodingTokens header) "*")).getD 0

section Qualities

variable {header : String} {coding : Encoding} {preference : CodingPreference}

theorem codingPreference_eq_some (h : codingPreference (acceptEncodingTokens header) coding = some preference) :
    preference.coding = coding ∧ preference.quality = clientQuality header coding ∧ 0 < clientQuality header coding := by
  obtain ⟨hpos, hpreference⟩ := Option.ite_none_right_eq_some.1 h
  rw [← Option.some.inj hpreference]
  exact ⟨rfl, rfl, hpos⟩

theorem codingPreference_eq_none : codingPreference (acceptEncodingTokens header) coding = none ↔
    clientQuality header coding = 0 := by
  show (if clientQuality header coding > 0 then some _ else none) = none ↔ _
  rw [ite_eq_right_iff]
  constructor
  · intro hnone
    by_contra hne
    cases hnone (Nat.pos_of_ne_zero hne)
  · intro hzero hpos
    exact absurd hzero hpos.ne'

theorem toAsciiLowercase_token {token : AcceptEncodingToken} (h : token ∈ acceptEncodingTokens header) :
    toAsciiLowercase token.name = token.name := by
  obtain ⟨⟨raw, order⟩, -, htoken⟩ := mem_filterMap.1 h
  unfold parseAcceptEncodingToken at htoken
  dsimp only at htoken
  split at htoken
  · cases htoken
  · split at htoken
    · cases htoken
    · obtain ⟨-, htoken⟩ := Option.ite_none_left_eq_some.1 htoken
      obtain rfl := Option.some.inj htoken
      exact toAsciiLowercase_toAsciiLowercase _

theorem toAsciiLowercase_encodingName (coding : Encoding) : toAsciiLowercase coding.name = coding.name := by
  cases coding <;> decide

theorem find_eqIgnoreAsciiCase (header : String) (coding : Encoding) :
    ((acceptEncodingTokens header).find? fun token => eqIgnoreAsciiCase token.name coding.name) =
      findToken (acceptEncodingTokens header) coding.name := by
  unfold findToken
  refine List.find?_congr fun token htoken => ?_
  rw [Bool.eq_iff_iff, eqIgnoreAsciiCase_iff, toAsciiLowercase_token htoken, toAsciiLowercase_encodingName,
    decide_eq_true_eq]

/-- A coding is acceptable when its quality is not zero. -/
theorem preencodedIsAcceptable_name (header : String) (coding : Encoding) :
    preencodedIsAcceptable (some header) (some coding.name.toList) = decide (0 < clientQuality header coding) := by
  have hcodings : ((coding.name.toList.splitOn ',').map trim).filter (fun coding => !coding.isEmpty) =
      [coding.name.toList] := by
    cases coding <;> decide
  have hidentity : eqIgnoreAsciiCase coding.name "identity" = false := by
    cases coding <;> decide
  unfold preencodedIsAcceptable codingIsAcceptable
  dsimp only
  rw [hcodings, isEmpty_cons, if_neg Bool.false_ne_true, all_cons, all_nil, Bool.and_true,
    String.ofList_toList, hidentity, if_neg Bool.false_ne_true, find_eqIgnoreAsciiCase]
  rfl

theorem preencodedIsAcceptable_identity (header : String) :
    preencodedIsAcceptable (some header) (some "identity".toList) =
      decide (0 < identityQuality (acceptEncodingTokens header)) := by
  have hcodings : (("identity".toList.splitOn ',').map trim).filter (fun coding => !coding.isEmpty) =
      ["identity".toList] := by
    decide
  have hidentity : eqIgnoreAsciiCase "identity" "identity" = true := by
    decide
  unfold preencodedIsAcceptable codingIsAcceptable
  dsimp only
  rw [hcodings, isEmpty_cons, if_neg Bool.false_ne_true, all_cons, all_nil, Bool.and_true,
    String.ofList_toList, hidentity, if_pos rfl]

end Qualities

/-! ## The best coding -/

section Best

/-- What of a preference the outcome is made of. -/
def CodingPreference.key (preference : CodingPreference) : Encoding × ℕ := (preference.coding, preference.quality)

def compareKey (left right : Encoding × ℕ) : Ordering :=
  (compare left.2 right.2).then (compare right.1.serverPreference left.1.serverPreference)

theorem serverPreference_injective : Function.Injective Encoding.serverPreference := by
  intro coding coding' h
  cases coding <;> cases coding' <;> first | rfl | cases h

theorem eq_of_compareKey {left right : Encoding × ℕ} (h : compareKey left right = .eq) : left = right := by
  obtain ⟨hquality, hcoding⟩ := Ordering.then_eq_eq.1 h
  exact Prod.ext (serverPreference_injective (compare_eq_iff_eq.1 hcoding).symm) (compare_eq_iff_eq.1 hquality)

theorem key_better (best a : CodingPreference) :
    (if comparePreference best a = .gt then best else a).key =
      if compareKey best.key a.key = .gt then best.key else a.key := by
  have hthen : comparePreference best a = (compareKey best.key a.key).then (compare a.clientOrder best.clientOrder) :=
    (Ordering.then_assoc _ _ _).symm
  rw [hthen]
  cases hkey : compareKey best.key a.key with
  | lt | gt => rfl
  | eq =>
    have heq := eq_of_compareKey hkey
    split <;> simp [heq]

theorem key_foldl (rest : List CodingPreference) (first : CodingPreference) :
    (rest.foldl (fun best a => if comparePreference best a = .gt then best else a) first).key =
      (rest.map CodingPreference.key).foldl (fun best a => if compareKey best a = .gt then best else a) first.key := by
  induction rest generalizing first with
  | nil => rfl
  | cons a rest ih => rw [foldl_cons, ih, key_better, map_cons, foldl_cons]

theorem map_key_maxBy (preferences : List CodingPreference) :
    (maxBy comparePreference preferences).map CodingPreference.key =
      maxBy compareKey (preferences.map CodingPreference.key) := by
  cases preferences with
  | nil => rfl
  | cons first rest => exact congrArg some (key_foldl rest first)

theorem quality_better (best a : CodingPreference) :
    best.quality ≤ (if comparePreference best a = .gt then best else a).quality ∧
      a.quality ≤ (if comparePreference best a = .gt then best else a).quality := by
  unfold comparePreference
  rcases Nat.lt_trichotomy best.quality a.quality with hlt | heq | hgt
  · rw [compare_lt_iff_lt.2 hlt]
    exact ⟨hlt.le, le_rfl⟩
  · split
    · exact ⟨le_rfl, heq.ge⟩
    · exact ⟨heq.le, le_rfl⟩
  · rw [compare_gt_iff_gt.2 hgt]
    exact ⟨le_rfl, hgt.le⟩

theorem quality_le_foldl (rest : List CodingPreference) (first : CodingPreference) : ∀ preference ∈ first :: rest,
    preference.quality ≤
      (rest.foldl (fun best a => if comparePreference best a = .gt then best else a) first).quality := by
  induction rest generalizing first with
  | nil =>
    intro preference hmem
    rw [mem_singleton.1 hmem]
    exact le_rfl
  | cons a rest ih =>
    intro preference hmem
    obtain ⟨hfirst, ha⟩ := quality_better first a
    rw [foldl_cons]
    have hbest := ih (if comparePreference first a = .gt then first else a) _ mem_cons_self
    rcases mem_cons.1 hmem with rfl | hmem
    · exact hfirst.trans hbest
    rcases mem_cons.1 hmem with rfl | hmem
    · exact ha.trans hbest
    · exact ih _ _ (mem_cons_of_mem _ hmem)

theorem quality_le_maxBy {preferences : List CodingPreference} {best : CodingPreference}
    (h : maxBy comparePreference preferences = some best) : ∀ preference ∈ preferences, preference.quality ≤ best.quality := by
  cases preferences with
  | nil => cases h
  | cons first rest =>
    obtain rfl := Option.some.inj h
    exact quality_le_foldl rest first

end Best

/-! ## Outcomes -/

section Outcomes

variable {header : String} {supported : List Encoding}

/-- **The outcomes of the negotiation.** -/
theorem negotiateEncoding_cases (header : String) (supported : List Encoding) :
    (∃ coding ∈ supported, 0 < clientQuality header coding ∧
      (∀ other ∈ supported, clientQuality header other ≤ clientQuality header coding) ∧
      negotiateEncoding header supported =
        .encode coding (decide (0 < identityQuality (acceptEncodingTokens header)))) ∨
    (0 < identityQuality (acceptEncodingTokens header) ∧ negotiateEncoding header supported = .identity) ∨
    (identityQuality (acceptEncodingTokens header) = 0 ∧ (∀ coding ∈ supported, clientQuality header coding = 0) ∧
      negotiateEncoding header supported = .notAcceptable) := by
  unfold negotiateEncoding
  dsimp only
  cases hbest : maxBy comparePreference (supported.filterMap (codingPreference (acceptEncodingTokens header))) with
  | none =>
    dsimp only
    split
    · next hzero =>
      refine .inr (.inr ⟨hzero, fun coding hcoding => ?_, rfl⟩)
      have hnil : supported.filterMap (codingPreference (acceptEncodingTokens header)) = [] := by
        cases hlist : supported.filterMap (codingPreference (acceptEncodingTokens header)) with
        | nil => rfl
        | cons first rest =>
          rw [hlist] at hbest
          cases hbest
      exact codingPreference_eq_none.1 (filterMap_eq_nil_iff.1 hnil coding hcoding)
    · next hpos => exact .inr (.inl ⟨Nat.pos_of_ne_zero hpos, rfl⟩)
  | some best =>
    dsimp only
    obtain ⟨coding, hmem, hpreference⟩ := mem_filterMap.1 (maxBy_mem hbest)
    obtain ⟨hcoding, hquality, hpos⟩ := codingPreference_eq_some hpreference
    split
    · next hidentity =>
      -- an explicit quality of the uncoded form that is greater than another is not zero
      obtain ⟨quality, hexplicit, hgreater⟩ := (Option.any_eq_true _ _).1 hidentity
      refine .inr (.inl ⟨?_, rfl⟩)
      unfold identityQuality
      rw [hexplicit, Option.getD_some]
      exact Nat.zero_lt_of_lt (of_decide_eq_true hgreater)
    · refine .inl ⟨coding, hmem, hpos, fun other hother => ?_, by rw [hcoding]⟩
      cases hpreference' : codingPreference (acceptEncodingTokens header) other with
      | none => exact (codingPreference_eq_none.1 hpreference').trans_le (Nat.zero_le _)
      | some preference =>
        rw [← hquality, ← (codingPreference_eq_some hpreference').2.1]
        exact quality_le_maxBy hbest preference (mem_filterMap.2 ⟨other, hother, hpreference'⟩)

theorem map_key_preferences (header : String) (supported : List Encoding) :
    (supported.filterMap (codingPreference (acceptEncodingTokens header))).map CodingPreference.key =
      supported.filterMap fun coding =>
        if 0 < clientQuality header coding then some (coding, clientQuality header coding) else none := by
  rw [map_filterMap]
  refine filterMap_congr fun coding _ => ?_
  show Option.map _ (if clientQuality header coding > 0 then some _ else none) = _
  split <;> rfl

/-- **The negotiation depends on the qualities alone.** -/
theorem negotiateEncoding_congr {header' : String}
    (h : ∀ name, tokenQuality (acceptEncodingTokens header') name = tokenQuality (acceptEncodingTokens header) name) :
    negotiateEncoding header' supported = negotiateEncoding header supported := by
  have hclient : ∀ coding, clientQuality header' coding = clientQuality header coding := fun coding => by
    unfold clientQuality
    rw [h, h]
  have hidentity : identityQuality (acceptEncodingTokens header') = identityQuality (acceptEncodingTokens header) := by
    show (tokenQuality _ "identity").getD (if tokenQuality _ "*" = some 0 then 0 else 1000) = _
    rw [h, h]
    rfl
  have hexplicit : (findToken (acceptEncodingTokens header') "identity").map AcceptEncodingToken.quality =
      (findToken (acceptEncodingTokens header) "identity").map AcceptEncodingToken.quality := h "identity"
  have hbest : (maxBy comparePreference (supported.filterMap (codingPreference (acceptEncodingTokens header')))).map
      CodingPreference.key =
        (maxBy comparePreference (supported.filterMap (codingPreference (acceptEncodingTokens header)))).map
          CodingPreference.key := by
    rw [map_key_maxBy, map_key_maxBy, map_key_preferences, map_key_preferences]
    simp only [hclient]
  unfold negotiateEncoding
  dsimp only
  rw [hidentity, hexplicit]
  generalize maxBy comparePreference (supported.filterMap (codingPreference (acceptEncodingTokens header'))) = best' at *
  generalize maxBy comparePreference (supported.filterMap (codingPreference (acceptEncodingTokens header))) = best at *
  cases best with
  | none =>
    cases best' with
    | none => rfl
    | some best' => cases hbest
  | some best =>
    cases best' with
    | none => cases hbest
    | some best' =>
      obtain ⟨hcoding, hquality⟩ := Prod.mk.inj (Option.some.inj hbest)
      dsimp only
      rw [hcoding, hquality]

end Outcomes

/-! ## The order of the text -/

section Order

theorem find?_perm {α β : Type} [DecidableEq β] {l l' : List α} {key : α → β} (hperm : l.Perm l')
    (hnodup : (l.map key).Nodup) (b : β) : l'.find? (fun a => key a = b) = l.find? fun a => key a = b := by
  cases hfind : l.find? fun a => key a = b with
  | none =>
    rw [List.find?_eq_none] at hfind ⊢
    exact fun a ha => hfind a (hperm.mem_iff.2 ha)
  | some a =>
    have hkey : key a = b := by simpa using List.find?_some hfind
    have hmem := mem_of_find?_eq_some hfind
    cases hfind' : l'.find? fun a => key a = b with
    | none => exact absurd (decide_eq_true hkey) (List.find?_eq_none.1 hfind' a (hperm.mem_iff.1 hmem))
    | some a' =>
      have hkey' : key a' = b := by simpa using List.find?_some hfind'
      have hmem' := hperm.mem_iff.2 (mem_of_find?_eq_some hfind')
      rw [inj_on_of_nodup_map hnodup hmem' hmem (hkey'.trans hkey.symm)]

def namedQuality (raw : List Char) : Option (String × ℕ) :=
  (parseAcceptEncodingToken 0 raw).map fun token => (token.name, token.quality)

theorem map_parseAcceptEncodingToken (clientOrder : ℕ) (raw : List Char) :
    (parseAcceptEncodingToken clientOrder raw).map (fun token => (token.name, token.quality)) = namedQuality raw := by
  unfold namedQuality parseAcceptEncodingToken
  dsimp only
  split
  · rfl
  · split
    · rfl
    · split <;> rfl

theorem map_acceptEncodingTokens (header : String) :
    (acceptEncodingTokens header).map (fun token => (token.name, token.quality)) =
      (header.toList.splitOn ',').filterMap namedQuality := by
  unfold acceptEncodingTokens
  rw [map_filterMap]
  simp only [map_parseAcceptEncodingToken]
  show (header.toList.splitOn ',').zipIdx.filterMap (namedQuality ∘ Prod.fst) = _
  rw [← filterMap_map, zipIdx_map_fst]

theorem tokenQuality_eq (header : String) (name : String) : tokenQuality (acceptEncodingTokens header) name =
    (((header.toList.splitOn ',').filterMap namedQuality).find? fun pair => pair.1 = name).map Prod.snd := by
  rw [← map_acceptEncodingTokens, List.find?_map, Option.map_map]
  rfl

theorem tokenQuality_perm {header header' : String}
    (hperm : (header.toList.splitOn ',').Perm (header'.toList.splitOn ','))
    (hnodup : ((acceptEncodingTokens header).map AcceptEncodingToken.name).Nodup) (name : String) :
    tokenQuality (acceptEncodingTokens header') name = tokenQuality (acceptEncodingTokens header) name := by
  have hnames : ((header.toList.splitOn ',').filterMap namedQuality).map Prod.fst =
      (acceptEncodingTokens header).map AcceptEncodingToken.name := by
    rw [← map_acceptEncodingTokens, map_map]
    rfl
  rw [tokenQuality_eq, tokenQuality_eq, find?_perm (hperm.filterMap namedQuality) (hnames ▸ hnodup)]

end Order

/-- **The negotiation.** For any `Accept-Encoding` text and any supported codings, the outcome agrees with what
`preencoded_is_acceptable` says of the codings and of the uncoded form. A coding that is chosen has the greatest quality.
For a text that lists no name twice, the order of its elements does not matter. -/
theorem negotiation_agrees (header : String) (supported : List Encoding) :
    (∀ coding identityAcceptable, negotiateEncoding header supported = .encode coding identityAcceptable →
      coding ∈ supported ∧ preencodedIsAcceptable (some header) (some coding.name.toList) = true ∧
      (∀ other ∈ supported, clientQuality header other ≤ clientQuality header coding) ∧
      identityAcceptable = preencodedIsAcceptable (some header) (some "identity".toList)) ∧
    (negotiateEncoding header supported = .identity →
      preencodedIsAcceptable (some header) (some "identity".toList) = true) ∧
    (negotiateEncoding header supported = .notAcceptable →
      preencodedIsAcceptable (some header) (some "identity".toList) = false ∧
      ∀ coding ∈ supported, preencodedIsAcceptable (some header) (some coding.name.toList) = false) ∧
    ∀ header' : String, (header.toList.splitOn ',').Perm (header'.toList.splitOn ',') →
      ((acceptEncodingTokens header).map AcceptEncodingToken.name).Nodup →
      negotiateEncoding header' supported = negotiateEncoding header supported := by
  simp only [preencodedIsAcceptable_name, preencodedIsAcceptable_identity, decide_eq_true_eq, decide_eq_false_iff_not]
  have hcases := negotiateEncoding_cases header supported
  refine ⟨fun coding identityAcceptable h => ?_, fun h => ?_, fun h => ?_,
    fun header' hperm hnodup => negotiateEncoding_congr (tokenQuality_perm hperm hnodup)⟩
  · rw [h] at hcases
    rcases hcases with ⟨_, hmem, hpos, hbest, heq⟩ | ⟨-, heq⟩ | ⟨-, -, heq⟩ <;> cases heq
    exact ⟨hmem, hpos, hbest, rfl⟩
  · rw [h] at hcases
    rcases hcases with ⟨_, -, -, -, heq⟩ | ⟨hpos, heq⟩ | ⟨-, -, heq⟩ <;> cases heq
    exact hpos
  · rw [h] at hcases
    rcases hcases with ⟨_, -, -, -, heq⟩ | ⟨-, heq⟩ | ⟨hzero, hnone, heq⟩ <;> cases heq
    exact ⟨hzero.not_gt, fun coding hcoding => (hnone coding hcoding).not_gt⟩

/-- A text that prefers one coding and excludes the uncoded form, and the same text in another order. -/
theorem negotiation_agrees_gzip :
    negotiateEncoding "br;q=0.5, GZIP, *;q=0" [.brotli, .gzip, .deflate] = .encode .gzip false ∧
    preencodedIsAcceptable (some "br;q=0.5, GZIP, *;q=0") (some "gzip".toList) = true ∧
    negotiateEncoding " GZIP,br;q=0.5, *;q=0" [.brotli, .gzip, .deflate] = .encode .gzip false := by
  have hchosen : negotiateEncoding "br;q=0.5, GZIP, *;q=0" [.brotli, .gzip, .deflate] = .encode .gzip false := by
    decide
  have hlaw := negotiation_agrees "br;q=0.5, GZIP, *;q=0" [.brotli, .gzip, .deflate]
  refine ⟨hchosen, (hlaw.1 .gzip false hchosen).2.1, ?_⟩
  rw [hlaw.2.2.2 " GZIP,br;q=0.5, *;q=0" (by decide) (by decide)]
  exact hchosen

end RustRest
