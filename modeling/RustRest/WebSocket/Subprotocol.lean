import RustRest.Request.Views

/-!
# Subprotocols

`negotiate_protocol` reads the lines of `Sec-WebSocket-Protocol` element by element. A match does not end its loops, so
that a defect behind it is found as well.

Main result: **`negotiateProtocol_offers`**.
-/

namespace RustRest

open List

/-- `HandshakeRejection`. -/
structure HandshakeRejection where
  status : ℕ
  message : String
  headers : List (String × String) := []
  deriving DecidableEq, Repr

/-- `is_valid_protocol_token`, by characters: no byte of a character beyond ASCII is one of a token. -/
def isValidProtocolToken (value : String) : Bool := !value.isEmpty && value.toList.all isTokenChar

/-! ## The loops -/

structure Offer where
  selected : Option String := none
  sawProtocol : Bool := false
  seen : List String := []
  deriving DecidableEq, Repr

def offerCandidate (protocols : List String) (offer : Offer) (raw : List Char) : Except HandshakeRejection Offer :=
  let candidate := String.ofList (trim raw)
  -- empty elements are tolerated
  if candidate = "" then .ok offer
  else if !isValidProtocolToken candidate then .error ⟨400, "Sec-WebSocket-Protocol contiene un token no valido", []⟩
  else if candidate ∈ offer.seen then .error ⟨400, "Sec-WebSocket-Protocol contiene un token duplicado", []⟩
  else .ok {
    selected := if offer.selected.isNone && protocols.any (· == candidate) then some candidate else offer.selected
    sawProtocol := true
    seen := candidate :: offer.seen }

/-- The values that `negotiate_protocol` reads. -/
def protocolLines (req : Request) : List String :=
  let values := req.headersAll "sec-websocket-protocol"
  if values.isEmpty then (req.header "sec-websocket-protocol").toList else values

/-- `negotiate_protocol`: the first offer that is supported. -/
def negotiateProtocol (req : Request) (protocols : List String) : Except HandshakeRejection (Option String) := do
  let values := protocolLines req
  let headerPresent := !values.isEmpty
  let offer ← values.foldlM (fun offer raw => (raw.toList.splitOn ',').foldlM (offerCandidate protocols) offer) {}
  if headerPresent && !offer.sawProtocol then
    .error ⟨400, "Sec-WebSocket-Protocol debe contener al menos un token", []⟩
  else .ok offer.selected

/-! ## The elements -/

/-- The elements of some lines, split at commas. -/
def offerElements (lines : List String) : List (List Char) := lines.flatMap fun raw => raw.toList.splitOn ','

def tokensOf (elements : List (List Char)) : List String :=
  (elements.map fun raw => String.ofList (trim raw)).filter (· ≠ "")

/-- What a client offers, in its order. -/
def offered (lines : List String) : List String := tokensOf (offerElements lines)

/-- Joined by commas, lines have the elements they had. -/
theorem splitOn_intercalate_lines {lines : List (List Char)} (h : lines ≠ []) :
    ([','].intercalate lines).splitOn ',' = lines.flatMap (List.splitOn ',') := by
  induction lines with
  | nil => exact absurd rfl h
  | cons line lines ih =>
    rcases lines with _ | ⟨next, lines⟩
    · simp [List.intercalate]
    · have hjoin : [','].intercalate (line :: next :: lines) = line ++ ',' :: [','].intercalate (next :: lines) := by
        simp [List.intercalate]
      rw [hjoin, splitOn_append_cons_self, ih (cons_ne_nil _ _), ← flatMap_cons]

theorem offerElements_joined {lines : List String} (h : lines ≠ []) :
    offerElements [",".intercalate lines] = offerElements lines := by
  have htext : (",".intercalate lines).toList = [','].intercalate (lines.map String.toList) := by
    rw [String.toList_intercalate]
    rfl
  rw [offerElements, flatMap_cons, flatMap_nil, append_nil, htext,
    splitOn_intercalate_lines (by simpa using h), offerElements, flatMap_map]

/-! ## What the loops keep -/

variable (protocols : List String)

theorem foldlM_lines (lines : List String) (offer : Offer) :
    lines.foldlM (fun offer raw => (raw.toList.splitOn ',').foldlM (offerCandidate protocols) offer) offer =
      (offerElements lines).foldlM (offerCandidate protocols) offer := by
  induction lines generalizing offer with
  | nil => rfl
  | cons line lines ih =>
    rw [offerElements, flatMap_cons, foldlM_append, foldlM_cons]
    exact bind_congr ih

def Offer.after (offer : Offer) (tokens : List String) : Offer where
  selected := offer.selected.or (tokens.find? (· ∈ protocols))
  sawProtocol := offer.sawProtocol || !tokens.isEmpty
  seen := tokens.reverse ++ offer.seen

theorem after_cons (offer : Offer) (t : String) (tokens : List String) :
    (offer.after protocols [t]).after protocols tokens = offer.after protocols (t :: tokens) := by
  unfold Offer.after
  congr 1
  · rw [Option.or_assoc, ← List.find?_append]
    rfl
  · simp
  · simp

theorem offerCandidate_eq_ok {raw : List Char} {t : String} (ht : String.ofList (trim raw) = t) (hne : t ≠ "")
    (offer offer' : Offer) : offerCandidate protocols offer raw = .ok offer' ↔
      isValidProtocolToken t = true ∧ t ∉ offer.seen ∧ offer' = offer.after protocols [t] := by
  unfold offerCandidate
  rw [ht]
  dsimp only
  rw [if_neg hne]
  by_cases hvalid : isValidProtocolToken t = true
  · by_cases hseen : t ∈ offer.seen
    · simp [hvalid, hseen]
    · have hafter : offer.after protocols [t] =
          ⟨if offer.selected.isNone && protocols.any (· == t) then some t else offer.selected, true, t :: offer.seen⟩ := by
        by_cases hsupported : t ∈ protocols
        · cases hselected : offer.selected <;> simp [Offer.after, hselected, hsupported]
        · cases hselected : offer.selected <;> simp [Offer.after, hselected, hsupported]
      rw [hafter, hvalid, if_neg (by decide), if_neg hseen]
      exact ⟨fun h => ⟨rfl, hseen, (Except.ok.inj h).symm⟩, fun h => congrArg Except.ok h.2.2.symm⟩
  · simp [hvalid]

theorem foldlM_offerCandidate (elements : List (List Char)) (offer offer' : Offer) :
    elements.foldlM (offerCandidate protocols) offer = .ok offer' ↔
      (∀ t ∈ tokensOf elements, isValidProtocolToken t = true) ∧ (tokensOf elements).Nodup ∧
        (∀ t ∈ tokensOf elements, t ∉ offer.seen) ∧ offer' = offer.after protocols (tokensOf elements) := by
  induction elements generalizing offer with
  | nil =>
    have hafter : offer.after protocols [] = offer := by simp [Offer.after]
    show Except.ok offer = Except.ok offer' ↔ _
    rw [show tokensOf [] = [] from rfl, hafter]
    have hnone : ∀ P : String → Prop, ∀ t ∈ ([] : List String), P t := fun _ _ ht => absurd ht not_mem_nil
    exact ⟨fun h => ⟨hnone _, nodup_nil, hnone _, (Except.ok.inj h).symm⟩, fun h => congrArg Except.ok h.2.2.2.symm⟩
  | cons raw elements ih =>
    rw [foldlM_cons]
    by_cases hempty : String.ofList (trim raw) = ""
    · have htokens : tokensOf (raw :: elements) = tokensOf elements := by
        simp [tokensOf, hempty]
      have hstep : offerCandidate protocols offer raw = .ok offer := by
        simp [offerCandidate, hempty]
      rw [htokens, hstep]
      exact ih offer
    · obtain ⟨t, ht⟩ : ∃ t, String.ofList (trim raw) = t := ⟨_, rfl⟩
      rw [ht] at hempty
      have htokens : tokensOf (raw :: elements) = t :: tokensOf elements := by
        simp [tokensOf, ht, hempty]
      have hseen : (offer.after protocols [t]).seen = t :: offer.seen := rfl
      rw [htokens, bind_eq_ok, nodup_cons, forall_mem_cons, forall_mem_cons, ← after_cons]
      simp only [offerCandidate_eq_ok protocols ht hempty, ih]
      constructor
      · rintro ⟨_, ⟨hvalid, hnew, rfl⟩, hvalids, hnodup, hnews, heq⟩
        rw [hseen] at hnews
        exact ⟨⟨hvalid, hvalids⟩, ⟨fun hmem => hnews t hmem mem_cons_self, hnodup⟩,
          ⟨hnew, fun u hu hold => hnews u hu (mem_cons_of_mem _ hold)⟩, heq⟩
      · rintro ⟨⟨hvalid, hvalids⟩, ⟨honce, hnodup⟩, ⟨hnew, hnews⟩, heq⟩
        refine ⟨_, ⟨hvalid, hnew, rfl⟩, hvalids, hnodup, fun u hu => ?_, heq⟩
        rw [hseen, mem_cons, not_or]
        exact ⟨fun hut => honce (hut ▸ hu), hnews u hu⟩

/-! ## The negotiation -/

theorem negotiateProtocol_eq_ok {req : Request} {selected : Option String} :
    negotiateProtocol req protocols = .ok selected ↔
      (∀ t ∈ offered (protocolLines req), isValidProtocolToken t = true) ∧ (offered (protocolLines req)).Nodup ∧
        (protocolLines req ≠ [] → offered (protocolLines req) ≠ []) ∧
        selected = (offered (protocolLines req)).find? (· ∈ protocols) := by
  have hpresent : ((!(protocolLines req).isEmpty && !(({} : Offer).after protocols
      (offered (protocolLines req))).sawProtocol) = true) ↔
        ¬ (protocolLines req ≠ [] → offered (protocolLines req) ≠ []) := by
    simp [Offer.after]
  unfold negotiateProtocol
  dsimp only
  rw [foldlM_lines, bind_eq_ok]
  simp only [foldlM_offerCandidate]
  constructor
  · rintro ⟨_, ⟨hvalid, hnodup, -, rfl⟩, hok⟩
    split at hok
    · cases hok
    · next hsome => exact ⟨hvalid, hnodup, not_not.1 (mt hpresent.2 hsome), (Except.ok.inj hok).symm⟩
  · rintro ⟨hvalid, hnodup, hsome, rfl⟩
    refine ⟨_, ⟨hvalid, hnodup, fun _ _ => not_mem_nil, rfl⟩, ?_⟩
    exact if_neg fun hnone => hpresent.1 hnone hsome

theorem negotiateProtocol_congr {req req' : Request} (hlines : protocolLines req ≠ []) (hlines' : protocolLines req' ≠ [])
    (h : offerElements (protocolLines req') = offerElements (protocolLines req)) :
    negotiateProtocol req' protocols = negotiateProtocol req protocols := by
  have hempty : (protocolLines req').isEmpty = (protocolLines req).isEmpty := by
    rw [isEmpty_eq_false_iff.2 hlines, isEmpty_eq_false_iff.2 hlines']
  unfold negotiateProtocol
  dsimp only
  rw [foldlM_lines, foldlM_lines, h, hempty]

/-- **The negotiation.** An offer is refused exactly if an element of it that is not empty is no token, or one is offered
twice, or there is a line and no token, wherever in the offer that is. Otherwise the first token offered that is supported
is selected. An offer on several lines is the offer on the line that joins them. -/
theorem negotiateProtocol_offers (req : Request) :
    let lines := protocolLines req
    ((∃ rejection, negotiateProtocol req protocols = .error rejection) ↔
      (∃ t ∈ offered lines, isValidProtocolToken t = false) ∨ ¬ (offered lines).Nodup ∨
        (lines ≠ [] ∧ offered lines = [])) ∧
    (∀ selected, negotiateProtocol req protocols = .ok selected →
      selected = (offered lines).find? (· ∈ protocols)) ∧
    (lines ≠ [] → ∀ req', protocolLines req' = [",".intercalate lines] →
      negotiateProtocol req' protocols = negotiateProtocol req protocols) := by
  intro lines
  refine ⟨?_, fun selected h => ((negotiateProtocol_eq_ok protocols).1 h).2.2.2, fun hlines req' hjoined => ?_⟩
  · constructor
    · rintro ⟨rejection, hrejected⟩
      by_contra hfine
      simp only [not_or, not_exists, not_and, not_not, Bool.not_eq_false] at hfine
      obtain ⟨hvalid, hnodup, hsome⟩ := hfine
      have hok := (negotiateProtocol_eq_ok protocols).2 ⟨hvalid, hnodup, hsome, rfl⟩
      rw [hrejected] at hok
      cases hok
    · intro hdefect
      cases hresult : negotiateProtocol req protocols with
      | error rejection => exact ⟨rejection, rfl⟩
      | ok selected =>
        obtain ⟨hvalid, hnodup, hsome, -⟩ := (negotiateProtocol_eq_ok protocols).1 hresult
        rcases hdefect with ⟨t, ht, hinvalid⟩ | hdup | ⟨hlines, hnone⟩
        · rw [hvalid t ht] at hinvalid
          cases hinvalid
        · exact absurd hnodup hdup
        · exact absurd hnone (hsome hlines)
  · refine negotiateProtocol_congr protocols hlines ?_ ?_
    · rw [hjoined]
      exact cons_ne_nil _ _
    · rw [hjoined]
      exact offerElements_joined hlines

/-- A request with the given lines. -/
def offering (lines : List String) : Request := ⟨∅, ∅, lines.map fun value => ("sec-websocket-protocol", value)⟩

/-- An offer on two lines, with an empty element. -/
theorem negotiateProtocol_offers_two :
    negotiateProtocol (offering ["other, ,chat,superchat"]) ["superchat", "chat"] =
      negotiateProtocol (offering ["other, ", "chat,superchat"]) ["superchat", "chat"] :=
  (negotiateProtocol_offers ["superchat", "chat"] (offering ["other, ", "chat,superchat"])).2.2 (by decide)
    (offering ["other, ,chat,superchat"]) (by decide)

/-- Without a line there is nothing to negotiate; a line that joins no lines is one without a token. -/
theorem no_line_joined : negotiateProtocol (offering []) ["chat"] = .ok none ∧
    negotiateProtocol (offering [",".intercalate []]) ["chat"] =
      .error ⟨400, "Sec-WebSocket-Protocol debe contener al menos un token", []⟩ := by
  decide

end RustRest
