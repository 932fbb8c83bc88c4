import RustRest.Router.Pattern

/-!
# Host constraints

`HostPattern`, the normalization of `Host` values, and the overlap test used for conflict detection.
`hostsOverlap_of_matches` is what conflict detection relies on: two constraints that accept one request host overlap.
Conversely, of two constraints that overlap one accepts the text from which the other was parsed
(`matches_own_of_hostsOverlap`), so that overlap is the existence of a common host (**`hostsOverlap_iff_common`**).
-/

namespace RustRest

/-- A host, or any subdomain of one. -/
inductive HostPattern where
  | exact (host : String)
  | wildcardSubdomain (suffix : String)
  deriving DecidableEq, Repr

def isPort (port : List Char) : Bool := !port.isEmpty && port.all Char.isDigit

/-- The host without its port, which must be a number. -/
def stripValidPort (host : List Char) : Option (List Char) :=
  if host.head? = some '[' then
    if ']' ∈ host then
      let inside := host.takeWhile (· != ']')
      match (host.dropWhile (· != ']')).tail with
      | [] => some host
      | ':' :: port => if isPort port then some (inside ++ [']']) else none
      | _ => none
    else none
  else if ':' ∈ host then
    -- `rsplit_once`: the last colon separates the name from the port
    let port := (host.reverse.takeWhile (· != ':')).reverse
    let name := (host.reverse.dropWhile (· != ':')).tail.reverse
    if isPort port then some name
    else if host.count ':' = 1 then none
    else some host
  else some host

/-- `normalize_host`: lower case, without the port. -/
def normalizeHost (raw : String) : Option String :=
  let trimmed := trim raw.toList
  if trimmed.isEmpty || trimmed.contains '@' || trimmed.contains '/' || trimmed.contains '\\' ||
      trimmed.any (fun ch => isControl ch || isWhitespace ch) then none
  else (stripValidPort trimmed).bind (fun withoutPort =>
    if withoutPort.isEmpty then none else some (String.ofList (withoutPort.map Char.toLower)))

/-- `HostPattern::parse`. -/
def HostPattern.parse (pattern : String) : Except RouteError HostPattern :=
  match normalizeHost pattern with
  | none => .error ⟨.invalidHostPattern, "El patron de host no es valido"⟩
  | some host =>
    match host.toList with
    | '*' :: '.' :: suffix =>
      if suffix.isEmpty || suffix.contains '*' then
        .error ⟨.invalidHostPattern, "El comodin de host debe tener un sufijo valido"⟩
      else .ok (.wildcardSubdomain (String.ofList suffix))
    | chars =>
      if chars.contains '*' then
        .error ⟨.invalidHostPattern, "El comodin de host solo puede aparecer como prefijo *."⟩
      else .ok (.exact host)

def HostPattern.matchesNormalized (pattern : HostPattern) (host : String) : Bool :=
  match pattern with
  | .exact expected => expected == host
  | .wildcardSubdomain suffix =>
    decide ((utf8 suffix).length + 1 < (utf8 host).length) && (utf8 suffix).isSuffixOf (utf8 host) &&
      (utf8 host)[(utf8 host).length - (utf8 suffix).length - 1]? == some 0x2E

/-- The `Host` of the request is normalized first. -/
def HostPattern.matchesRequest (pattern : HostPattern) (host : Option String) : Bool :=
  match host.bind normalizeHost with
  | none => false
  | some host => pattern.matchesNormalized host

/-- No constraint matches every host. -/
def hostMatches (pattern : Option HostPattern) (host : Option String) : Bool :=
  match pattern with
  | some pattern => pattern.matchesRequest host
  | none => true

/-- The first lies below the second, by whole labels. -/
def suffixOverlaps (moreSpecific broader : String) : Bool :=
  decide ((utf8 broader).length < (utf8 moreSpecific).length) && (utf8 broader).isSuffixOf (utf8 moreSpecific) &&
    (utf8 moreSpecific)[(utf8 moreSpecific).length - (utf8 broader).length - 1]? == some 0x2E

/-- `hosts_overlap`: some host matches both. -/
def hostsOverlap (left right : Option HostPattern) : Bool :=
  match left, right with
  | none, _ => true
  | some _, none => true
  | some (.exact left), some (.exact right) => left == right
  | some (.exact host), some (.wildcardSubdomain suffix) => (HostPattern.wildcardSubdomain suffix).matchesNormalized host
  | some (.wildcardSubdomain suffix), some (.exact host) => (HostPattern.wildcardSubdomain suffix).matchesNormalized host
  | some (.wildcardSubdomain left), some (.wildcardSubdomain right) =>
    left == right || suffixOverlaps left right || suffixOverlaps right left

theorem hostsOverlap_comm (left right : Option HostPattern) : hostsOverlap left right = hostsOverlap right left := by
  rcases left with _ | ⟨l | l⟩ <;> rcases right with _ | ⟨r | r⟩ <;> simp only [hostsOverlap]
  · rw [Bool.eq_iff_iff]; simp only [beq_iff_eq]; exact eq_comm
  · rw [Bool.eq_iff_iff]
    simp only [Bool.or_eq_true, beq_iff_eq]
    tauto

/-! ## Overlap -/

theorem matchesNormalized_wildcard {suffix host : String} :
    (HostPattern.wildcardSubdomain suffix).matchesNormalized host = true ↔
      (utf8 suffix).length + 1 < (utf8 host).length ∧ utf8 suffix <:+ utf8 host ∧
        (utf8 host)[(utf8 host).length - (utf8 suffix).length - 1]? = some 0x2E := by
  simp [HostPattern.matchesNormalized, and_assoc]

theorem suffixOverlaps_iff {l r : String} : suffixOverlaps l r = true ↔ (utf8 r).length < (utf8 l).length ∧
    utf8 r <:+ utf8 l ∧ (utf8 l)[(utf8 l).length - (utf8 r).length - 1]? = some 0x2E := by
  simp [suffixOverlaps, and_assoc]

theorem suffixOverlaps_of_common {l r host : String} (hl : utf8 l <:+ utf8 host) (hr : utf8 r <:+ utf8 host)
    (hdot : (utf8 host)[(utf8 host).length - (utf8 r).length - 1]? = some 0x2E)
    (hlt : (utf8 r).length < (utf8 l).length) : suffixOverlaps l r = true := by
  refine suffixOverlaps_iff.2 ⟨hlt, List.suffix_of_suffix_length_le hr hl (by omega), ?_⟩
  obtain ⟨pre, hpre⟩ := hl
  rw [← hpre] at hdot
  rw [List.getElem?_append_right (by simp; omega)] at hdot
  rw [← hdot]
  congr 1
  simp
  omega

theorem hostsOverlap_of_matches {l r : Option HostPattern} {host : Option String} (hl : hostMatches l host = true)
    (hr : hostMatches r host = true) : hostsOverlap l r = true := by
  rcases l with _ | l
  · rfl
  rcases r with _ | r
  · rfl
  simp only [hostMatches, HostPattern.matchesRequest] at hl hr
  cases hn : host.bind normalizeHost with
  | none => rw [hn] at hl; cases hl
  | some h =>
    rw [hn] at hl hr
    cases l with
    | exact a =>
      have ha : a = h := by simpa [HostPattern.matchesNormalized] using hl
      subst ha
      cases r with
      | exact b =>
        have hb : b = a := by simpa [HostPattern.matchesNormalized] using hr
        simp [hostsOverlap, hb]
      | wildcardSubdomain s => exact hr
    | wildcardSubdomain s =>
      cases r with
      | exact b =>
        have hb : b = h := by simpa [HostPattern.matchesNormalized] using hr
        subst hb
        exact hl
      | wildcardSubdomain t =>
        obtain ⟨_, hs, hsd⟩ := matchesNormalized_wildcard.1 hl
        obtain ⟨_, ht, htd⟩ := matchesNormalized_wildcard.1 hr
        simp only [hostsOverlap, Bool.or_eq_true, beq_iff_eq]
        rcases Nat.lt_trichotomy (utf8 s).length (utf8 t).length with hlt | heq | hgt
        · exact Or.inr (suffixOverlaps_of_common ht hs hsd hlt)
        · refine Or.inl (Or.inl (utf8_injective ?_))
          exact (List.suffix_of_suffix_length_le hs ht (by omega)).eq_of_length heq
        · exact Or.inl (Or.inr (suffixOverlaps_of_common hs ht htd hgt))

/-! ## A common host -/

def HostPattern.own : HostPattern → String
  | .exact host => host
  | .wildcardSubdomain suffix => "*." ++ suffix

theorem normalizeHost_of_parse {text : String} {p : HostPattern} (h : HostPattern.parse text = .ok p) :
    normalizeHost text = some p.own := by
  unfold HostPattern.parse at h
  split at h
  · exact nomatch h
  · next host hhost =>
    rw [hhost]
    split at h
    · next suffix hsuffix =>
      split at h
      · exact nomatch h
      · cases h
        rw [← String.ofList_toList (s := host), hsuffix]
        exact congrArg some (@String.ofList_append ['*', '.'] _)
    · split at h
      · exact nomatch h
      · cases h
        rfl

theorem utf8_own_wildcard (suffix : String) :
    utf8 (HostPattern.wildcardSubdomain suffix).own = 0x2A :: 0x2E :: utf8 suffix := by
  rw [HostPattern.own, utf8_append]
  rfl

theorem matchesNormalized_own_of_suffix {s t : String} (hle : (utf8 t).length ≤ (utf8 s).length)
    (hsuffix : utf8 t <:+ utf8 s)
    (hdot : (0x2E :: utf8 s)[(utf8 s).length - (utf8 t).length]? = some 0x2E) :
    (HostPattern.wildcardSubdomain t).matchesNormalized (HostPattern.wildcardSubdomain s).own = true := by
  rw [matchesNormalized_wildcard, utf8_own_wildcard]
  refine ⟨by simp only [List.length_cons]; omega,
    hsuffix.trans ((List.suffix_cons _ _).trans (List.suffix_cons _ _)), ?_⟩
  rw [← hdot, show (0x2A :: 0x2E :: utf8 s).length - (utf8 t).length - 1 = (utf8 s).length - (utf8 t).length + 1 by
    simp only [List.length_cons]; omega, List.getElem?_cons_succ]

theorem matchesNormalized_own (p : HostPattern) : p.matchesNormalized p.own = true := by
  cases p with
  | exact host => exact beq_self_eq_true host
  | wildcardSubdomain suffix =>
    refine matchesNormalized_own_of_suffix (Nat.le_refl _) List.suffix_rfl ?_
    rw [Nat.sub_self]
    rfl

theorem matchesNormalized_own_of_suffixOverlaps {s t : String} (h : suffixOverlaps s t = true) :
    (HostPattern.wildcardSubdomain t).matchesNormalized (HostPattern.wildcardSubdomain s).own = true := by
  obtain ⟨hlt, hsuffix, hdot⟩ := suffixOverlaps_iff.1 h
  refine matchesNormalized_own_of_suffix (Nat.le_of_lt hlt) hsuffix ?_
  rw [show (utf8 s).length - (utf8 t).length = (utf8 s).length - (utf8 t).length - 1 + 1 by omega,
    List.getElem?_cons_succ, hdot]

theorem matches_own_of_hostsOverlap {l r : HostPattern} (h : hostsOverlap (some l) (some r) = true) :
    r.matchesNormalized l.own = true ∨ l.matchesNormalized r.own = true := by
  cases l with
  | exact a =>
    cases r with
    | exact b =>
      rw [hostsOverlap, beq_iff_eq] at h
      exact .inl (h ▸ matchesNormalized_own _)
    | wildcardSubdomain t => exact .inl h
  | wildcardSubdomain s =>
    cases r with
    | exact b => exact .inr h
    | wildcardSubdomain t =>
      simp only [hostsOverlap, Bool.or_eq_true, beq_iff_eq] at h
      rcases h with (heq | hst) | hts
      · exact .inl (heq ▸ matchesNormalized_own _)
      · exact .inl (matchesNormalized_own_of_suffixOverlaps hst)
      · exact .inr (matchesNormalized_own_of_suffixOverlaps hts)

theorem matchesRequest_of_parse {text : String} {p q : HostPattern} (h : HostPattern.parse text = .ok p) :
    q.matchesRequest (some text) = q.matchesNormalized p.own := by
  rw [HostPattern.matchesRequest, Option.bind_some, normalizeHost_of_parse h]

/-- **Overlap is a common host.** Two parsed constraints, either of which may be absent, overlap exactly if some request
host is accepted by both. -/
theorem hostsOverlap_iff_common (left right : Option HostPattern)
    (hleft : ∀ p ∈ left, ∃ text, HostPattern.parse text = .ok p)
    (hright : ∀ p ∈ right, ∃ text, HostPattern.parse text = .ok p) :
    hostsOverlap left right = true ↔
      ∃ host : String, hostMatches left (some host) = true ∧ hostMatches right (some host) = true := by
  refine ⟨fun h => ?_, fun ⟨host, hl, hr⟩ => hostsOverlap_of_matches hl hr⟩
  rcases left with _ | l
  · rcases right with _ | r
    · exact ⟨"", rfl, rfl⟩
    · obtain ⟨text, htext⟩ := hright r rfl
      exact ⟨text, rfl, (matchesRequest_of_parse htext).trans (matchesNormalized_own r)⟩
  · obtain ⟨ltext, hltext⟩ := hleft l rfl
    have hown := (matchesRequest_of_parse hltext).trans (matchesNormalized_own l)
    rcases right with _ | r
    · exact ⟨ltext, hown, rfl⟩
    · obtain ⟨rtext, hrtext⟩ := hright r rfl
      rcases matches_own_of_hostsOverlap h with hrl | hlr
      · exact ⟨ltext, hown, (matchesRequest_of_parse hltext).trans hrl⟩
      · exact ⟨rtext, (matchesRequest_of_parse hrtext).trans hlr,
          (matchesRequest_of_parse hrtext).trans (matchesNormalized_own r)⟩

theorem hostsOverlap_iff_common_subdomains :
    hostsOverlap (some (.wildcardSubdomain "example.com")) (some (.wildcardSubdomain "api.example.com")) = true ↔
      ∃ host : String, hostMatches (some (.wildcardSubdomain "example.com")) (some host) = true ∧
        hostMatches (some (.wildcardSubdomain "api.example.com")) (some host) = true := by
  refine hostsOverlap_iff_common _ _ (fun p hp => ⟨"*.Example.com:80", ?_⟩) (fun p hp => ⟨"*.api.example.com", ?_⟩)
  · cases hp
    decide +kernel
  · cases hp
    decide +kernel

end RustRest
