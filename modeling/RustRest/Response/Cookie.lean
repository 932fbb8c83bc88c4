import RustRest.Text

/-!
# Response cookies

`Cookie` is built by calls with arbitrary strings, which are cleaned as they come, and rendered as the value of a
`Set-Cookie` field.

Main result: **`setCookie_attributes`**.
-/

namespace RustRest

open List

/-! ## The model -/

inductive SameSite where
  | strict
  | lax
  | none
  deriving DecidableEq

def SameSite.asStr : SameSite → String
  | .strict => "Strict"
  | .lax => "Lax"
  | .none => "None"

def keepBytes (keep : UInt8 → Bool) (value : String) : String :=
  String.ofList (((utf8 value).filter keep).map fun byte => Char.ofNat byte.toNat)

def isCookieNameByte (byte : UInt8) : Bool :=
  isAsciiAlphanumeric byte || (utf8 "!#$%&'*+-.^_`|~").contains byte

def isCookieValueByte (byte : UInt8) : Bool :=
  byte == 0x21 || (0x23 ≤ byte && byte ≤ 0x2b) || (0x2d ≤ byte && byte ≤ 0x3a) || (0x3c ≤ byte && byte ≤ 0x5b) ||
    (0x5d ≤ byte && byte ≤ 0x7e)

def isCookieDomainByte (byte : UInt8) : Bool := isAsciiAlphanumeric byte || (utf8 ".-:[]").contains byte

/-- Bytes that are not of a token are dropped. -/
def sanitizeCookieName : String → String := keepBytes isCookieNameByte

/-- Bytes that are not cookie octets are dropped. -/
def sanitizeCookieValue : String → String := keepBytes isCookieValueByte

def sanitizeCookieDomain : String → String := keepBytes isCookieDomainByte

/-- `;` and controls are dropped. -/
def sanitizeCookiePath (value : String) : String :=
  String.ofList (value.toList.filter fun c => c != ';' && !isControl c)

def integerText (n : ℤ) : String :=
  if n < 0 then "-" ++ decimalText n.natAbs else decimalText n.natAbs

/-- `Cookie`, with the attributes set so far. -/
structure Cookie where
  name : String
  value : String
  path : String
  domain : Option String
  maxAgeSecs : Option ℤ
  secure : Bool
  httpOnly : Bool
  sameSite : Option SameSite
  deriving DecidableEq

variable (cookie : Cookie)

namespace Cookie

/-- `Cookie::new`, with the defaults. -/
def new (name value : String) : Cookie where
  name := sanitizeCookieName name
  value := sanitizeCookieValue value
  path := "/"
  domain := none
  maxAgeSecs := none
  secure := false
  httpOnly := false
  sameSite := none

/-- `Cookie::path`. -/
def setPath (path : String) : Cookie :=
  { cookie with path := if sanitizeCookiePath path = "" then "/" else sanitizeCookiePath path }

/-- `Cookie::domain`. -/
def setDomain (domain : String) : Cookie :=
  { cookie with domain := if sanitizeCookieDomain domain = "" then none else some (sanitizeCookieDomain domain) }

def hasName (start : String) : Bool := start.toList.isPrefixOf cookie.name.toList

/-- The `Set-Cookie` value: the pair, then the attributes. -/
def toHeaderValue : String :=
  let hostPrefixed := cookie.hasName "__Host-"
  let securePrefixed := cookie.hasName "__Secure-"
  let secure := cookie.secure || cookie.sameSite == some .none || hostPrefixed || securePrefixed
  let path := if hostPrefixed then "/" else cookie.path
  let domain := if hostPrefixed then none else cookie.domain
  let out := cookie.name ++ "=" ++ cookie.value ++ "; Path=" ++ path
  let out := match domain with
    | some domain => out ++ "; Domain=" ++ domain
    | none => out
  let out := match cookie.maxAgeSecs with
    | some maxAge => out ++ "; Max-Age=" ++ integerText maxAge
    | none => out
  let out := if secure then out ++ "; Secure" else out
  let out := if cookie.httpOnly then out ++ "; HttpOnly" else out
  match cookie.sameSite with
  | some sameSite => out ++ "; SameSite=" ++ sameSite.asStr
  | none => out

end Cookie

/-- The calls of the builder. -/
inductive CookieCall where
  | path (path : String)
  | domain (domain : String)
  | maxAgeSecs (seconds : ℤ)
  | secure (secure : Bool)
  | httpOnly (httpOnly : Bool)
  | sameSite (sameSite : SameSite)
  deriving DecidableEq

/-- One call of the builder. -/
def Cookie.apply : CookieCall → Cookie
  | .path path => cookie.setPath path
  | .domain domain => cookie.setDomain domain
  | .maxAgeSecs seconds => { cookie with maxAgeSecs := some seconds }
  | .secure secure => { cookie with secure }
  | .httpOnly httpOnly => { cookie with httpOnly }
  | .sameSite sameSite => { cookie with sameSite := some sameSite }

def Cookie.build (name value : String) (calls : List CookieCall) : Cookie := calls.foldl Cookie.apply (.new name value)

/-! ## Attributes -/

inductive CookieAttribute where
  | path (path : String)
  | domain (domain : String)
  | maxAge (seconds : ℤ)
  | secure
  | httpOnly
  | sameSite (sameSite : SameSite)
  deriving DecidableEq

def CookieAttribute.name : CookieAttribute → String
  | .path _ => "Path"
  | .domain _ => "Domain"
  | .maxAge _ => "Max-Age"
  | .secure => "Secure"
  | .httpOnly => "HttpOnly"
  | .sameSite _ => "SameSite"

def CookieAttribute.value : CookieAttribute → Option String
  | .path p => some p
  | .domain d => some d
  | .maxAge n => some (integerText n)
  | .secure => none
  | .httpOnly => none
  | .sameSite s => some s.asStr

def CookieAttribute.text (a : CookieAttribute) : String :=
  match a.value with
  | some value => a.name ++ "=" ++ value
  | none => a.name

def lastCall {α : Type} (kind : CookieCall → Option α) (calls : List CookieCall) : Option α :=
  (calls.filterMap kind).getLast?

def CookieCall.askedPath : CookieCall → Option String
  | .path p => some p
  | _ => none

def CookieCall.askedDomain : CookieCall → Option String
  | .domain d => some d
  | _ => none

def CookieCall.askedMaxAge : CookieCall → Option ℤ
  | .maxAgeSecs n => some n
  | _ => none

def CookieCall.askedSecure : CookieCall → Option Bool
  | .secure b => some b
  | _ => none

def CookieCall.askedHttpOnly : CookieCall → Option Bool
  | .httpOnly b => some b
  | _ => none

def CookieCall.askedSameSite : CookieCall → Option SameSite
  | .sameSite s => some s
  | _ => none

def NameStarts (start name : String) : Prop := start.toList <+: name.toList

instance (start name : String) : Decidable (NameStarts start name) :=
  inferInstanceAs (Decidable (start.toList <+: name.toList))

def Applies (name : String) (calls : List CookieCall) : CookieAttribute → Prop
  | .path path => if NameStarts "__Host-" name then path = "/" else
      match lastCall CookieCall.askedPath calls with
      | some asked => path = if sanitizeCookiePath asked = "" then "/" else sanitizeCookiePath asked
      | none => path = "/"
  | .domain domain => ¬ NameStarts "__Host-" name ∧
      ∃ asked ∈ lastCall CookieCall.askedDomain calls, domain = sanitizeCookieDomain asked ∧ domain ≠ ""
  | .maxAge seconds => lastCall CookieCall.askedMaxAge calls = some seconds
  | .secure => lastCall CookieCall.askedSecure calls = some true ∨
      lastCall CookieCall.askedSameSite calls = some .none ∨ NameStarts "__Host-" name ∨ NameStarts "__Secure-" name
  | .httpOnly => lastCall CookieCall.askedHttpOnly calls = some true
  | .sameSite sameSite => lastCall CookieCall.askedSameSite calls = some sameSite

def Cookie.attributes : List CookieAttribute :=
  let host := cookie.hasName "__Host-"
  let secure := cookie.secure || cookie.sameSite == some .none || host || cookie.hasName "__Secure-"
  [.path (if host then "/" else cookie.path)] ++
    (if host then none else cookie.domain).toList.map CookieAttribute.domain ++
    cookie.maxAgeSecs.toList.map CookieAttribute.maxAge ++ (if secure then [CookieAttribute.secure] else []) ++
    (if cookie.httpOnly then [CookieAttribute.httpOnly] else []) ++
    cookie.sameSite.toList.map CookieAttribute.sameSite

theorem Cookie.toList_toHeaderValue : cookie.toHeaderValue.toList =
    (cookie.name ++ "=" ++ cookie.value).toList ++
      cookie.attributes.flatMap fun a => ';' :: ' ' :: a.text.toList := by
  obtain ⟨name, value, path, domain, maxAge, secure, httpOnly, sameSite⟩ := cookie
  unfold Cookie.toHeaderValue Cookie.attributes
  dsimp only
  generalize hhost : (if Cookie.hasName _ "__Host-" = true then none else domain) = shown
  generalize (secure || sameSite == some .none || Cookie.hasName _ "__Host-" || Cookie.hasName _ "__Secure-") = isSecure
  cases shown <;> cases maxAge <;> cases isSecure <;> cases httpOnly <;> cases sameSite <;>
    simp [CookieAttribute.text, CookieAttribute.name, CookieAttribute.value]

/-! ## Clean texts -/

/-- No semicolon and no control character. -/
def CookieText (s : String) : Prop := ∀ c ∈ s.toList, c ≠ ';' ∧ isControl c = false

instance (s : String) : Decidable (CookieText s) := List.decidableBAll _ _

theorem CookieText.append {s t : String} (hs : CookieText s) (ht : CookieText t) : CookieText (s ++ t) := by
  intro c hc
  rw [String.toList_append, mem_append] at hc
  exact hc.elim (hs c) (ht c)

theorem forall_mem_keepBytes {keep : UInt8 → Bool} {P : Char → Prop}
    (h : ∀ byte, keep byte = true → P (Char.ofNat byte.toNat)) (value : String) :
    ∀ c ∈ (keepBytes keep value).toList, P c := by
  intro c hc
  rw [keepBytes, String.toList_ofList, mem_map] at hc
  obtain ⟨byte, hbyte, rfl⟩ := hc
  exact h byte (mem_filter.1 hbyte).2

theorem isTokenChar_of_mem_sanitizeCookieName {name : String} :
    ∀ c ∈ (sanitizeCookieName name).toList, isTokenChar c = true :=
  forall_mem_keepBytes (forall_byte (by decide +kernel)) name

theorem cookieText_of_isTokenChar {s : String} (h : ∀ c ∈ s.toList, isTokenChar c = true) : CookieText s :=
  fun c hc => ⟨fun heq => absurd (h c hc) (heq ▸ by decide), isControl_of_isTokenChar (h c hc)⟩

theorem cookieText_sanitizeCookieName (name : String) : CookieText (sanitizeCookieName name) :=
  cookieText_of_isTokenChar isTokenChar_of_mem_sanitizeCookieName

theorem cookieText_sanitizeCookieValue (value : String) : CookieText (sanitizeCookieValue value) :=
  forall_mem_keepBytes (forall_byte (by decide +kernel)) value

theorem cookieText_sanitizeCookieDomain (domain : String) : CookieText (sanitizeCookieDomain domain) :=
  forall_mem_keepBytes (forall_byte (by decide +kernel)) domain

theorem cookieText_sanitizeCookiePath (path : String) : CookieText (sanitizeCookiePath path) := by
  intro c hc
  rw [sanitizeCookiePath, String.toList_ofList, mem_filter, Bool.and_eq_true, bne_iff_ne,
    Bool.not_eq_true'] at hc
  exact hc.2

theorem cookieText_integerText (n : ℤ) : CookieText (integerText n) := by
  have hdigits : ∀ m, CookieText (decimalText m) := fun m => cookieText_of_isTokenChar fun c hc => by
    rw [decimalText, String.toList_ofList] at hc
    simp [isTokenChar, Char.isAlphanum, Nat.isDigit_of_mem_toDigits (by decide) (by decide) hc]
  unfold integerText
  split
  · exact CookieText.append (by decide) (hdigits _)
  · exact hdigits _

/-! ## Calls -/

theorem get_foldl_apply {α β : Type} (get : Cookie → α) (kind : CookieCall → Option β) (set : β → α)
    (h : ∀ cookie call, get (cookie.apply call) = ((kind call).map set).getD (get cookie)) (cookie : Cookie)
    (calls : List CookieCall) :
    get (calls.foldl Cookie.apply cookie) = ((lastCall kind calls).map set).getD (get cookie) := by
  induction calls using List.reverseRecOn with
  | nil => rfl
  | append_singleton calls call ih =>
    rw [foldl_append, foldl_cons, foldl_nil, h, ih, lastCall, lastCall, filterMap_append,
      filterMap_cons]
    cases kind call with
    | none | some asked => simp

theorem getD_map_some {α : Type} (o : Option α) : (o.map some).getD none = o := by cases o <;> rfl

theorem getD_false_iff {o : Option Bool} : o.getD false = true ↔ o = some true := by cases o <;> simp

namespace Cookie

variable (name value : String) (calls : List CookieCall)

theorem build_name_value : (build name value calls).name = sanitizeCookieName name ∧
    (build name value calls).value = sanitizeCookieValue value := by
  unfold build
  induction calls using List.reverseRecOn with
  | nil => exact ⟨rfl, rfl⟩
  | append_singleton calls call ih =>
    rw [foldl_append, foldl_cons, foldl_nil]
    cases call <;> exact ih

theorem build_path : (build name value calls).path = ((lastCall CookieCall.askedPath calls).map fun asked =>
    if sanitizeCookiePath asked = "" then "/" else sanitizeCookiePath asked).getD "/" :=
  get_foldl_apply Cookie.path _ _ (fun _ call => by cases call <;> rfl) _ calls

theorem build_domain : (build name value calls).domain = ((lastCall CookieCall.askedDomain calls).map fun asked =>
    if sanitizeCookieDomain asked = "" then none else some (sanitizeCookieDomain asked)).getD none :=
  get_foldl_apply Cookie.domain _ _ (fun _ call => by cases call <;> rfl) _ calls

theorem build_maxAgeSecs : (build name value calls).maxAgeSecs = lastCall CookieCall.askedMaxAge calls := by
  rw [build, get_foldl_apply Cookie.maxAgeSecs CookieCall.askedMaxAge some (fun _ call => by cases call <;> rfl)]
  exact getD_map_some _

theorem build_secure : (build name value calls).secure = (lastCall CookieCall.askedSecure calls).getD false := by
  rw [build, get_foldl_apply Cookie.secure CookieCall.askedSecure id (fun _ call => by cases call <;> rfl), Option.map_id]
  rfl

theorem build_httpOnly : (build name value calls).httpOnly = (lastCall CookieCall.askedHttpOnly calls).getD false := by
  rw [build, get_foldl_apply Cookie.httpOnly CookieCall.askedHttpOnly id (fun _ call => by cases call <;> rfl),
    Option.map_id]
  rfl

theorem build_sameSite : (build name value calls).sameSite = lastCall CookieCall.askedSameSite calls := by
  rw [build, get_foldl_apply Cookie.sameSite CookieCall.askedSameSite some (fun _ call => by cases call <;> rfl)]
  exact getD_map_some _

theorem hasName_build (start : String) :
    (build name value calls).hasName start = decide (NameStarts start (sanitizeCookieName name)) := by
  rw [hasName, (build_name_value name value calls).1, Bool.eq_iff_iff, isPrefixOf_iff_prefix, decide_eq_true_eq]
  rfl

theorem mem_attributes_build (a : CookieAttribute) :
    a ∈ (build name value calls).attributes ↔ Applies (sanitizeCookieName name) calls a := by
  simp only [attributes, mem_append, mem_map, Option.mem_toList, mem_singleton, hasName_build,
    decide_eq_true_eq, build_path, build_domain, build_maxAgeSecs, build_secure, build_httpOnly, build_sameSite]
  cases a with
  | path p =>
    unfold Applies
    split
    · simp
    · cases lastCall CookieCall.askedPath calls <;> simp
  | domain d =>
    unfold Applies
    split
    · next hhost => simp [hhost]
    · next hhost =>
      cases lastCall CookieCall.askedDomain calls with
      | none => simp
      | some asked =>
        by_cases hempty : sanitizeCookieDomain asked = ""
        · simp [hempty]
        · have hvalue : sanitizeCookieDomain asked = d ↔ d = sanitizeCookieDomain asked ∧ ¬ d = "" :=
            ⟨fun h => ⟨h.symm, h ▸ hempty⟩, fun h => h.1.symm⟩
          simp [hhost, hempty, hvalue]
  | maxAge n => simp [Applies]
  | secure => simp [Applies, or_assoc, getD_false_iff]
  | httpOnly => simp [Applies, getD_false_iff]
  | sameSite s => simp [Applies]

theorem nodup_name_attributes : (cookie.attributes.map CookieAttribute.name).Nodup := by
  obtain ⟨name, value, path, domain, maxAge, secure, httpOnly, sameSite⟩ := cookie
  unfold attributes
  dsimp only
  generalize (if Cookie.hasName _ "__Host-" = true then none else domain) = shown
  generalize (secure || sameSite == some .none || Cookie.hasName _ "__Host-" || Cookie.hasName _ "__Secure-") = isSecure
  cases shown <;> cases maxAge <;> cases isSecure <;> cases httpOnly <;> cases sameSite <;>
    simp [CookieAttribute.name]

end Cookie

/-! ## The rendered value -/

theorem CookieAttribute.cookieText_text {a : CookieAttribute} (h : ∀ value ∈ a.value, CookieText value) :
    CookieText a.text := by
  have hname : CookieText a.name := by cases a <;> dsimp only [CookieAttribute.name] <;> decide
  unfold CookieAttribute.text
  cases hvalue : a.value with
  | none => exact hname
  | some value => exact (hname.append (by decide)).append (h value hvalue)

theorem Applies.cookieText {name : String} {calls : List CookieCall} {a : CookieAttribute} (h : Applies name calls a) :
    CookieText a.text := by
  refine CookieAttribute.cookieText_text fun value hvalue => ?_
  cases a with
  | path p =>
    cases hvalue
    dsimp only [Applies] at h
    have hslash : CookieText "/" := by decide
    split at h
    · exact h ▸ hslash
    · split at h
      · next asked _ =>
        rw [h]
        split
        · exact hslash
        · exact cookieText_sanitizeCookiePath asked
      · exact h ▸ hslash
  | domain d =>
    obtain ⟨-, asked, -, rfl, -⟩ := h
    cases hvalue
    exact cookieText_sanitizeCookieDomain asked
  | maxAge n =>
    cases hvalue
    exact cookieText_integerText n
  | secure | httpOnly => cases hvalue
  | sameSite s =>
    cases hvalue
    cases s <;> decide

theorem splitOn_parts {c : Char} (parts : List (List Char)) : ∀ first : List Char, c ∉ first →
    (∀ part ∈ parts, c ∉ part) → (first ++ parts.flatMap (c :: ·)).splitOn c = first :: parts := by
  induction parts with
  | nil =>
    intro first hfirst _
    rw [flatMap_nil, append_nil, splitOn_eq_singleton hfirst]
  | cons part parts ih =>
    intro first hfirst hparts
    rw [flatMap_cons, cons_append, splitOn_append_cons_self_of_not_mem hfirst,
      ih part (hparts part mem_cons_self) fun p hp => hparts p (mem_cons_of_mem _ hp)]

section Rendered

variable (name value : String) (calls : List CookieCall)

theorem cookieText_pair : CookieText (sanitizeCookieName name ++ "=" ++ sanitizeCookieValue value) :=
  ((cookieText_sanitizeCookieName name).append (by decide)).append (cookieText_sanitizeCookieValue value)

theorem cookieText_text_of_mem {a : CookieAttribute} (h : a ∈ (Cookie.build name value calls).attributes) :
    CookieText a.text :=
  ((Cookie.mem_attributes_build name value calls a).1 h).cookieText

/-- The value of the field, part by part. -/
theorem splitOn_toHeaderValue : (Cookie.build name value calls).toHeaderValue.toList.splitOn ';' =
    (sanitizeCookieName name ++ "=" ++ sanitizeCookieValue value).toList ::
      (Cookie.build name value calls).attributes.map fun a => ' ' :: a.text.toList := by
  obtain ⟨hname, hvalue⟩ := Cookie.build_name_value name value calls
  have hparts : ∀ part ∈ (Cookie.build name value calls).attributes.map fun a => ' ' :: a.text.toList, ';' ∉ part := by
    intro part hpart
    obtain ⟨a, ha, rfl⟩ := mem_map.1 hpart
    rintro (_ | ⟨_, hmem⟩)
    exact (cookieText_text_of_mem name value calls ha _ hmem).1 rfl
  have hjoin := splitOn_parts _ _ (fun h => (cookieText_pair name value _ h).1 rfl) hparts
  rw [flatMap_map] at hjoin
  rw [Cookie.toList_toHeaderValue, hname, hvalue, hjoin]

theorem isControl_of_mem_toHeaderValue :
    ∀ c ∈ (Cookie.build name value calls).toHeaderValue.toList, isControl c = false := by
  obtain ⟨hname, hvalue⟩ := Cookie.build_name_value name value calls
  intro c hc
  rw [Cookie.toList_toHeaderValue, hname, hvalue, mem_append, mem_flatMap] at hc
  rcases hc with hpair | ⟨a, ha, hmem⟩
  · exact (cookieText_pair name value c hpair).2
  · rcases mem_cons.1 hmem with rfl | hmem
    · decide
    · rcases mem_cons.1 hmem with rfl | hmem
      · decide
      · exact (cookieText_text_of_mem name value calls ha c hmem).2

end Rendered

/-- **The attributes of a cookie.** Whatever strings the builder is called with, the value splits at the semicolons into
the pair and the attributes that apply, each once, and there is no control character. A name for one host gives
`Secure`, the root path and no domain; a secure name and `SameSite=None` give `Secure`. -/
theorem setCookie_attributes (name value : String) (calls : List CookieCall) :
    ∃ attributes : List CookieAttribute,
      (Cookie.build name value calls).toHeaderValue.toList.splitOn ';' =
        ((sanitizeCookieName name).toList ++ '=' :: (sanitizeCookieValue value).toList) ::
          attributes.map (fun a => ' ' :: a.text.toList) ∧
      '=' ∉ (sanitizeCookieName name).toList ∧
      (attributes.map CookieAttribute.name).Nodup ∧
      (∀ a, a ∈ attributes ↔ Applies (sanitizeCookieName name) calls a) ∧
      (∀ c ∈ (Cookie.build name value calls).toHeaderValue.toList, isControl c = false) ∧
      (NameStarts "__Host-" (sanitizeCookieName name) →
        .secure ∈ attributes ∧ .path "/" ∈ attributes ∧ ∀ domain, .domain domain ∉ attributes) ∧
      (NameStarts "__Secure-" (sanitizeCookieName name) ∨ .sameSite .none ∈ attributes → .secure ∈ attributes) := by
  have hmem := Cookie.mem_attributes_build name value calls
  refine ⟨(Cookie.build name value calls).attributes, ?_, ?_, Cookie.nodup_name_attributes _, hmem, ?_, ?_, ?_⟩
  · rw [splitOn_toHeaderValue, String.toList_append, String.toList_append, append_assoc]
    rfl
  · intro h
    exact absurd (isTokenChar_of_mem_sanitizeCookieName _ h) (by decide)
  · exact isControl_of_mem_toHeaderValue name value calls
  · intro hhost
    simp only [hmem]
    exact ⟨.inr (.inr (.inl hhost)), by simp [Applies, hhost], fun _ h => h.1 hhost⟩
  · simp only [hmem]
    rintro (hname | hsite)
    · exact .inr (.inr (.inr hname))
    · exact .inr (.inl hsite)

end RustRest
