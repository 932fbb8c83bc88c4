import RustRest.Session.Middleware
import RustRest.Request.Views

/-!
# Signed cookies

`sign_value` appends a signature to a value, `verify_value` takes it off again, and the signed value travels in a cookie
that is built, rendered, sent back among others and parsed.

Main result: **`signedCookie_round_trip`**.
-/

namespace RustRest

open FiniteMap List

/-! ## Keys and codes -/

namespace CookieCrypto

variable (crypto : CookieCrypto)

/-- Only what was signed is verified. -/
theorem verifyValue_eq_some (secret signed value : String) :
    (crypto.signer secret).verifyValue signed = some value ↔ signed = (crypto.signer secret).signValue value := by
  constructor
  · intro h
    unfold CookieSigner.verifyValue at h
    obtain ⟨⟨before, after⟩, hsplit, h⟩ := Option.bind_eq_some_iff.1 h
    obtain ⟨decoded, hdecode, h⟩ := Option.bind_eq_some_iff.1 h
    obtain ⟨hmac, hvalue⟩ := Option.ite_none_right_eq_some.1 h
    obtain rfl := Option.some.inj hvalue
    have hsignature : String.ofList after = crypto.encode decoded := (crypto.decode_eq_some _ _).1 hdecode
    have hafter : after = (crypto.encode decoded).toList := by rw [← hsignature, String.toList_ofList]
    apply String.toList_inj.1
    rw [rsplitOnce_eq_some hsplit, CookieSigner.toList_signValue, ← hmac, String.toList_ofList, hafter]
    rfl
  · rintro rfl
    exact (crypto.signer secret).verifyValue_signValue value

end CookieCrypto

/-! ## Cookies that are sent back -/

theorem keepBytes_eq_self {keep : UInt8 → Bool} {value : String}
    (h : ∀ c ∈ value.toList, c.toNat < 128 ∧ keep (UInt8.ofNat c.toNat) = true) : keepBytes keep value = value := by
  rw [keepBytes, utf8_eq_flatMap, filter_flatMap, map_flatMap]
  have hkept : ∀ c ∈ value.toList,
      ((String.utf8EncodeChar c).filter keep).map (fun byte => Char.ofNat byte.toNat) = [c] := by
    intro c hc
    obtain ⟨hbytes, hback⟩ := utf8EncodeChar_ascii (h c hc).1
    rw [hbytes, filter_singleton, (h c hc).2, cond_true, map_singleton, hback]
  rw [flatMap_congr hkept, flatMap_singleton', String.ofList_toList]

theorem sanitizeCookieName_of_valid {name : String} (h : validRequestCookieName name = true) :
    sanitizeCookieName name = name := by
  refine keepBytes_eq_self fun c hc => ?_
  have htoken := all_eq_true.1 (Bool.and_eq_true _ _ ▸ h).2 c hc
  have hlt := toNat_lt_of_isTokenChar htoken
  exact ⟨hlt, forall_ascii (P := fun c => isTokenChar c = true → isCookieNameByte (UInt8.ofNat c.toNat) = true)
    (by decide +kernel) hlt htoken⟩

theorem toNat_lt_of_validRequestCookieValue {value : String} (h : validRequestCookieValue value = true) {c : Char}
    (hc : c ∈ value.toList) : c.toNat < 128 := by
  have hoctet := all_eq_true.1 h c hc
  simp only [Bool.or_eq_true, Bool.and_eq_true, beq_iff_eq, decide_eq_true_eq] at hoctet
  omega

theorem validRequestCookieValue_append (s t : String) :
    validRequestCookieValue (s ++ t) = (validRequestCookieValue s && validRequestCookieValue t) := by
  unfold validRequestCookieValue
  rw [String.toList_append, all_append]

theorem validRequestCookieValue_iff {value : String} :
    validRequestCookieValue value = true ↔ ∀ c ∈ value.toList, validRequestCookieValue (String.ofList [c]) = true := by
  simp only [validRequestCookieValue, String.toList_ofList, all_cons, all_nil, Bool.and_true]
  exact all_eq_true

theorem sanitizeCookieValue_of_valid {value : String} (h : validRequestCookieValue value = true) :
    sanitizeCookieValue value = value := by
  refine keepBytes_eq_self fun c hc => ?_
  have hlt := toNat_lt_of_validRequestCookieValue h hc
  exact ⟨hlt, forall_ascii (P := fun c => validRequestCookieValue (String.ofList [c]) = true →
    isCookieValueByte (UInt8.ofNat c.toNat) = true) (by decide +kernel) hlt (validRequestCookieValue_iff.1 h c hc)⟩

theorem CookieCrypto.valid_signValue (crypto : CookieCrypto) (secret : String) {value : String}
    (h : validRequestCookieValue value = true) :
    validRequestCookieValue ((crypto.signer secret).signValue value) = true := by
  have hsignature : ∀ bytes, validRequestCookieValue (crypto.encode bytes) = true := by
    refine fun bytes => validRequestCookieValue_iff.2 fun c hc => ?_
    have hsign := crypto.alphabet bytes c hc
    have hlt : c.toNat < 128 :=
      (Bool.or_eq_true_iff.1 hsign).elim toNat_lt_of_isAlphanum (toNat_lt_of_contains (by decide))
    exact forall_ascii (P := fun c => (c.isAlphanum || "-_".toList.contains c) = true →
      validRequestCookieValue (String.ofList [c]) = true) (by decide +kernel) hlt hsign
  rw [CookieSigner.signValue, validRequestCookieValue_append, validRequestCookieValue_append, h, Bool.true_and]
  exact hsignature _

theorem cookiePart_pair {name value : List Char} (h : '=' ∉ name) :
    cookiePart (name ++ '=' :: value) = some (String.ofList (trim name), String.ofList (trim value)) := by
  have hsplit : splitOnce '=' (trim (name ++ '=' :: value)) =
      some (name.dropWhile isWhitespace, value.rdropWhile isWhitespace) := by
    rw [splitOnce_trim rfl, splitOnce_append h, Option.map_some]
  have hne : (trim (name ++ '=' :: value)).isEmpty = false := by
    rw [trim_append_cons rfl]
    simp
  unfold cookiePart
  dsimp only
  rw [hne, hsplit, Option.map_some, trim_dropWhile, trim_rdropWhile]
  rfl

structure OtherCookie (name : String) (pair : String × String) : Prop where
  name_semicolon : ';' ∉ pair.1.toList
  value_semicolon : ';' ∉ pair.2.toList
  name_equals : '=' ∉ pair.1.toList
  name_ne : String.ofList (trim pair.1.toList) ≠ name

def pairText (pair : String × String) : String := pair.1 ++ "=" ++ pair.2

theorem toList_pairText (pair : String × String) : (pairText pair).toList = pair.1.toList ++ '=' :: pair.2.toList := by
  rw [pairText, String.toList_append, String.toList_append, append_assoc]
  rfl

theorem lastValue_others {name : String} {others : List (String × String)} (h : ∀ pair ∈ others, OtherCookie name pair) :
    lastValue ((others.map pairText).filterMap fun part => cookiePart part.toList) name = none := by
  rw [lastValue_eq_none]
  intro hmem
  obtain ⟨found, hfound, rfl⟩ := mem_map.1 hmem
  obtain ⟨part, hpart, hread⟩ := mem_filterMap.1 hfound
  obtain ⟨pair, hpair, rfl⟩ := mem_map.1 hpart
  rw [toList_pairText, cookiePart_pair (h pair hpair).name_equals] at hread
  cases hread
  exact (h pair hpair).name_ne rfl

/-- A clean cookie among cookies of other names is found. -/
theorem lookup_parseCookies {name value : String} (h : CleanCookie name value) {before after : List (String × String)}
    (hbefore : ∀ pair ∈ before, OtherCookie name pair) (hafter : ∀ pair ∈ after, OtherCookie name pair) :
    (parseCookies ("; ".intercalate (before.map pairText ++ pairText (name, value) :: after.map pairText))).lookup name =
      some value := by
  have hother : ∀ pair, OtherCookie name pair → ';' ∉ (pairText pair).toList := fun pair hpair => by
    rw [toList_pairText, mem_append, mem_cons, not_or, not_or]
    exact ⟨hpair.name_semicolon, by decide, hpair.value_semicolon⟩
  have hfree : ∀ part ∈ before.map pairText ++ pairText (name, value) :: after.map pairText, ';' ∉ part.toList := by
    simp only [mem_append, mem_cons, mem_map]
    rintro part (⟨pair, hpair, rfl⟩ | rfl | ⟨pair, hpair, rfl⟩)
    · exact hother pair (hbefore pair hpair)
    · rw [toList_pairText, mem_append, mem_cons, not_or, not_or]
      exact ⟨h.name_semicolon, by decide, h.value_semicolon⟩
    · exact hother pair (hafter pair hpair)
  have hcons := filterMap_cons_some (f := fun part : String => cookiePart part.toList) (a := pairText (name, value))
    (l := after.map pairText) (cookiePart_render h)
  rw [parseCookies, lookup_collect, cookiePairs_intercalate (by simp) hfree, filterMap_append,
    hcons, append_cons, lastValue_append, lastValue_others hafter, Option.none_or,
    lastValue_concat, if_pos rfl]

/-- **Signed cookies come back.** Under a secret, a text is verified with a value exactly if it is the value, signed. And
a value of cookie octets that is signed, built into a cookie of any token as its name, rendered, sent back among cookies
of other names and parsed is verified as what it was. -/
theorem signedCookie_round_trip (crypto : CookieCrypto) (secret : String) :
    (∀ signed value, (crypto.signer secret).verifyValue signed = some value ↔
      signed = (crypto.signer secret).signValue value) ∧
    ∀ name value, validRequestCookieName name = true → validRequestCookieValue value = true →
      ∀ (calls : List CookieCall) (before after : List (String × String)),
        (∀ pair ∈ before, OtherCookie name pair) → (∀ pair ∈ after, OtherCookie name pair) →
        ∃ pair : String,
          ((Cookie.build name ((crypto.signer secret).signValue value) calls).toHeaderValue.toList.splitOn ';').head? =
            some pair.toList ∧
          ((parseCookies ("; ".intercalate (before.map pairText ++ pair :: after.map pairText))).lookup name).bind
            (crypto.signer secret).verifyValue = some value := by
  refine ⟨crypto.verifyValue_eq_some secret, fun name value hname hvalue calls before after hbefore hafter => ?_⟩
  have hsigned := crypto.valid_signValue secret hvalue
  refine ⟨pairText (name, (crypto.signer secret).signValue value), ?_, ?_⟩
  · rw [splitOn_toHeaderValue, sanitizeCookieName_of_valid hname, sanitizeCookieValue_of_valid hsigned]
    rfl
  · rw [lookup_parseCookies (validCookie_clean hname hsigned) hbefore hafter, Option.bind_some]
    exact (crypto.verifyValue_eq_some secret _ value).2 rfl

/-- A value with a dot, sent between two other cookies. -/
theorem signedCookie_round_trip_dotted : ∃ pair : String,
    (parseCookies ("; ".intercalate ["theme=dark", pair, " lang =x=y"])).lookup "sid" =
      some "a.b.j-64Xf4O5ZEXP-qQsHKDtNnvAIHe3v1wxoNRgirN2JQ" ∧
    ((parseCookies ("; ".intercalate ["theme=dark", pair, " lang =x=y"])).lookup "sid").bind
      (hmacSha256.signer "k").verifyValue = some "a.b" := by
  have htheme : OtherCookie "sid" ("theme", "dark") := ⟨by decide, by decide, by decide, by decide⟩
  have hlang : OtherCookie "sid" (" lang ", "x=y") := ⟨by decide, by decide, by decide, by decide⟩
  obtain ⟨hverify, hround⟩ := signedCookie_round_trip hmacSha256 "k"
  obtain ⟨pair, -, hpair⟩ := hround "sid" "a.b" (by decide +kernel) (by decide +kernel) [.secure true, .path "/;x"]
    [("theme", "dark")] [(" lang ", "x=y")]
    (forall_mem_singleton.2 htheme) (forall_mem_singleton.2 hlang)
  refine ⟨pair, ?_, hpair⟩
  obtain ⟨signed, hlookup, hsigned⟩ := Option.bind_eq_some_iff.1 hpair
  have hvalue : (hmacSha256.signer "k").signValue "a.b" = "a.b.j-64Xf4O5ZEXP-qQsHKDtNnvAIHe3v1wxoNRgirN2JQ" := by
    decide +kernel
  exact hlookup.trans (congrArg some (((hverify signed "a.b").1 hsigned).trans hvalue))

end RustRest
