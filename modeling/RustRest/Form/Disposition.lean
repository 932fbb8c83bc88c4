import RustRest.Form.Cursor

/-!
# The parameters of a part

What `parse_part_headers` returns comes from the parameters of the one `Content-Disposition` line. There is exactly one
`name`. A `filename` that comes twice is dropped, as if there was none.

Main result: **`part_parameters`**.
-/

namespace RustRest

open List

/-- The value of a `Content-Disposition` line. -/
def dispositionValue (line : List Char) : Option (List Char) :=
  (splitOnce ':' line).bind fun field =>
    if eqIgnoreAsciiCase (String.ofList field.1) "content-disposition" then some (trim field.2) else none

def dispositionParameters (rawHeaders : List UInt8) : Option (List (String × String)) :=
  (fromUtf8 rawHeaders).bind fun text =>
    match (splitCrlf text.toList).filterMap dispositionValue with
    | [value] => (parseParameterizedValue value).map Prod.snd
    | _ => none

def parameterValues (parameters : List (String × String)) (name : String) : List String :=
  (parameters.filter fun parameter => eqIgnoreAsciiCase parameter.1 name).map Prod.snd

/-! ## The header lines -/

theorem disposition_recordHeader {headers headers' : PartHeaders} {name value : List Char}
    (h : recordHeader headers name value = .ok headers') : headers'.disposition.toList = headers.disposition.toList ++
      if eqIgnoreAsciiCase (String.ofList name) "content-disposition" then [value] else [] := by
  unfold recordHeader at h
  split at h
  · next hname =>
    split at h
    · cases h
    · next hnone =>
      cases h
      rw [if_pos hname, Option.not_isSome_iff_eq_none.1 hnone]
      rfl
  · next hname =>
    rw [if_neg hname, append_nil]
    split at h
    · split at h
      · cases h
      · cases h
        rfl
    · cases h
      rfl

theorem disposition_parseHeaderLine {maxHeaders : ℕ} {headers headers' : PartHeaders} {line : List Char}
    (h : parseHeaderLine maxHeaders headers line = .ok headers') :
    headers'.disposition.toList = headers.disposition.toList ++ (dispositionValue line).toList := by
  unfold parseHeaderLine at h
  dsimp only at h
  split at h
  · cases h
  split at h
  · cases h
  split at h
  · cases h
  · next name value hsplit =>
    split at h
    · cases h
    split at h
    · cases h
    have hrecord := disposition_recordHeader h
    rw [hrecord, dispositionValue, hsplit, Option.bind_some]
    dsimp only
    split <;> rfl

theorem disposition_foldlM {maxHeaders : ℕ} {lines : List (List Char)} {headers headers' : PartHeaders}
    (h : lines.foldlM (parseHeaderLine maxHeaders) headers = .ok headers') :
    headers'.disposition.toList = headers.disposition.toList ++ lines.filterMap dispositionValue := by
  induction lines generalizing headers with
  | nil =>
    cases h
    rw [filterMap_nil, append_nil]
  | cons line lines ih =>
    rw [foldlM_cons] at h
    obtain ⟨next, hline, hlines⟩ := bind_eq_ok.1 h
    rw [ih hlines, disposition_parseHeaderLine hline, append_assoc]
    congr 1
    cases hvalue : dispositionValue line with
    | none => rw [filterMap_cons_none hvalue]; rfl
    | some value => rw [filterMap_cons_some hvalue]; rfl

/-! ## The parameters -/

theorem uniqueParameter_eq_some {parameters : List (String × String)} {name value : String} :
    uniqueParameter parameters name = some value ↔ parameterValues parameters name = [value] := by
  unfold uniqueParameter parameterValues
  split
  · next parameter heq =>
    rw [heq, Option.some_inj, map_cons, map_nil, List.cons.injEq, and_iff_left rfl]
  · next hother =>
    refine iff_of_false nofun fun hmap => ?_
    obtain ⟨parameter, hparameter, -⟩ := map_eq_singleton_iff.1 hmap
    exact hother parameter hparameter

theorem uniqueParameter_eq_none {parameters : List (String × String)} {name : String} :
    uniqueParameter parameters name = none ↔ (parameterValues parameters name).length ≠ 1 := by
  rw [← not_iff_not, not_ne_iff, ← ne_eq, Option.ne_none_iff_exists', length_eq_one_iff]
  exact exists_congr fun value => uniqueParameter_eq_some

theorem partHeaders_eq_ok {headers : PartHeaders} {name : String} {filename contentType : Option String}
    (h : partHeaders headers = .ok (name, filename, contentType)) :
    ∃ disposition kind parameters, headers.disposition = some disposition ∧
      parseParameterizedValue disposition = some (kind, parameters) ∧ uniqueParameter parameters "name" = some name ∧
      filename = uniqueParameter parameters "filename" := by
  unfold partHeaders at h
  split at h
  · cases h
  · next kind parameters hparameters =>
    obtain ⟨disposition, hdisposition, hvalue⟩ := Option.bind_eq_some_iff.1 hparameters
    split at h
    · cases h
    · split at h
      · cases h
      · next name' hname =>
        cases h
        exact ⟨disposition, kind, parameters, hdisposition, hvalue, (Option.filter_eq_some_iff.1 hname).1, rfl⟩

/-- **The parameters of a part.** For any header block that is accepted: it has one `Content-Disposition` line, with
exactly one `name`, which is returned. The file name is returned if there is exactly one. It is absent exactly when no
`filename` is there, if and only if there are not several of them. -/
theorem part_parameters (rawHeaders : List UInt8) (maxHeaders : ℕ) (name : String) (filename contentType : Option String)
    (h : parsePartHeaders rawHeaders maxHeaders = .ok (name, filename, contentType)) :
    ∃ parameters, dispositionParameters rawHeaders = some parameters ∧ parameterValues parameters "name" = [name] ∧
      (∀ value, filename = some value ↔ parameterValues parameters "filename" = [value]) ∧
      ((filename = none ↔ parameterValues parameters "filename" = []) ↔
        (parameterValues parameters "filename").length ≤ 1) := by
  unfold parsePartHeaders at h
  split at h
  · cases h
  · next text htext =>
    obtain ⟨headers, hlines, hheaders⟩ := bind_eq_ok.1 h
    obtain ⟨disposition, kind, parameters, hdisposition, hvalue, hname, rfl⟩ := partHeaders_eq_ok hheaders
    have hone : (splitCrlf text.toList).filterMap dispositionValue = [disposition] := by
      have hall := disposition_foldlM hlines
      rw [hdisposition] at hall
      exact hall.symm
    refine ⟨parameters, ?_, uniqueParameter_eq_some.1 hname, fun value => uniqueParameter_eq_some, ?_⟩
    · rw [dispositionParameters, htext, Option.bind_some, hone]
      dsimp only
      rw [hvalue, Option.map_some]
    · rw [uniqueParameter_eq_none, ← length_eq_zero_iff]
      omega

/-! ## Two file names -/

def dispositionLine (value : List Char) : List UInt8 :=
  utf8 (String.ofList ("Content-Disposition".toList ++ ':' :: ' ' :: value))

theorem splitCrlf_dispositionLine {value : List Char} (hvalue : ∀ c ∈ value, isControl c = false) :
    splitCrlf ("Content-Disposition".toList ++ ':' :: ' ' :: value) =
      ["Content-Disposition".toList ++ ':' :: ' ' :: value] := by
  refine splitCrlf_of_not_mem ?_
  rw [mem_append, mem_cons, mem_cons]
  rintro (hmem | hmem | hmem | hmem)
  · exact absurd hmem (by decide)
  · cases hmem
  · cases hmem
  · exact absurd (hvalue _ hmem) (by decide)

/-- The value of a part with these parameters. -/
def dispositionOf (parameters : List WrittenParameter) : List Char := "form-data".toList ++ writeParameters [] parameters

def plainParameter (name value : String) : WrittenParameter := ⟨[], [' '], name.toList, [], [], value.toList⟩

theorem wellFormed_plainParameter {name value : String} (hne : name.toList ≠ [])
    (hname : name.toList.all isTokenChar = true) (hvalue : value.toList.all isQuotedTextChar = true) :
    (plainParameter name value).WellFormed where
  beforeSemicolon := Blank.nil
  afterSemicolon _ hc := .inl (mem_singleton.1 hc)
  name_ne := hne
  name := all_eq_true.1 hname
  beforeEquals := Blank.nil
  afterEquals := Blank.nil
  value := all_eq_true.1 hvalue

section Lines

variable {parameters : List WrittenParameter} (hparameters : ∀ p ∈ parameters, p.WellFormed)
  (htrim : trim (dispositionOf parameters) = dispositionOf parameters)
  (hvalue : (dispositionOf parameters).all (fun c => !isControl c) = true)

include hparameters

theorem parse_dispositionOf :
    parseParameterizedValue (dispositionOf parameters) = some ("form-data", writtenPairs parameters) :=
  parseParameterizedValue_written (by decide) (by decide) (by decide) Blank.nil hparameters

include htrim hvalue

theorem dispositionParameters_line :
    dispositionParameters (dispositionLine (dispositionOf parameters)) = some (writtenPairs parameters) := by
  have hplain : ∀ c ∈ dispositionOf parameters, isControl c = false := by simpa using hvalue
  have hcolon : ':' ∉ "Content-Disposition".toList := by decide
  have hname : eqIgnoreAsciiCase (String.ofList "Content-Disposition".toList) "content-disposition" = true := by decide
  have hread : dispositionValue ("Content-Disposition".toList ++ ':' :: ' ' :: dispositionOf parameters) =
      some (dispositionOf parameters) := by
    rw [dispositionValue, splitOnce_append hcolon, Option.bind_some]
    dsimp only
    rw [hname, if_pos rfl, trim_space_cons, htrim]
  rw [dispositionParameters, dispositionLine, fromUtf8_utf8, Option.bind_some, String.toList_ofList,
    splitCrlf_dispositionLine hplain, filterMap_cons_some hread]
  dsimp only [filterMap_nil]
  rw [parse_dispositionOf hparameters, Option.map_some]

theorem parsePartHeaders_line : parsePartHeaders (dispositionLine (dispositionOf parameters)) 1 =
    match (uniqueParameter (writtenPairs parameters) "name").filter (· ≠ "") with
    | none => .error malformedHeaders
    | some name => .ok (name, uniqueParameter (writtenPairs parameters) "filename", none) := by
  have hplain : ∀ c ∈ dispositionOf parameters, isControl c = false := by simpa using hvalue
  have hname : ∀ c ∈ "Content-Disposition".toList, isTokenChar c = true := all_eq_true.1 (by decide)
  have hbare : Bare (dispositionOf parameters) := htrim ▸ bare_trim (dispositionOf parameters)
  rw [parsePartHeaders, dispositionLine, fromUtf8_utf8]
  dsimp only
  rw [String.toList_ofList, splitCrlf_dispositionLine hplain, foldlM_cons,
    parseHeaderLine_eq (Nat.le_refl 1) (by decide) hname hbare hplain]
  show partHeaders ⟨some (dispositionOf parameters), none, 1⟩ = _
  rw [partHeaders, Option.bind_some, parse_dispositionOf hparameters]
  rfl

end Lines

/-- `form-data; name="x"; filename="a"` -/
theorem part_parameters_file : ∃ parameters,
    dispositionParameters (dispositionLine (dispositionOf [plainParameter "name" "x", plainParameter "filename" "a"])) =
      some parameters ∧ parameterValues parameters "name" = ["x"] := by
  have hparameters : ∀ p ∈ [plainParameter "name" "x", plainParameter "filename" "a"], p.WellFormed := by
    simp only [mem_cons, not_mem_nil, or_false, forall_eq_or_imp, forall_eq]
    exact ⟨wellFormed_plainParameter (by decide) (by decide) (by decide),
      wellFormed_plainParameter (by decide) (by decide) (by decide)⟩
  have hok := parsePartHeaders_line hparameters (by decide) (by decide)
  obtain ⟨parameters, hread, hname, -⟩ := part_parameters _ _ "x" (some "a") none hok
  exact ⟨parameters, hread, hname⟩

/-- `form-data; name="x"; filename="a"; filename="b"`: the part is accepted without a file name. -/
theorem part_parameters_two_filenames :
    let rawHeaders := dispositionLine (dispositionOf
      [plainParameter "name" "x", plainParameter "filename" "a", plainParameter "filename" "b"])
    parsePartHeaders rawHeaders 1 = .ok ("x", none, none) ∧
      dispositionParameters rawHeaders = some [("name", "x"), ("filename", "a"), ("filename", "b")] := by
  have hparameters : ∀ p ∈ [plainParameter "name" "x", plainParameter "filename" "a", plainParameter "filename" "b"],
      p.WellFormed := by
    simp only [mem_cons, not_mem_nil, or_false, forall_eq_or_imp, forall_eq]
    exact ⟨wellFormed_plainParameter (by decide) (by decide) (by decide),
      wellFormed_plainParameter (by decide) (by decide) (by decide),
      wellFormed_plainParameter (by decide) (by decide) (by decide)⟩
  exact ⟨parsePartHeaders_line hparameters (by decide) (by decide),
    dispositionParameters_line hparameters (by decide) (by decide)⟩

end RustRest
