import RustRest.Lib.Search

/-!
# Unix paths

The components of a path, and a path that is put together from them. Slashes separate; repeated slashes and a slash at the
end count for nothing; `.` is a component only at the front of a relative path. A backslash is a character like any other.
-/

namespace UnixPath

open List

inductive Component where
  | rootDir
  | curDir
  | parentDir
  | normal (part : String)
  deriving Repr, DecidableEq

def parseSingle (part : List Char) : Option Component :=
  if part = [] ∨ part = ['.'] then none
  else if part = ['.', '.'] then some .parentDir
  else some (.normal (String.ofList part))

/-- The components behind the front of a path. -/
def body (text : List Char) : List Component := (text.splitOn '/').filterMap parseSingle

/-- The components of a path, as `Path::components` has them. -/
def components (path : String) : List Component :=
  match path.toList with
  | '/' :: rest => .rootDir :: body rest
  | ['.'] => [.curDir]
  | '.' :: '/' :: rest => .curDir :: body rest
  | text => body text

def push (path part : String) : String :=
  if part.toList.head? = some '/' then part
  else if path = "" ∨ path.toList.getLast? = some '/' then path ++ part
  else path ++ "/" ++ part

structure IsNormal (part : String) : Prop where
  ne_empty : part ≠ ""
  ne_dot : part ≠ "."
  ne_dots : part ≠ ".."
  slash : '/' ∉ part.toList

variable {part : String}

theorem IsNormal.toList_ne_nil (h : IsNormal part) : part.toList ≠ [] :=
  fun heq => h.ne_empty (String.toList_inj.1 heq)

theorem IsNormal.toList_ne_dot (h : IsNormal part) : part.toList ≠ ['.'] :=
  fun heq => h.ne_dot (String.toList_inj.1 heq)

theorem parseSingle_of_isNormal (h : IsNormal part) : parseSingle part.toList = some (.normal part) := by
  have hdots : part.toList ≠ ['.', '.'] := fun heq => h.ne_dots (String.toList_inj.1 heq)
  rw [parseSingle, if_neg (by simp [h.toList_ne_nil, h.toList_ne_dot]), if_neg hdots, String.ofList_toList]

theorem isNormal_of_mem_body {text : List Char} (h : .normal part ∈ body text) : IsNormal part := by
  obtain ⟨piece, hpiece, hparse⟩ := mem_filterMap.1 h
  unfold parseSingle at hparse
  split at hparse
  · cases hparse
  · rename_i hshort
    split at hparse
    · cases hparse
    · rename_i hdots
      cases hparse
      rw [not_or] at hshort
      refine ⟨fun heq => hshort.1 ?_, fun heq => hshort.2 ?_, fun heq => hdots ?_, ?_⟩
      · simpa using heq
      · simpa using congrArg String.toList heq
      · simpa using congrArg String.toList heq
      · rw [String.toList_ofList]
        exact Search.not_mem_of_mem_splitOn hpiece

/-- A component is not empty, not `.` or `..`, and has no slash. -/
theorem isNormal_of_mem_components {part path : String} (h : .normal part ∈ components path) : IsNormal part := by
  unfold components at h
  split at h
  · exact isNormal_of_mem_body ((mem_cons.1 h).resolve_left nofun)
  · exact absurd (mem_singleton.1 h) nofun
  · exact isNormal_of_mem_body ((mem_cons.1 h).resolve_left nofun)
  · exact isNormal_of_mem_body h

theorem IsNormal.head_ne (h : IsNormal part) : part.toList.head? ≠ some '/' :=
  fun heq => h.slash (mem_of_mem_head? heq)

theorem IsNormal.getLast_ne (h : IsNormal part) : part.toList.getLast? ≠ some '/' :=
  fun heq => h.slash (mem_of_getLast? heq)

theorem push_empty (h : IsNormal part) : push "" part = part := by
  rw [push, if_neg h.head_ne, if_pos (.inl rfl), String.empty_append]

theorem push_append {path part : String} (h : IsNormal part) (hne : path ≠ "") (hlast : path.toList.getLast? ≠ some '/') :
    push path part = path ++ "/" ++ part := by
  rw [push, if_neg h.head_ne, if_neg (by simp [hne, hlast])]

variable {parts : List String}

theorem foldl_push_append {path : String} (h : ∀ part ∈ parts, IsNormal part) (hne : path ≠ "")
    (hlast : path.toList.getLast? ≠ some '/') : parts.foldl push path = "/".intercalate (path :: parts) := by
  induction parts generalizing path with
  | nil => simp
  | cons part parts ih =>
    have hpart := h part mem_cons_self
    rw [foldl_cons, push_append hpart hne hlast, ih fun p hp => h p (mem_cons_of_mem _ hp)]
    · simp [String.append_assoc]
    · simp [hne]
    · rw [String.toList_append, List.getLast?_append_of_ne_nil _ hpart.toList_ne_nil]
      exact hpart.getLast_ne

theorem foldl_push (h : ∀ part ∈ parts, IsNormal part) :
    parts.foldl push "" = "/".intercalate parts := by
  cases parts with
  | nil => rfl
  | cons part parts =>
    have hpart := h part mem_cons_self
    rw [foldl_cons, push_empty hpart]
    exact foldl_push_append (fun p hp => h p (mem_cons_of_mem _ hp)) hpart.ne_empty hpart.getLast_ne

theorem splitOn_intercalate (hne : parts ≠ []) (h : ∀ part ∈ parts, IsNormal part) :
    ("/".intercalate parts).toList.splitOn '/' = parts.map String.toList := by
  have htext : ("/".intercalate parts).toList = ['/'].intercalate (parts.map String.toList) := by
    rw [String.toList_intercalate]
    rfl
  rw [htext, List.splitOn_intercalate '/' ?_ (by simpa using hne)]
  intro text htext
  obtain ⟨part, hpart, rfl⟩ := List.mem_map.1 htext
  exact (h part hpart).slash

theorem components_eq_body {path part : String} {pieces : List (List Char)} (hpart : IsNormal part)
    (hsplit : path.toList.splitOn '/' = part.toList :: pieces) : components path = body path.toList := by
  unfold components
  split
  · rename_i rest htext
    rw [htext, splitOn_cons_eq_if_modifyHead, if_pos (by decide)] at hsplit
    exact absurd (List.cons.inj hsplit).1.symm hpart.toList_ne_nil
  · rename_i htext
    rw [htext] at hsplit
    exact absurd (List.cons.inj hsplit).1.symm hpart.toList_ne_dot
  · rename_i rest htext
    rw [htext, splitOn_cons_eq_if_modifyHead, if_neg (by decide), splitOn_cons_eq_if_modifyHead,
      if_pos (by decide)] at hsplit
    exact absurd (List.cons.inj hsplit).1.symm hpart.toList_ne_dot
  · rfl

theorem components_intercalate (h : ∀ part ∈ parts, IsNormal part) :
    components ("/".intercalate parts) = parts.map .normal := by
  cases parts with
  | nil => rfl
  | cons part parts =>
    have hsplit := splitOn_intercalate (cons_ne_nil part parts) h
    rw [components_eq_body (h part mem_cons_self) hsplit, body, hsplit, filterMap_map]
    have hparse : ∀ p ∈ part :: parts, (parseSingle ∘ String.toList) p = some (.normal p) :=
      fun p hp => parseSingle_of_isNormal (h p hp)
    rw [filterMap_congr hparse]
    simp

end UnixPath
