import RustRest.Lib.UnixPath
import RustRest.Router.Mount
import RustRest.Router.Route

/-!
# The path of a static file

`safe_static_relative` of `router.rs`, and the way of a request path to it: its segments are decoded one by one, the
wildcard of the mount joins what is left of them with slashes, and the result is taken apart again by the rules of Unix
paths. An encoded slash thus separates components that were one segment.

Main result: **`staticRelative_contained`**.
-/

namespace RustRest

open UnixPath (Component components push IsNormal)

/-! ## The model -/

/-- A hidden file, or a component that is not plain. -/
inductive StaticPathRejection where
  | hidden
  | invalid
  deriving Repr, DecidableEq

def pushComponent (dotfiles : Dotfiles) (path : String) : Component → Except StaticPathRejection String
  | .normal part => if dotfiles = .deny ∧ part.toList.head? = some '.' then .error .hidden else .ok (push path part)
  | .curDir => if dotfiles = .deny then .error .hidden else .ok path
  | .rootDir | .parentDir => .error .invalid

/-- `safe_static_relative`: the components of the path below the root. -/
def safeStaticRelative (requested : String) (dotfiles : Dotfiles) : Except StaticPathRejection String :=
  let relative := if requested = "" then "index.html" else requested
  (components relative).foldlM (pushComponent dotfiles) ""

def staticRelative (pattern : List Segment) (dotfiles : Dotfiles) (path : String) :
    Option (Except StaticPathRejection String) :=
  match decodePathSegments path with
  | .error _ => none
  | .ok segments => (matchDecodedPattern pattern segments).map fun params =>
      safeStaticRelative ((params.lookup "path").getD "") dotfiles

/-! ## What is accepted -/

/-- A normal component that the policy admits. -/
structure Ordinary (dotfiles : Dotfiles) (part : String) : Prop extends IsNormal part where
  visible : dotfiles = .deny → part.toList.head? ≠ some '.'

def Contained (dotfiles : Dotfiles) (opened : String) : Prop :=
  opened.toList.head? ≠ some '/' ∧
    ∃ parts, opened = "/".intercalate parts ∧ components opened = parts.map .normal ∧
      ∀ part ∈ parts, Ordinary dotfiles part

variable {dotfiles : Dotfiles}

theorem foldlM_pushComponent {cs : List Component} {path opened : String}
    (hcs : ∀ part, .normal part ∈ cs → IsNormal part)
    (h : cs.foldlM (pushComponent dotfiles) path = .ok opened) :
    ∃ parts : List String, opened = parts.foldl push path ∧ ∀ part ∈ parts, Ordinary dotfiles part := by
  induction cs generalizing path with
  | nil =>
    cases h
    exact ⟨[], rfl, by simp⟩
  | cons c cs ih =>
    have hrest : ∀ part, .normal part ∈ cs → IsNormal part := fun part hpart => hcs part (List.mem_cons_of_mem _ hpart)
    rw [List.foldlM_cons] at h
    cases c with
    | normal part =>
      rw [pushComponent] at h
      split at h
      · cases h
      · rename_i hvisible
        obtain ⟨parts, rfl, hparts⟩ := ih hrest h
        refine ⟨part :: parts, rfl, ?_⟩
        rintro p (_ | ⟨_, hp⟩)
        · exact ⟨hcs part List.mem_cons_self, fun hdeny hdot => hvisible ⟨hdeny, hdot⟩⟩
        · exact hparts p hp
    | curDir =>
      rw [pushComponent] at h
      split at h
      · cases h
      · exact ih hrest h
    | rootDir | parentDir => cases h

theorem head_intercalate {parts : List String} (h : ∀ part ∈ parts, IsNormal part) :
    ("/".intercalate parts).toList.head? ≠ some '/' := by
  cases parts with
  | nil => simp
  | cons part parts =>
    have hpart := h part List.mem_cons_self
    cases parts with
    | nil => simpa using hpart.head_ne
    | cons next parts =>
      rw [String.intercalate_cons_cons, String.toList_append, String.toList_append, List.append_assoc,
        List.head?_append_of_ne_nil _ hpart.toList_ne_nil]
      exact hpart.head_ne

/-- What is accepted consists of normal components, each of which the policy admits. -/
theorem safeStaticRelative_ok {requested opened : String} (h : safeStaticRelative requested dotfiles = .ok opened) :
    Contained dotfiles opened := by
  obtain ⟨parts, rfl, hparts⟩ := foldlM_pushComponent (fun _ => UnixPath.isNormal_of_mem_components) h
  have hnormal : ∀ part ∈ parts, IsNormal part := fun part hpart => (hparts part hpart).toIsNormal
  rw [UnixPath.foldl_push hnormal]
  exact ⟨head_intercalate hnormal, parts, rfl, UnixPath.components_intercalate hnormal, hparts⟩

theorem foldlM_ordinary {parts : List String} (h : ∀ part ∈ parts, Ordinary dotfiles part) (path : String) :
    (parts.map Component.normal).foldlM (pushComponent dotfiles) path = .ok (parts.foldl push path) := by
  induction parts generalizing path with
  | nil => rfl
  | cons part parts ih =>
    have hvisible : ¬ (dotfiles = .deny ∧ part.toList.head? = some '.') :=
      fun ⟨hdeny, hdot⟩ => (h part List.mem_cons_self).visible hdeny hdot
    rw [List.map_cons, List.foldlM_cons, pushComponent, if_neg hvisible]
    exact ih (fun p hp => h p (List.mem_cons_of_mem _ hp)) _

theorem safeStaticRelative_intercalate {parts : List String} (hne : parts ≠ [])
    (h : ∀ part ∈ parts, Ordinary dotfiles part) :
    safeStaticRelative ("/".intercalate parts) dotfiles = .ok ("/".intercalate parts) := by
  have hnormal : ∀ part ∈ parts, IsNormal part := fun part hpart => (h part hpart).toIsNormal
  have hcomponents := UnixPath.components_intercalate hnormal
  have hempty : "/".intercalate parts ≠ "" := by
    intro heq
    rw [heq] at hcomponents
    exact hne (List.map_eq_nil_iff.1 hcomponents.symm)
  rw [safeStaticRelative, if_neg hempty, hcomponents, foldlM_ordinary h, UnixPath.foldl_push hnormal]

/-! ## From the request path -/

theorem staticRelative_mount {pre : List Segment} {path : String} {segments : List String}
    (hpre : ∀ s ∈ pre, s.isWildcard = false) (hd : decodePathSegments path = .ok segments)
    (hmatch : (matchDecodedPattern (pre ++ [.wildcard "path"]) segments).isSome) :
    staticRelative (pre ++ [.wildcard "path"]) dotfiles path =
      some (safeStaticRelative ("/".intercalate (segments.drop pre.length)) dotfiles) := by
  obtain ⟨params, hparams⟩ := Option.isSome_iff_exists.1 hmatch
  have hvalue : params.lookup "path" = some ("/".intercalate (segments.drop pre.length)) := by
    rw [matchDecodedPattern_append hpre] at hparams
    obtain ⟨captured, -, hunion⟩ := Option.bind_eq_some_iff.1 hparams
    obtain ⟨last, hlast, rfl⟩ := Option.map_eq_some_iff.1 hunion
    cases hlast
    rw [Finmap.lookup_union_left (by simp), Finmap.lookup_insert]
  rw [staticRelative, hd]
  dsimp only
  rw [hparams, Option.map_some, hvalue, Option.getD_some]

/-- **What a static mount opens.** Whatever the request path, it is a relative path of normal components that the policy
admits. And every path of such components is accepted and opened as it is, also when a request's segments are joined to
it. -/
theorem staticRelative_contained (dotfiles : Dotfiles) :
    (∀ pattern path opened, staticRelative pattern dotfiles path = some (.ok opened) → Contained dotfiles opened) ∧
    (∀ parts : List String, parts ≠ [] → (∀ part ∈ parts, Ordinary dotfiles part) →
      safeStaticRelative ("/".intercalate parts) dotfiles = .ok ("/".intercalate parts)) ∧
    (∀ (pre : List Segment) path segments parts, (∀ s ∈ pre, s.isWildcard = false) →
      decodePathSegments path = .ok segments → (matchDecodedPattern (pre ++ [.wildcard "path"]) segments).isSome →
      "/".intercalate (segments.drop pre.length) = "/".intercalate parts → parts ≠ [] →
      (∀ part ∈ parts, Ordinary dotfiles part) →
      staticRelative (pre ++ [.wildcard "path"]) dotfiles path = some (.ok ("/".intercalate parts))) := by
  refine ⟨?_, fun parts hne h => safeStaticRelative_intercalate hne h, ?_⟩
  · intro pattern path opened h
    unfold staticRelative at h
    split at h
    · cases h
    · obtain ⟨params, -, hopened⟩ := Option.map_eq_some_iff.1 h
      exact safeStaticRelative_ok hopened
  · intro pre path segments parts hpre hd hmatch hrest hne h
    rw [staticRelative_mount hpre hd hmatch, hrest, safeStaticRelative_intercalate hne h]

/-- An encoded slash, an encoded backslash and a dot inside a name. -/
theorem staticRelative_contained_encoded :
    staticRelative [.static "files", .wildcard "path"] .deny "/files/a%2Fb/c%5C..d" = some (.ok "a/b/c\\..d") ∧
      Contained .deny "a/b/c\\..d" := by
  have hopened : staticRelative [.static "files", .wildcard "path"] .deny "/files/a%2Fb/c%5C..d" =
      some (.ok "a/b/c\\..d") := by decide +kernel
  exact ⟨hopened, (staticRelative_contained .deny).1 _ _ _ hopened⟩

end RustRest
