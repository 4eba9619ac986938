/-
# The components of a path

Source: `std::path::Path::components` for Unix, which the crates under `crates/` take
paths apart with.  Repeated separators and `.` are dropped, except a `.` at the very
beginning of a relative path.

The kernel takes the same text apart at its separators alone (`kernelComponents`);
`components_eq` says what the two have in common.
-/

import ThinWorkspace.Core.Path
import ThinWorkspace.Lib.Words

namespace ThinWorkspace
namespace Core

open Lib.Words

/-- `std::path::Component` on Unix: a separator at the beginning, one of the two special names, or
a proper name. -/
inductive Component where
  | rootDir | curDir | parentDir
  | normal (name : List UInt8)
deriving DecidableEq

/-- The name `.`, which stands for the directory itself. -/
def dot : List UInt8 := [46]

/-- The name `..`, which stands for the parent. -/
def dotDot : List UInt8 := [46, 46]

/-- `Components::parse_single_component`: an empty part and a `.` are left out, wherever they
stand. -/
def parseSingleComponent (part : List UInt8) : Option Component :=
  if part = [] ∨ part = dot then none
  else if part = dotDot then some .parentDir
  else some (.normal part)

/-- `Path::is_absolute`: the path begins with a separator. -/
def isAbsolute (path : List UInt8) : Bool := path.head? == some slash

/-- `Components::include_cur_dir`: only at the beginning of a relative path a `.` is a component.
-/
def includeCurDir (path : List UInt8) : Bool := path == dot || path.take 2 == [46, slash]

/-- `Path::components`: the parts between the separators, with what stands before them. -/
def components (path : List UInt8) : List Component :=
  let body := (path.splitOn slash).filterMap parseSingleComponent
  if isAbsolute path then .rootDir :: body
  else if includeCurDir path then .curDir :: body
  else body

/-- `Path::strip_prefix`, on the components of both paths. -/
def stripPrefix : List Component → List Component → Option (List Component)
  | rest, [] => some rest
  | [], _ :: _ => none
  | c :: rest, b :: base => if c = b then stripPrefix rest base else none

/-- What is left of a path behind a base is what the base has to be continued with. -/
theorem stripPrefix_eq_some {path base rest : List Component} :
    stripPrefix path base = some rest ↔ path = base ++ rest := by
  induction base generalizing path with
  | nil => simp [stripPrefix]
  | cons b base ih =>
    cases path with
    | nil => simp [stripPrefix]
    | cons c path =>
      rw [stripPrefix, List.cons_append, List.cons.injEq]
      by_cases hc : c = b
      · rw [if_pos hc, ih]
        simp [hc]
      · rw [if_neg hc]
        simp [hc]

/-- `Path::starts_with`: by components, so that `/ab` does not start with `/a`. -/
def startsWith (path base : List UInt8) : Bool :=
  (stripPrefix (components path) (components base)).isSome

/-- A path starts with itself, since its components are all of its components. -/
theorem startsWith_self (path : List UInt8) : startsWith path path = true := by
  have hstrip : stripPrefix (components path) (components path) = some [] :=
    stripPrefix_eq_some.mpr (List.append_nil _).symm
  rw [startsWith, hstrip]
  rfl

/-! ### Names

A normal component is a name, and a name is what one `openat` can take.  The parts between
the separators are walked twice in this project, by `components` as the standard library
does and by `kernelComponents` as the kernel does; `components_eq` relates the two, so that
a path the code has checked is the path the kernel walks. -/

/-- A name that the component of a path may have. -/
structure IsName (name : List UInt8) : Prop where
  ne_nil : name ≠ []
  no_slash : slash ∉ name
  ne_dot : name ≠ dot
  ne_dotDot : name ≠ dotDot

/-- A name is a text without a separator that is neither empty nor one of the dots. -/
theorem isName_iff {name : List UInt8} : IsName name ↔
    (name ≠ [] ∧ name ≠ dot ∧ name ≠ dotDot) ∧ name.contains slash = false := by
  constructor
  · exact fun h => ⟨⟨h.ne_nil, h.ne_dot, h.ne_dotDot⟩, by simpa using h.no_slash⟩
  · exact fun h => ⟨h.1.1, by simpa using h.2, h.1.2.1, h.1.2.2⟩

instance (name : List UInt8) : Decidable (IsName name) := decidable_of_iff' _ isName_iff

/-- A name is a normal component, since it is none of the special ones. -/
theorem parseSingleComponent_name {name : List UInt8} (h : IsName name) :
    parseSingleComponent name = some (.normal name) := by
  rw [parseSingleComponent, if_neg (by simp [h.ne_nil, h.ne_dot]), if_neg h.ne_dotDot]

/-- A single dot is no component, as the parser leaves it out. -/
theorem parseSingleComponent_dot : parseSingleComponent dot = none := by decide

/-- Two dots are the parent, and are kept as such. -/
theorem parseSingleComponent_dotDot : parseSingleComponent dotDot = some .parentDir := by decide

/-- The text of names with a `/` between two, as `PathBuf::push` makes it. -/
def pathBytes (names : List (List UInt8)) : List UInt8 := [slash].intercalate names

/-- The parts of a text between its separators, which the kernel walks one by one. -/
def kernelComponents (path : List UInt8) : List (List UInt8) := words (· == slash) path

/-- A part that the kernel walks is not empty and has no separator. -/
theorem mem_kernelComponents {path part : List UInt8} (h : part ∈ kernelComponents path) :
    part ≠ [] ∧ slash ∉ part := by
  obtain ⟨_, _, _, _, _, hword⟩ := exists_of_mem_words h
  refine ⟨hword.ne_nil, fun hmem => ?_⟩
  simpa using hword.no_blank slash hmem

/-- A part is a name, `.` or `..`: the empty parts are not among those of the kernel. -/
theorem cases_kernelComponents {path part : List UInt8} (h : part ∈ kernelComponents path) :
    IsName part ∨ part = dot ∨ part = dotDot := by
  obtain ⟨hne, hslash⟩ := mem_kernelComponents h
  by_cases hdot : part = dot
  · exact Or.inr (Or.inl hdot)
  · by_cases hdotDot : part = dotDot
    · exact Or.inr (Or.inr hdotDot)
    · exact Or.inl ⟨hne, hslash, hdot, hdotDot⟩

/-- **The components of a path** are the parts the kernel walks, without `.`, after the
root or a leading `.`. -/
theorem components_eq (path : List UInt8) : components path =
    (if isAbsolute path then [.rootDir] else if includeCurDir path then [.curDir] else []) ++
      (kernelComponents path).filterMap parseSingleComponent := by
  have hbody : (kernelComponents path).filterMap parseSingleComponent =
      (path.splitOn slash).filterMap parseSingleComponent := by
    rw [kernelComponents, words, List.filterMap_filter, List.splitOn_eq_splitOnP]
    refine List.filterMap_congr fun part _ => ?_
    by_cases hnil : part = []
    · simp [hnil, parseSingleComponent]
    · simp [hnil]
  rw [components, hbody]
  split
  · rfl
  · split <;> rfl

/-- Every normal component is a name, so it can be opened as one. -/
theorem isName_of_mem_components {path name : List UInt8} (h : .normal name ∈ components path) :
    IsName name := by
  rw [components_eq, List.mem_append] at h
  have hbody : .normal name ∈ (kernelComponents path).filterMap parseSingleComponent := by
    rcases h with h | h
    · split at h
      · simp at h
      · split at h <;> simp at h
    · exact h
  obtain ⟨part, hpart, hparse⟩ := List.mem_filterMap.mp hbody
  rcases cases_kernelComponents hpart with hname | rfl | rfl
  · rw [parseSingleComponent_name hname] at hparse
    cases hparse
    exact hname
  · rw [parseSingleComponent_dot] at hparse
    cases hparse
  · rw [parseSingleComponent_dotDot] at hparse
    cases hparse

/-- **Names make a path of normal components only**, and these are the names themselves. -/
theorem components_pathBytes {names : List (List UInt8)} (h : ∀ name ∈ names, IsName name) :
    components (pathBytes names) = names.map .normal := by
  cases names with
  | nil => rfl
  | cons first rest =>
    have hsplit : (pathBytes (first :: rest)).splitOn slash = first :: rest :=
      List.splitOn_intercalate slash (fun name hname => (h name hname).no_slash)
        (List.cons_ne_nil _ _)
    have hfirst := h first List.mem_cons_self
    have habsolute : isAbsolute (pathBytes (first :: rest)) = false := by
      rw [isAbsolute, beq_eq_false_iff_ne]
      intro hhead
      obtain ⟨tail, htail⟩ := List.head?_eq_some_iff.mp hhead
      rw [htail, List.splitOn_cons_eq_if_modifyHead, if_pos (beq_self_eq_true _)] at hsplit
      exact hfirst.ne_nil (List.cons.inj hsplit).1.symm
    have hcur : includeCurDir (pathBytes (first :: rest)) = false := by
      have hdot : ([46] : List UInt8).splitOn slash = [dot] := by
        simp [List.splitOn_eq_splitOnP, List.splitOnP_cons_eq_if_modifyHead, dot,
          show (46 : UInt8) ≠ slash by decide]
      rw [includeCurDir, Bool.or_eq_false_iff, beq_eq_false_iff_ne, beq_eq_false_iff_ne]
      constructor
      · intro he
        rw [he, dot, hdot] at hsplit
        exact hfirst.ne_dot (List.cons.inj hsplit).1.symm
      · intro htake
        have he : pathBytes (first :: rest) =
            [46] ++ slash :: (pathBytes (first :: rest)).drop 2 := by
          nth_rewrite 1 [← List.take_append_drop 2 (pathBytes (first :: rest))]
          rw [htake]
          rfl
        rw [he, List.splitOn_append_cons_self, hdot] at hsplit
        exact hfirst.ne_dot (List.cons.inj hsplit).1.symm
    rw [components, habsolute, hcur, hsplit]
    show (first :: rest).filterMap parseSingleComponent = _
    rw [← List.filterMap_eq_map]
    exact List.filterMap_congr fun name hname => parseSingleComponent_name (h name hname)

/-! ### Paths put together

Code that joins a directory and a name writes bytes and later takes the bytes apart again.
These lemmas follow a join through both readings; the last of them, `startsWith_root`, is
what keeps the root of the filesystem out of every directory below it. -/

/-- What follows a separator is walked after what precedes it. -/
theorem kernelComponents_append_slash (path rest : List UInt8) :
    kernelComponents (path ++ slash :: rest) = kernelComponents path ++ kernelComponents rest := by
  have hslash : (fun byte : UInt8 => byte == slash) slash = true := beq_self_eq_true slash
  exact words_append_cons path rest hslash

/-- A second separator changes nothing, since the empty part between the two is left out. -/
theorem components_double_slash (path rest : List UInt8) :
    components (path ++ slash :: slash :: rest) = components (path ++ slash :: rest) := by
  have hparts : kernelComponents (path ++ slash :: slash :: rest) =
      kernelComponents (path ++ slash :: rest) := by
    have hrest := kernelComponents_append_slash [] rest
    rw [kernelComponents_append_slash, kernelComponents_append_slash]
    rw [List.nil_append] at hrest
    rw [hrest]
    simp [kernelComponents]
  have hroot : isAbsolute (path ++ slash :: slash :: rest) =
      isAbsolute (path ++ slash :: rest) := by
    cases path with
    | nil => rfl
    | cons first path => rfl
  have hdot : includeCurDir (path ++ slash :: slash :: rest) =
      includeCurDir (path ++ slash :: rest) := by
    match path with
    | [] => simp [includeCurDir, dot, show (slash == (46 : UInt8)) = false by decide]
    | [first] => simp [includeCurDir, dot]
    | first :: second :: path => simp [includeCurDir, dot]
  rw [components_eq, components_eq, hparts, hroot, hdot]

/-- What follows a separator adds its parts to the components before it. -/
theorem components_append_slash {path : List UInt8} (h : path ≠ []) (rest : List UInt8) :
    components (path ++ slash :: rest) =
      components path ++ (kernelComponents rest).filterMap parseSingleComponent := by
  have hroot : isAbsolute (path ++ slash :: rest) = isAbsolute path := by
    rw [isAbsolute, isAbsolute, List.head?_append_of_ne_nil _ h]
  have hdot : includeCurDir (path ++ slash :: rest) = includeCurDir path := by
    match path with
    | [first] => simp [includeCurDir, dot]
    | first :: second :: path => simp [includeCurDir, dot]
  rw [components_eq, components_eq, kernelComponents_append_slash, hroot, hdot,
    List.filterMap_append, List.append_assoc]

/-- The components of an absolute path are the root and those of its parts. -/
theorem components_of_isAbsolute {path : List UInt8} (h : isAbsolute path = true) :
    components path = .rootDir :: (kernelComponents path).filterMap parseSingleComponent := by
  rw [components_eq, if_pos h]
  rfl

/-- Names that were joined are the parts that the kernel walks. -/
theorem kernelComponents_pathBytes {names : List (List UInt8)} (h : ∀ name ∈ names, IsName name) :
    kernelComponents (pathBytes names) = names := by
  by_cases hnil : names = []
  · rw [hnil]
    rfl
  · have hsplit : (pathBytes names).splitOn slash = names :=
      List.splitOn_intercalate slash (fun name hname => (h name hname).no_slash) hnil
    rw [kernelComponents, Lib.Words.words, ← List.splitOn_eq_splitOnP, hsplit, List.filter_eq_self]
    intro name hname
    simpa using (h name hname).ne_nil

/-- Names after a separator make an absolute path of normal components. -/
theorem components_slash_pathBytes {names : List (List UInt8)} (h : ∀ name ∈ names, IsName name) :
    components (slash :: pathBytes names) = .rootDir :: names.map .normal := by
  have hparts := kernelComponents_append_slash [] (pathBytes names)
  rw [List.nil_append, kernelComponents_pathBytes h] at hparts
  rw [components_of_isAbsolute rfl, hparts, ← List.filterMap_eq_map]
  exact congrArg _ (List.filterMap_congr fun name hname => parseSingleComponent_name (h name hname))

/-- The root lies in no directory but itself: it has no name, and so does not start with a path
that has one. -/
theorem startsWith_root {names : List (List UInt8)} (h : ∀ name ∈ names, IsName name)
    (hne : names ≠ []) : startsWith [slash] (slash :: pathBytes names) = false := by
  have hroot : components [slash] = [.rootDir] :=
    components_slash_pathBytes (fun _ hmem => absurd hmem List.not_mem_nil)
  rw [startsWith, Option.isSome_eq_false_iff, Option.isNone_iff_eq_none, hroot,
    components_slash_pathBytes h]
  obtain ⟨name, names, rfl⟩ := List.exists_cons_of_ne_nil hne
  rfl

end Core
end ThinWorkspace
