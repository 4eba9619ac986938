/-
# Canonical absolute paths

Source: `crates/thinws-core/src/path.rs`.  A path is the list of its bytes.  The
source accepts `/` alone or a `/` before each of a nonempty list of normal
components; `AbsolutePath` carries the acceptance as a field.

`components` is the list of components, the form every containment question of
the later modules is asked in, and `ofComponents` is its inverse.
-/

import ThinWorkspace.Lib.Segments

namespace ThinWorkspace
namespace Core

/-- The byte `/`, which separates the components of a path. -/
abbrev slash : UInt8 := 47

/-- `AbsolutePathError`: the first rule that the bytes break. -/
inductive AbsolutePathError where
  | notAbsolute
  | containsNul
  | nonCanonicalComponent
deriving DecidableEq

/-- A component the source refuses: empty, `.` or `..`, none of which names an entry. -/
def isSpecialComponent (component : List UInt8) : Bool :=
  component == [] || component == [46] || component == [46, 46]

/-- `path.rs::validate`: absolute, without a zero byte, and in the one spelling that has no special
components. -/
def validatePath (bytes : List UInt8) : Except AbsolutePathError Unit :=
  if bytes.head? ≠ some slash then .error .notAbsolute
  else if bytes.contains 0 then .error .containsNul
  else if bytes.length = 1 then .ok ()
  else if bytes.getLast? = some slash then .error .nonCanonicalComponent
  else if (bytes.tail.splitOn slash).any isSpecialComponent then
    .error .nonCanonicalComponent
  else .ok ()

instance (bytes : List UInt8) : Decidable (validatePath bytes = .ok ()) :=
  match h : validatePath bytes with
  | .ok () => isTrue rfl
  | .error _ => isFalse (by simp)

/-- `AbsolutePath`: the exact bytes that passed `validatePath`, so that two equal paths have equal
bytes. -/
structure AbsolutePath where
  asBytes : List UInt8
  valid : validatePath asBytes = .ok ()
deriving DecidableEq

namespace AbsolutePath

/-- `AbsolutePath::try_from_bytes`: the bytes are kept as they are, and never normalized. -/
def tryFromBytes (bytes : List UInt8) : Except AbsolutePathError AbsolutePath :=
  match h : validatePath bytes with
  | .error e => .error e
  | .ok () => .ok ⟨bytes, h⟩

/-- A path is its bytes: the proof it carries adds nothing. -/
theorem asBytes_injective : Function.Injective asBytes := fun a b h => by
  cases a
  cases b
  simpa using h

/-- Paths are equal exactly if their bytes are, since the proof of validity adds nothing. -/
@[simp] theorem asBytes_inj {a b : AbsolutePath} : a.asBytes = b.asBytes ↔ a = b :=
  asBytes_injective.eq_iff

/-- The bytes of a path are accepted as that path. -/
@[simp] theorem tryFromBytes_asBytes (path : AbsolutePath) :
    tryFromBytes path.asBytes = .ok path := by
  unfold tryFromBytes
  split
  · rename_i e h
    rw [path.valid] at h
    cases h
  · rfl

/-! ### Components

A canonical path is its list of components, and the two directions are `join_components` and
`components_join`.  A component may be anything but empty, `.`, `..`, or a text with a slash
or a zero byte; `Normal` collects these, and each is one rule of the validation. -/

open Lib

variable {p q : AbsolutePath}

/-- A path begins with a slash, by the first rule of its validation. -/
theorem head_asBytes (p : AbsolutePath) : p.asBytes.head? = some slash := by
  have h := p.valid
  unfold validatePath at h
  split at h
  · cases h
  · rename_i hhead
    exact not_not.mp hhead

/-- The components of a path, none for the root. -/
def components (p : AbsolutePath) : List (List UInt8) :=
  if p.asBytes = [slash] then [] else p.asBytes.tail.splitOn slash

/-- The root has no components, and is the only path without one. -/
theorem components_root (h : p.asBytes = [slash]) : p.components = [] := if_pos h

/-- A path below the root has the components between its slashes. -/
theorem components_of_ne (h : p.asBytes ≠ [slash]) :
    p.components = p.asBytes.tail.splitOn slash := if_neg h

/-- A path below the root has a component, and so a last one. -/
theorem components_ne_nil (h : p.asBytes ≠ [slash]) : p.components ≠ [] := by
  rw [components_of_ne h]
  exact List.splitOn_ne_nil _ _

/-- A path below the root is its components, a `/` before each. -/
theorem join_components (h : p.asBytes ≠ [slash]) :
    Segments.join slash p.components = p.asBytes := by
  rw [components_of_ne h, Segments.join_splitOn p.head_asBytes]

/-- The components of a text of components are these, where no component holds a separator. -/
theorem components_join {cs : List (List UInt8)} (hcs : ∀ c ∈ cs, slash ∉ c)
    (hp : p.asBytes = Segments.join slash cs) (h : p.asBytes ≠ [slash]) : p.components = cs := by
  have hne : cs ≠ [] := by
    rintro rfl
    have hhead := p.head_asBytes
    rw [hp] at hhead
    cases hhead
  rw [components_of_ne h, hp, Segments.splitOn_join hcs hne]

/-- A component that a path may have: no separator, no zero byte, and none of the special ones. -/
structure Normal (c : List UInt8) : Prop where
  no_slash : slash ∉ c
  no_nul : (0 : UInt8) ∉ c
  not_special : isSpecialComponent c = false

/-- A component is not empty, since the empty one is special. -/
theorem Normal.ne_nil {c : List UInt8} (h : Normal c) : c ≠ [] := by
  rintro rfl
  cases h.not_special

/-- Every component of a path is one it may have. -/
theorem normal_of_mem {c : List UInt8} (hc : c ∈ p.components) : Normal c := by
  by_cases hroot : p.asBytes = [slash]
  · rw [components_root hroot] at hc
    cases hc
  · have hinfix : c <:+: p.asBytes := join_components hroot ▸ Segments.infix_join hc
    rw [components_of_ne hroot] at hc
    have hvalid := p.valid
    have hhead := p.head_asBytes
    have hlength : p.asBytes.length ≠ 1 := by
      intro h1
      obtain ⟨tail, htail⟩ := List.head?_eq_some_iff.mp hhead
      rw [htail] at h1 hroot
      cases tail with
      | nil => exact hroot rfl
      | cons a tail => simp at h1
    unfold validatePath at hvalid
    rw [if_neg (not_not.mpr hhead)] at hvalid
    split at hvalid
    · cases hvalid
    · rename_i hnul
      split at hvalid
      · cases hvalid
      · split at hvalid
        · cases hvalid
        · rename_i hspecial
          refine ⟨Segments.not_mem_of_mem_splitOn hc, fun h0 => hnul ?_, ?_⟩
          · rw [List.contains_iff_mem]
            exact hinfix.mem h0
          · rw [Bool.not_eq_true, List.any_eq_false] at hspecial
            simpa using hspecial c hc

/-- Normal components make a path: each rule of the validation is one of their properties. -/
theorem validatePath_join {cs : List (List UInt8)} (hcs : ∀ c ∈ cs, Normal c) (h : cs ≠ []) :
    validatePath (Segments.join slash cs) = .ok () := by
  obtain ⟨init, last, rfl⟩ : ∃ init last, cs = init ++ [last] :=
    ⟨cs.dropLast, cs.getLast h, (List.dropLast_concat_getLast h).symm⟩
  have hlast := hcs last (List.mem_append_right _ (List.mem_singleton_self _))
  have hnul : (0 : UInt8) ∉ Segments.join slash (init ++ [last]) := by
    intro h0
    obtain ⟨c, hc, h0⟩ := List.mem_flatMap.mp h0
    rcases List.mem_cons.mp h0 with h0 | h0
    · exact absurd h0 (by decide)
    · exact (hcs c hc).no_nul h0
  have hsplit := Segments.splitOn_join (fun c hc => (hcs c hc).no_slash) h
  have hhead : (Segments.join slash (init ++ [last])).head? = some slash := by
    rw [Segments.join_cons_eq h]
    rfl
  have hend : (Segments.join slash (init ++ [last])).getLast? ≠ some slash := by
    obtain ⟨byte, hbyte⟩ : ∃ byte, last.getLast? = some byte :=
      ⟨_, List.getLast?_eq_some_getLast hlast.ne_nil⟩
    rw [Segments.join_concat, List.append_cons, List.getLast?_append, hbyte, Option.some_or]
    intro he
    rw [Option.some.inj he] at hbyte
    exact hlast.no_slash (List.mem_of_getLast? hbyte)
  unfold validatePath
  rw [if_neg (not_not.mpr hhead), if_neg (by simpa using hnul)]
  split
  · rfl
  · have hspecial : (init ++ [last]).any isSpecialComponent = false := by
      rw [List.any_eq_false]
      intro c hc
      simpa using (hcs c hc).not_special
    rw [hsplit, hspecial]
    rfl

/-! ### Paths from components

The other direction builds paths: a list of normal components has a valid text, hence a
path, and `components_injective` makes statements about paths statements about lists of
names.  Parent and child are the operations that the rest of the program needs. -/

/-- The text of a path with the given components. -/
def text (cs : List (List UInt8)) : List UInt8 :=
  if cs = [] then [slash] else Segments.join slash cs

/-- The text of a path's components is the path. -/
theorem text_components (p : AbsolutePath) : text p.components = p.asBytes := by
  by_cases hroot : p.asBytes = [slash]
  · rw [components_root hroot, hroot]
    rfl
  · rw [text, if_neg (components_ne_nil hroot), join_components hroot]

/-- A text of at least one component is not the root. -/
theorem text_ne_root {cs : List (List UInt8)} (hcs : ∀ c ∈ cs, Normal c) (h : cs ≠ []) :
    text cs ≠ [slash] := by
  obtain ⟨c, rest, rfl⟩ := List.exists_cons_of_ne_nil h
  have hne := (hcs c List.mem_cons_self).ne_nil
  obtain ⟨byte, tail, rfl⟩ := List.exists_cons_of_ne_nil hne
  rw [text, if_neg h]
  simp [Segments.join]

/-- Normal components make a path, the root if there are none. -/
theorem validatePath_text {cs : List (List UInt8)} (hcs : ∀ c ∈ cs, Normal c) :
    validatePath (text cs) = .ok () := by
  by_cases h : cs = []
  · rw [h]
    rfl
  · rw [text, if_neg h]
    exact validatePath_join hcs h

/-- The path of the given components, each of which is a proper name. -/
def ofComponents (cs : List (List UInt8)) (hcs : ∀ c ∈ cs, Normal c) : AbsolutePath :=
  ⟨text cs, validatePath_text hcs⟩

/-- The path of the given components has them, so that a path can be built from its components. -/
@[simp] theorem components_ofComponents {cs : List (List UInt8)} (hcs : ∀ c ∈ cs, Normal c) :
    (ofComponents cs hcs).components = cs := by
  by_cases h : cs = []
  · subst h
    rfl
  · exact components_join (fun c hc => (hcs c hc).no_slash)
      (show text cs = _ by rw [text, if_neg h]) (text_ne_root hcs h)

/-- A path is its components: two paths with the same components are equal. -/
theorem components_injective : Function.Injective components := fun p q h => by
  apply asBytes_injective
  rw [← text_components, ← text_components, h]

/-- The directory a path stands in, which is the root for the root. -/
def parent (p : AbsolutePath) : AbsolutePath :=
  ofComponents p.components.dropLast fun _ hc => normal_of_mem (List.dropLast_subset _ hc)

/-- The path of a name in a directory. -/
def child (p : AbsolutePath) (name : List UInt8) (h : Normal name) : AbsolutePath :=
  ofComponents (p.components ++ [name]) fun _ hc =>
    (List.mem_append.mp hc).elim normal_of_mem fun hc => List.mem_singleton.mp hc ▸ h

/-- The parent has all the components but the last. -/
@[simp] theorem components_parent (p : AbsolutePath) :
    p.parent.components = p.components.dropLast := components_ofComponents _

/-- A child has one component more, which is its name. -/
@[simp] theorem components_child {name : List UInt8} (h : Normal name) :
    (p.child name h).components = p.components ++ [name] := components_ofComponents _

/-- A path below the root is its parent, a `/` and its last component. -/
theorem exists_leaf (h : p.asBytes ≠ [slash]) : ∃ leaf, Normal leaf ∧
    p.asBytes = Segments.join slash p.parent.components ++ slash :: leaf := by
  have hne := components_ne_nil h
  refine ⟨p.components.getLast hne, normal_of_mem (List.getLast_mem hne), ?_⟩
  rw [components_parent, ← Segments.join_concat, List.dropLast_concat_getLast,
    join_components h]

/-- How the text of a child is made from the text of the directory. -/
theorem asBytes_child {name : List UInt8} (h : Normal name) : (p.child name h).asBytes =
    (if p.asBytes = [slash] then p.asBytes else p.asBytes ++ [slash]) ++ name := by
  have hchild : (p.child name h).asBytes = Segments.join slash p.components ++ slash :: name := by
    rw [← Segments.join_concat]
    show text (p.components ++ [name]) = _
    rw [text, if_neg (by simp)]
  rw [hchild]
  by_cases hroot : p.asBytes = [slash]
  · rw [if_pos hroot, components_root hroot, hroot]
    rfl
  · rw [if_neg hroot, join_components hroot, List.append_assoc]
    rfl

end AbsolutePath
end Core
end ThinWorkspace
