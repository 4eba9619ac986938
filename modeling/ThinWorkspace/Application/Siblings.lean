/-
# The protected paths of a workspace

A workspace with target `P/leaf` protects the target and three siblings of it,
`P/.thinws-staging-ID`, `P/.thinws-trash-ID` and `P/.thinws-remove-ID`.  Here the
path checks of `ThinWorkspace.Application.Paths` are read in components:
`pathsOverlap` is the prefix order (`pathsOverlap_iff`), `activeWorkspaceProtectedPaths`
succeeds below the root with these four paths (`activeWorkspaceProtectedPaths_eq`),
and comparing the old paths with a new target is enough for all sixteen pairs
(`allApart_of_checked`).
-/

import ThinWorkspace.Application.Paths

namespace ThinWorkspace
namespace Application

open ThinWorkspace.Core Lib Ports

/-! ### Containment

The source compares bytes up to a separator; a proof compares lists of components.
`pathsOverlap_iff` is the bridge: two paths are apart exactly when neither list is a prefix
of the other. -/

variable {p q target : AbsolutePath}

/-- `path_contains` compares components: the one path is the other or lies above it.  The cases are
those of the source: the root contains everything, nothing but the root contains the root, and
otherwise the bytes of the one begin the other and a slash follows. -/
theorem pathContains_iff :
    pathContains p.asBytes q.asBytes = true ↔ p.components <+: q.components := by
  by_cases hp : p.asBytes = [slash]
  · rw [AbsolutePath.components_root hp]
    simp [pathContains, hp]
  by_cases hq : q.asBytes = [slash]
  · -- Nothing but the root contains the root.
    have hne := AbsolutePath.components_ne_nil hp
    have hlength : p.asBytes.length ≠ 0 := by
      intro h0
      have hhead := p.head_asBytes
      rw [List.length_eq_zero_iff.mp h0] at hhead
      cases hhead
    have hget : ([slash] : List UInt8)[p.asBytes.length]? = none :=
      List.getElem?_eq_none (by rw [List.length_singleton]; omega)
    rw [AbsolutePath.components_root hq, List.prefix_nil]
    simp [pathContains, hp, hq, hget, Ne.symm hp, hne]
  · simp only [pathContains, Bool.or_eq_true, beq_iff_eq, Bool.and_eq_true, hp, false_or,
      List.isPrefixOf_iff_prefix]
    constructor
    · rintro (he | ⟨⟨rest, hrest⟩, hnext⟩)
      · rw [AbsolutePath.asBytes_injective he]
      · rw [AbsolutePath.components_of_ne hp, AbsolutePath.components_of_ne hq, ← hrest]
        rw [← hrest, List.getElem?_append_right (Nat.le_refl _), Nat.sub_self] at hnext
        obtain ⟨tail, rfl⟩ := List.head?_eq_some_iff.mp
          (List.head?_eq_getElem? (l := rest) ▸ hnext)
        exact Segments.prefix_of_continues p.head_asBytes
    · rintro ⟨more, hmore⟩
      have hjoin : q.asBytes = p.asBytes ++ Segments.join slash more := by
        rw [← AbsolutePath.join_components hq, ← hmore, Segments.join_append,
          AbsolutePath.join_components hp]
      cases more with
      | nil => exact .inl (by simpa [Segments.join] using hjoin)
      | cons c more =>
        refine .inr ⟨⟨_, hjoin.symm⟩, ?_⟩
        rw [hjoin, List.getElem?_append_right (Nat.le_refl _), Nat.sub_self]
        rfl

/-- Neither path is the other or lies below it. -/
def Apart (p q : AbsolutePath) : Prop :=
  ¬p.components <+: q.components ∧ ¬q.components <+: p.components

/-- **The byte comparison is the component order.**  Two paths do not overlap exactly where neither
has the components of the other in front. -/
theorem pathsOverlap_iff : pathsOverlap p q = false ↔ Apart p q := by
  rw [pathsOverlap, Bool.or_eq_false_iff, Apart, ← pathContains_iff, ← pathContains_iff,
    Bool.not_eq_true, Bool.not_eq_true]

/-- Being apart does not depend on the order of the two paths. -/
theorem Apart.symm (h : Apart p q) : Apart q p := ⟨h.2, h.1⟩

/-! ### Names

The name of a sibling is one of three beginnings and the identifier of its workspace, of
fixed length, so names of two workspaces differ whatever their kinds. -/

/-- The bytes of a hexadecimal digit are neither a slash nor NUL. -/
theorem encode_hexDigit : ∀ d, slash ∉ String.utf8EncodeChar (hexDigit d) ∧
    (0 : UInt8) ∉ String.utf8EncodeChar (hexDigit d) := by
  decide

/-- The bytes of an identifier: its prefix and those of its digits and hyphens. -/
theorem asBytes_toText (id : WorkspaceId) : asBytes id.toText = asBytes "ws_" ++
    id.uuid.asUuid.hyphenatedChars.flatMap String.utf8EncodeChar := by
  rw [WorkspaceId.toText, UuidV7.toText, Uuid.hyphenated, asBytes_append,
    asBytes_ofList id.uuid.asUuid.hyphenatedChars]

/-- The text of an identifier has neither a `/` nor a NUL. The text is the prefix and the
hyphenated digits, and no character of either is encoded with these bytes. -/
theorem not_mem_toText (id : WorkspaceId) :
    slash ∉ asBytes id.toText ∧ (0 : UInt8) ∉ asBytes id.toText := by
  have hprefix : slash ∉ asBytes "ws_" ∧ (0 : UInt8) ∉ asBytes "ws_" := by decide
  have hdigits : ∀ c ∈ id.uuid.asUuid.hyphenatedChars,
      slash ∉ String.utf8EncodeChar c ∧ (0 : UInt8) ∉ String.utf8EncodeChar c := by
    intro c hc
    rcases Uuid.mem_hyphenatedChars hc with rfl | ⟨d, rfl⟩
    · decide
    · exact encode_hexDigit d
  rw [asBytes_toText]
  constructor
  · rw [List.mem_append, List.mem_flatMap]
    rintro (h | ⟨c, hc, h⟩)
    · exact hprefix.1 h
    · exact (hdigits c hc).1 h
  · rw [List.mem_append, List.mem_flatMap]
    rintro (h | ⟨c, hc, h⟩)
    · exact hprefix.2 h
    · exact (hdigits c hc).2 h

/-- An identifier has 39 bytes: the prefix and the canonical text. -/
theorem length_toText (id : WorkspaceId) : (asBytes id.toText).length = 39 := by
  have hdigit : ∀ d, (String.utf8EncodeChar (hexDigit d)).length = 1 := by decide
  have hone : ∀ c ∈ id.uuid.asUuid.hyphenatedChars, (String.utf8EncodeChar c).length = 1 := by
    intro c hc
    rcases Uuid.mem_hyphenatedChars hc with rfl | ⟨d, rfl⟩
    · rfl
    · exact hdigit d
  have hsum : (id.uuid.asUuid.hyphenatedChars.map fun c => (String.utf8EncodeChar c).length) =
      id.uuid.asUuid.hyphenatedChars.map fun _ => 1 := List.map_congr_left hone
  have hprefix : (asBytes "ws_").length = 3 := by decide
  rw [asBytes_toText, List.length_append, List.length_flatMap, hsum, hprefix]
  simp [Uuid.length_hyphenatedChars]

/-- How the names of the three siblings begin. -/
def siblingKinds : List String := [".thinws-staging-", ".thinws-trash-", ".thinws-remove-"]

/-- The names of the three siblings: staging, trash, and the isolated target. -/
def siblingNames (id : WorkspaceId) : List (List UInt8) :=
  [stagingName id, trashName id, isolatedName id]

/-- A sibling's name is one of the three beginnings with the identifier behind it. -/
theorem mem_siblingNames {id : WorkspaceId} {name : List UInt8} :
    name ∈ siblingNames id ↔ ∃ kind ∈ siblingKinds, name = asBytes kind ++ asBytes id.toText := by
  simp [siblingNames, siblingKinds, stagingName, trashName, isolatedName, asBytes_append]

/-- A sibling's name is a component: it has no separator and no zero byte, and is none of the
special ones.  Its length excludes `.` and `..`, and its bytes are those of the kind and of the
identifier. -/
theorem normal_siblingName {id : WorkspaceId} {name : List UInt8} (h : name ∈ siblingNames id) :
    AbsolutePath.Normal name := by
  obtain ⟨kind, hkind, rfl⟩ := mem_siblingNames.mp h
  have hbytes : ∀ kind ∈ siblingKinds, slash ∉ asBytes kind ∧ (0 : UInt8) ∉ asBytes kind ∧
      2 < (asBytes kind).length := by
    decide
  obtain ⟨hslash, hnul, hlength⟩ := hbytes kind hkind
  obtain ⟨hslash', hnul'⟩ := not_mem_toText id
  refine ⟨?_, ?_, ?_⟩
  · rw [List.mem_append]
    exact not_or.mpr ⟨hslash, hslash'⟩
  · rw [List.mem_append]
    exact not_or.mpr ⟨hnul, hnul'⟩
  · -- The names the source refuses have at most two bytes.
    have hlong : ∀ c : List UInt8, 2 < c.length → isSpecialComponent c = false := by
      intro c hc
      simp only [isSpecialComponent, Bool.or_eq_false_iff, beq_eq_false_iff_ne]
      refine ⟨⟨?_, ?_⟩, ?_⟩
      all_goals
        rintro rfl
        simp at hc
    exact hlong _ (by rw [List.length_append]; omega)

/-- The identifier stands in every one of its names. -/
theorem infix_siblingName {id : WorkspaceId} {name : List UInt8} (h : name ∈ siblingNames id) :
    asBytes id.toText <:+: name := by
  obtain ⟨kind, -, rfl⟩ := mem_siblingNames.mp h
  exact (List.suffix_append _ _).isInfix

/-- **Names of two workspaces differ**, whatever their kinds: the last 39 bytes of a sibling's name
are the identifier. -/
theorem siblingName_unique {a b : WorkspaceId} {name : List UInt8} (ha : name ∈ siblingNames a)
    (hb : name ∈ siblingNames b) : a = b := by
  obtain ⟨kind, -, rfl⟩ := mem_siblingNames.mp ha
  obtain ⟨kind', -, he⟩ := mem_siblingNames.mp hb
  have hlength : (asBytes a.toText).length = (asBytes b.toText).length := by
    rw [length_toText, length_toText]
  have htext := List.append_inj_right' he hlength
  exact WorkspaceId.toText_injective (asBytes_text_injective htext)

/-! ### Derived paths

The functions that derive paths from bytes, in terms of components: the parent of a target
and a sibling beside it. -/

/-- The last `/` of a path below the root stands right before the last component. -/
theorem lastSlash_asBytes {leaf : List UInt8} (hleaf : slash ∉ leaf) {init : List UInt8}
    (h : target.asBytes = init ++ slash :: leaf) :
    lastSlash target.asBytes = some init.length := by
  have hlength : (init ++ slash :: leaf).length - 1 - leaf.length = init.length := by
    rw [List.length_append, List.length_cons]
    omega
  rw [lastSlash, h, Segments.findIdx?_reverse hleaf, Option.map_some, hlength]

/-- What is left of the last `/` is the parent, or the root where nothing is. -/
theorem asBytes_parent (hroot : target.asBytes ≠ [slash]) : ∃ init leaf, slash ∉ leaf ∧
    target.asBytes = init ++ slash :: leaf ∧
    target.parent.asBytes = if init.length = 0 then [slash] else init := by
  obtain ⟨leaf, hleaf, hbytes⟩ := AbsolutePath.exists_leaf hroot
  refine ⟨_, leaf, hleaf.no_slash, hbytes, ?_⟩
  rw [← AbsolutePath.text_components target.parent, AbsolutePath.text]
  by_cases hempty : target.parent.components = []
  · rw [if_pos hempty, hempty]
    rfl
  · have hne : (Segments.join slash target.parent.components).length ≠ 0 := by
      rw [Ne, List.length_eq_zero_iff]
      exact Segments.join_ne_nil hempty
    rw [if_neg hempty, if_neg hne]

/-- The root has no parent that a target could have. -/
theorem targetParent_root (h : target.asBytes = [slash]) : ∃ e, targetParent target = .error e :=
  ⟨_, if_pos h⟩

/-- **The parent the application computes** is the path without its last component. -/
theorem targetParent_eq (h : target.asBytes ≠ [slash]) :
    targetParent target = .ok target.parent := by
  obtain ⟨init, leaf, hleaf, hbytes, hparent⟩ := asBytes_parent h
  have hslash := lastSlash_asBytes hleaf hbytes
  have htake : target.asBytes.take init.length = init := by
    rw [hbytes]
    exact List.take_left
  unfold targetParent
  simp only [if_neg h, hslash, Option.getD_some, htake, ← hparent,
    AbsolutePath.tryFromBytes_asBytes]
  rfl

/-- **The sibling the application computes** is the path with the one component added. -/
theorem derivedPath_single {name : List UInt8} (h : AbsolutePath.Normal name) :
    derivedPath p [name] = .ok (p.child name h) := by
  unfold derivedPath
  simp only [List.foldl_cons, List.foldl_nil, ← AbsolutePath.asBytes_child h,
    AbsolutePath.tryFromBytes_asBytes]
  rfl

/-- The paths that belong to a workspace: its target, and the three siblings beside it. -/
def protectedPaths (target : AbsolutePath) (id : WorkspaceId) : List AbsolutePath :=
  target :: (siblingNames id).attach.map fun name =>
    target.parent.child name.1 (normal_siblingName name.2)

/-- The protected paths are the target and its three siblings. -/
theorem mem_protectedPaths {id : WorkspaceId} : p ∈ protectedPaths target id ↔
    p = target ∨ ∃ name, ∃ h : name ∈ siblingNames id,
      p = target.parent.child name (normal_siblingName h) := by
  simp [protectedPaths, eq_comm]

/-- A target at the root has no protected paths. -/
theorem activeWorkspaceProtectedPaths_root {reservation : WorkspaceReservation}
    (h : reservation.targetPath.asBytes = [slash]) :
    ∃ e, activeWorkspaceProtectedPaths reservation = .error e := by
  obtain ⟨e, he⟩ := targetParent_root h
  exact ⟨e, by rw [activeWorkspaceProtectedPaths, he]; rfl⟩

/-- **The protected paths the application computes** are the target and its three siblings, in this
order. -/
theorem activeWorkspaceProtectedPaths_eq {reservation : WorkspaceReservation}
    (h : reservation.targetPath.asBytes ≠ [slash]) :
    activeWorkspaceProtectedPaths reservation =
      .ok (protectedPaths reservation.targetPath reservation.workspaceId) := by
  have hstaging : stagingName reservation.workspaceId ∈ siblingNames reservation.workspaceId := by
    simp [siblingNames]
  have htrash : trashName reservation.workspaceId ∈ siblingNames reservation.workspaceId := by
    simp [siblingNames]
  have hisolated : isolatedName reservation.workspaceId ∈
      siblingNames reservation.workspaceId := by
    simp [siblingNames]
  unfold activeWorkspaceProtectedPaths provisionalMaterializationPaths
  rw [targetParent_eq h]
  simp only [bind, Except.bind, derivedPath_single (normal_siblingName hstaging),
    derivedPath_single (normal_siblingName htrash),
    derivedPath_single (normal_siblingName hisolated)]
  rfl

/-! ### Disjointness

Comparing the new target with the four paths of an old workspace is enough for all four of
the new one to be apart from them, where the new identifier does not occur in the old
target. -/

/-- None of the paths of one workspace is, or lies below, one of the other's. -/
def AllApart (target : AbsolutePath) (id : WorkspaceId) (target' : AbsolutePath)
    (id' : WorkspaceId) : Prop :=
  ∀ p ∈ protectedPaths target id, ∀ q ∈ protectedPaths target' id', Apart p q

/-- Being apart with all siblings does not depend on the order. -/
theorem AllApart.symm {target' : AbsolutePath} {id id' : WorkspaceId}
    (h : AllApart target id target' id') : AllApart target' id' target id :=
  fun p hp q hq => (h q hq p hp).symm

/-- A component stands in the path, between two separators or at its end. -/
theorem infix_of_mem_components {c : List UInt8} (h : c ∈ p.components) : c <:+: p.asBytes := by
  by_cases hroot : p.asBytes = [slash]
  · rw [AbsolutePath.components_root hroot] at h
    cases h
  · rw [← AbsolutePath.join_components hroot]
    exact Segments.infix_join h

/-- What the comparison with the active rows says of each of them.  The induction is on the rows:
the loop fails at the first overlap. -/
theorem requireNoActiveWorkspacePathOverlap_ok {active : List WorkspaceRecord}
    (h : requireNoActiveWorkspacePathOverlap target active = .ok ()) :
    ∀ record ∈ active,
      ∀ p ∈ protectedPaths record.reservation.targetPath record.reservation.workspaceId,
        Apart p target := by
  induction active with
  | nil => exact fun _ hrecord => absurd hrecord List.not_mem_nil
  | cons record active ih =>
    unfold requireNoActiveWorkspacePathOverlap at h
    obtain ⟨paths, hpaths, h⟩ := Fallible.bind_ok h
    have hroot : record.reservation.targetPath.asBytes ≠ [slash] := by
      intro hroot
      obtain ⟨e, he⟩ := activeWorkspaceProtectedPaths_root hroot
      rw [he] at hpaths
      cases hpaths
    rw [activeWorkspaceProtectedPaths_eq hroot] at hpaths
    obtain rfl := Except.ok.inj hpaths
    split at h
    · cases h
    · rename_i hoverlap
      rw [Bool.not_eq_true, List.any_eq_false] at hoverlap
      intro other hother p hp
      rcases List.mem_cons.mp hother with rfl | hother
      · exact pathsOverlap_iff.mp (Bool.eq_false_iff.mpr (hoverlap p hp))
      · exact ih h other hother p hp

/-- The parent of a path is above it, in the order of the components. -/
theorem parent_above (p : AbsolutePath) : p.parent.components <+: p.components := by
  rw [AbsolutePath.components_parent]
  exact List.dropLast_prefix _

/-- **The check against the target alone is enough** when the new identifier is
in no component of the old target: what lies above a new sibling lies above the
new target or is the sibling, and the sibling's name is in no old path. -/
theorem allApart_of_checked {target' : AbsolutePath} {id id' : WorkspaceId} (hne : id ≠ id')
    (hchecked : ∀ p ∈ protectedPaths target id, Apart p target')
    (hfresh : ¬asBytes id'.toText <:+: target.asBytes) : AllApart target id target' id' := by
  intro p hp q hq
  rcases mem_protectedPaths.mp hq with rfl | ⟨name', hname', rfl⟩
  · exact hchecked p hp
  -- The sibling's name is no component of the old target.
  have hnot : name' ∉ target.components := fun h =>
    hfresh ((infix_siblingName hname').trans (infix_of_mem_components h))
  -- Whatever lies above the new sibling's directory lies above the new target.
  have habove : ¬p.components <+: target'.parent.components := fun h =>
    (hchecked p hp).1 (h.trans (parent_above target'))
  have hlast : name' ∈ target'.parent.components ++ [name'] := by simp
  rw [Apart, AbsolutePath.components_child]
  rcases mem_protectedPaths.mp hp with rfl | ⟨name, hname, rfl⟩
  · constructor
    · intro h
      rcases List.prefix_concat_iff.mp h with h | h
      · exact hnot (h ▸ hlast)
      · exact habove h
    · intro h
      exact hnot (h.subset hlast)
  · rw [AbsolutePath.components_child] at habove ⊢
    have hnames : target.parent.components ++ [name] ≠ target'.parent.components ++ [name'] := by
      intro h
      obtain ⟨-, h⟩ := List.append_inj' h rfl
      obtain rfl : name = name' := by simpa using h
      exact hne (siblingName_unique hname hname')
    constructor
    · intro h
      rcases List.prefix_concat_iff.mp h with h | h
      · exact hnames h
      · exact habove h
    · intro h
      rcases List.prefix_concat_iff.mp h with h | h
      · exact hnames h.symm
      · exact hnot ((parent_above target).subset (h.subset hlast))

end Application
end ThinWorkspace
