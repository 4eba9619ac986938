/-
# Where a reference leads

Source: `resolve_internal_reference` and what it calls in
`crates/thinws-adapter-git-cli/src/git_query/inspect.rs`, beside the kernel's own walk of
the same bytes, which follows links (`Walk`).

`traverse_walk` is the loop: what it opens is what the kernel walks, up to the last
component that is not `.`.  `resolveInternalReference_contained` is the result for every
reference; `trailing_dot_follows_link` is why a `.` at the end has to be left out.
-/

import ThinWorkspace.Git.Reference

namespace ThinWorkspace
namespace Git

open ThinWorkspace.Core Ports Lib.Fallible

/-! ### The kernel's walk

The kernel's own way through a tree, from the bytes of a path: it enters directories and
follows links.  It is a relation, and it is deterministic (`Walk.unique`). -/

/-- What a step of a walk goes through: a directory it enters, or a symbolic link it follows. -/
inductive Visit where
  | directory (path : List (List UInt8))
  | symlink (path : List (List UInt8))
deriving DecidableEq

/-- The kernel walks the parts of a path from a directory; a link is followed from the
directory it stands in, or from the root. -/
inductive Walk (tree : FileTree) :
    List (List UInt8) → List (List UInt8) → List Visit → List (List UInt8) → Prop
  | nil {dir} : Walk tree dir [] [] dir
  | current {dir parts visits last} (hrest : Walk tree dir parts visits last) :
      Walk tree dir (dot :: parts) visits last
  | up {dir parts visits last} (hrest : Walk tree dir.dropLast parts visits last) :
      Walk tree dir (dotDot :: parts) (.directory dir.dropLast :: visits) last
  | enter {dir name parts visits last} (hname : name ≠ dot ∧ name ≠ dotDot)
      (hentry : tree.entry (dir ++ [name]) = some .directory)
      (hrest : Walk tree (dir ++ [name]) parts visits last) :
      Walk tree dir (name :: parts) (.directory (dir ++ [name]) :: visits) last
  | follow {dir name target parts visits visits' next last} (hname : name ≠ dot ∧ name ≠ dotDot)
      (hentry : tree.entry (dir ++ [name]) = some (.symlink target))
      (htarget : Walk tree (if isAbsolute target then [] else dir) (kernelComponents target)
        visits next)
      (hrest : Walk tree next parts visits' last) :
      Walk tree dir (name :: parts) (.symlink (dir ++ [name]) :: (visits ++ visits')) last

/-- The entry that the last part of a walk names in the directory the walk came to. -/
def lastEntry (dir : List (List UInt8)) (part : List UInt8) : List (List UInt8) :=
  if part = dot then dir else if part = dotDot then dir.dropLast else dir ++ [part]

/-- The parts of a path name an entry: all but the last part are walked. -/
inductive Names (tree : FileTree) (start : List (List UInt8)) :
    List (List UInt8) → List Visit → List (List UInt8) → Prop
  | nothing : Names tree start [] [] start
  | part {front part visits dir} (hwalk : Walk tree start front visits dir) :
      Names tree start (front ++ [part]) visits (lastEntry dir part)

/-- A real directory at or below the copy root. -/
def Inside (root : List (List UInt8)) (visit : Visit) : Prop :=
  ∃ path, visit = .directory path ∧ root <+: path

/-- Once a walk has come inside, it stays there. -/
def StaysInside (root : List (List UInt8)) (visits : List Visit) : Prop :=
  ∀ before visit after, visits = before ++ visit :: after → Inside root visit →
    ∀ later ∈ after, Inside root later

variable {tree : FileTree} {root dir last position final : List (List UInt8)}
  {parts : List (List UInt8)} {visits : List Visit} {directories : List (List (List UInt8))}

/-- Two walks, one from where the other ended, are one. -/
theorem Walk.append {parts' : List (List UInt8)} {visits' : List Visit}
    {middle : List (List UInt8)} (h : Walk tree dir parts visits middle)
    (h' : Walk tree middle parts' visits' last) :
    Walk tree dir (parts ++ parts') (visits ++ visits') last := by
  induction h with
  | nil => exact h'
  | current _ ih => exact .current (ih h')
  | up _ ih => exact .up (ih h')
  | enter hname hentry _ ih => exact .enter hname hentry (ih h')
  | follow hname hentry htarget _ _ ih =>
    rw [List.cons_append, List.cons_append, List.append_assoc]
    exact .follow hname hentry htarget (ih h')

/-- **The kernel has one way to go**: the bytes of a path and the tree decide what is visited and
where it ends.  The induction is on the walk: the next component and the entry of the tree under it
admit one rule each. -/
theorem Walk.unique {visits' : List Visit} {last' : List (List UInt8)}
    (h : Walk tree dir parts visits last) (h' : Walk tree dir parts visits' last') :
    visits' = visits ∧ last' = last := by
  induction h generalizing visits' last' with
  | nil =>
    cases h'
    exact ⟨rfl, rfl⟩
  | current _ ih =>
    cases h' with
    | current h' => exact ih h'
    | enter hname => exact absurd rfl hname.1
    | follow hname => exact absurd rfl hname.1
  | up _ ih =>
    cases h' with
    | up h' =>
      obtain ⟨rfl, rfl⟩ := ih h'
      exact ⟨rfl, rfl⟩
    | enter hname => exact absurd rfl hname.2
    | follow hname => exact absurd rfl hname.2
  | enter hname hentry _ ih =>
    cases h' with
    | current => exact absurd rfl hname.1
    | up => exact absurd rfl hname.2
    | enter _ _ h' =>
      obtain ⟨rfl, rfl⟩ := ih h'
      exact ⟨rfl, rfl⟩
    | follow _ hentry' =>
      rw [hentry] at hentry'
      cases hentry'
  | follow hname hentry _ _ iht ih =>
    cases h' with
    | current => exact absurd rfl hname.1
    | up => exact absurd rfl hname.2
    | enter _ hentry' =>
      rw [hentry] at hentry'
      cases hentry'
    | follow _ hentry' htarget' h' =>
      rw [hentry] at hentry'
      cases hentry'
      obtain ⟨rfl, rfl⟩ := iht htarget'
      obtain ⟨rfl, rfl⟩ := ih h'
      exact ⟨rfl, rfl⟩

/-- A path names one place, by one way.  A path of no component names its start; any other splits
into a front, whose walk is unique, and its last component. -/
theorem Names.unique {visits' : List Visit} {path path' : List (List UInt8)}
    (h : Names tree dir parts visits path) (h' : Names tree dir parts visits' path') :
    visits' = visits ∧ path' = path := by
  cases h with
  | nothing =>
    generalize hparts : ([] : List (List UInt8)) = parts at h'
    cases h' with
    | nothing => exact ⟨rfl, rfl⟩
    | part hwalk => simp at hparts
  | @part front part _ _ hwalk =>
    generalize hparts : front ++ [part] = parts at h'
    cases h' with
    | nothing => simp at hparts
    | part hwalk' =>
      obtain ⟨rfl, hpart⟩ := List.append_inj' hparts rfl
      cases hpart
      obtain ⟨rfl, rfl⟩ := hwalk.unique hwalk'
      exact ⟨rfl, rfl⟩

/-! ### The loops of the code

The code holds one directory for every name of its position, so that a `..` leads back to
the directory it came from, not to wherever that directory has been moved. -/

/-- The held directories: one for every prefix of the position below the copy root. -/
inductive Held (root : List (List UInt8)) : List (List UInt8) → List (List (List UInt8)) → Prop
  | root : Held root [] [root]
  | push {position directories name} (h : Held root position directories) :
      Held root (position ++ [name]) (directories ++ [root ++ position ++ [name]])

/-- The last directory that is held is the one at the position. -/
theorem Held.getLast (h : Held root position directories) :
    directories.getLastD [] = root ++ position := by
  cases h with
  | root => simp
  | push => simp

/-- Leaving the last directory holds its parent, which is still open. -/
theorem Held.pop (h : Held root position directories) (hne : position ≠ []) :
    Held root position.dropLast directories.dropLast := by
  cases h with
  | root => exact absurd rfl hne
  | push h => simpa using h

/-- A step into a held directory opens the entry of that name, which is a directory and no link. -/
theorem Held.open {name : List UInt8} {next : List (List UInt8)}
    (h : Held root position directories)
    (hopen : tree.openDirectoryAt (directories.getLastD []) name = some next) :
    Held root (position ++ [name]) (directories ++ [next]) ∧
      tree.entry (root ++ (position ++ [name])) = some .directory := by
  rw [h.getLast] at hopen
  obtain ⟨rfl, hentry⟩ := FileTree.openDirectoryAt_some hopen
  rw [List.append_assoc] at hentry
  exact ⟨h.push, hentry⟩

/-- The directories of the base are held, and its components are names.  The induction is on the
components of the base: each is opened below the directory that is held, which keeps the holding
and adds its name. -/
theorem descend_held {base : List Component} {held : List (List (List UInt8))}
    (h : descend tree directories position base = .ok (held, final))
    (hheld : Held root position directories)
    (hentry : tree.entry (root ++ position) = some .directory) :
    Held root final held ∧ tree.entry (root ++ final) = some .directory ∧
      ∃ names, base = names.map .normal ∧ final = position ++ names := by
  induction base generalizing directories position with
  | nil =>
    cases h
    exact ⟨hheld, hentry, [], by simp⟩
  | cons component base ih =>
    cases component with
    | normal name =>
      rw [descend] at h
      split at h
      · cases h
      · rename_i next hnext
        obtain ⟨hnextHeld, hnextEntry⟩ := hheld.open hnext
        obtain ⟨hfinal, hfinalEntry, names, rfl, rfl⟩ := ih h hnextHeld hnextEntry
        exact ⟨hfinal, hfinalEntry, name :: names, by simp⟩
    | rootDir => cases h
    | curDir => cases h
    | parentDir => cases h

/-! ### A `.` at the end

The code opens directories that are no links, and the kernel enters the same ones; where the
last part of a reference is a `.`, the code drops it, while the kernel does not. -/

/-- The parts of a path without the `.` at its end. -/
def trimDots : List (List UInt8) → List (List UInt8)
  | [] => []
  | part :: parts => if trimDots parts = [] ∧ part = dot then [] else part :: trimDots parts

/-- The parts the kernel gets from a path: names, `.` and `..`. -/
def Parts (parts : List (List UInt8)) : Prop :=
  ∀ part ∈ parts, IsName part ∨ part = dot ∨ part = dotDot

/-- Nothing is left of a path exactly if it has only components that lead nowhere. -/
theorem trimDots_eq_nil_iff (hparts : Parts parts) :
    trimDots parts = [] ↔ parts.filterMap parseSingleComponent = [] := by
  induction parts with
  | nil => simp [trimDots]
  | cons part parts ih =>
    have hrest := ih fun part hpart => hparts part (List.mem_cons_of_mem _ hpart)
    rcases hparts part List.mem_cons_self with hname | rfl | rfl
    · simp [trimDots, parseSingleComponent_name hname, hname.ne_dot]
    · simp [trimDots, parseSingleComponent_dot, hrest]
    · simp [trimDots, parseSingleComponent_dotDot, show dotDot ≠ dot by decide]

/-- The parts of two paths without the dots at the end of the whole. -/
theorem trimDots_append {parts' : List (List UInt8)} : trimDots (parts ++ parts') =
    if trimDots parts' = [] then trimDots parts else parts ++ trimDots parts' := by
  induction parts with
  | nil =>
    by_cases h : trimDots parts' = [] <;> simp [trimDots, h]
  | cons part parts ih =>
    rw [List.cons_append, trimDots, ih]
    by_cases h : trimDots parts' = []
    · simp [h, trimDots]
    · simp [h]

/-- Proper names have no dots to leave out. -/
theorem trimDots_names (h : ∀ name ∈ parts, IsName name) : trimDots parts = parts := by
  induction parts with
  | nil => rfl
  | cons name parts ih =>
    rw [trimDots, ih fun name hname => h name (List.mem_cons_of_mem _ hname),
      if_neg fun hc => (h name List.mem_cons_self).ne_dot hc.2]

/-- One more part in front of a walk that names a place. -/
theorem Names.cons {dir' path : List (List UInt8)} {part : List UInt8} (visits' : List Visit)
    (hstep : ∀ {parts visits last}, Walk tree dir' parts visits last →
      Walk tree dir (part :: parts) (visits' ++ visits) last)
    (h : Names tree dir' parts visits path) (hne : parts ≠ []) :
    Names tree dir (part :: parts) (visits' ++ visits) path := by
  cases h with
  | nothing => exact absurd rfl hne
  | part hwalk =>
    rw [← List.cons_append]
    exact .part (hstep hwalk)

/-- No part at all names the directory itself. -/
theorem Names.eq_of_nil {path : List (List UInt8)} (h : Names tree dir parts visits path)
    (hnil : parts = []) : path = dir ∧ visits = [] := by
  cases h with
  | nothing => exact ⟨rfl, rfl⟩
  | part => simp at hnil

/-- **What the code opens is what the kernel walks.**  From a held position, the loops of the code
and the kernel's walk name the same entry, and the walk stays inside.  The induction is on the
components of the bytes, which for the code are parsed and for the kernel are not: a name is opened
by both, `.` moves neither, and `..` goes back to a directory that is held. -/
theorem traverse_walk (hparts : Parts parts)
    (htraverse : traverse tree directories position
      (parts.filterMap parseSingleComponent) = .ok ())
    (hnormal : normalize position (parts.filterMap parseSingleComponent) = .ok final)
    (hheld : Held root position directories)
    (hentry : tree.entry (root ++ position) = some .directory) :
    (∃ visits, Names tree (root ++ position) (trimDots parts) visits (root ++ final) ∧
      ∀ visit ∈ visits, Inside root visit) ∧
      tree.entry (root ++ final.dropLast) = some .directory := by
  induction parts generalizing directories position with
  | nil =>
    cases hnormal
    exact ⟨⟨[], .nothing, by simp⟩, FileTree.directory_dropLast hentry⟩
  | cons part parts ih =>
    have hrest : Parts parts := fun part hpart => hparts part (List.mem_cons_of_mem _ hpart)
    rcases hparts part List.mem_cons_self with hname | rfl | rfl
    · rw [List.filterMap_cons_some (parseSingleComponent_name hname)] at htraverse hnormal
      rw [traverse] at htraverse
      rw [normalize] at hnormal
      have hkeep : trimDots (part :: parts) = part :: trimDots parts := by
        rw [trimDots, if_neg fun hc => hname.ne_dot hc.2]
      rw [hkeep]
      split at htraverse
      · rename_i hnil
        rw [hnil] at hnormal
        cases hnormal
        rw [(trimDots_eq_nil_iff hrest).mpr hnil, List.dropLast_concat, ← List.append_assoc]
        refine ⟨⟨[], ?_, by simp⟩, hentry⟩
        have hlast : lastEntry (root ++ position) part = root ++ position ++ [part] := by
          rw [lastEntry, if_neg hname.ne_dot, if_neg hname.ne_dotDot]
        rw [← hlast]
        exact .part .nil
      · rename_i hne
        split at htraverse
        · cases htraverse
        · rename_i next hnext
          obtain ⟨hnextHeld, hnextEntry⟩ := hheld.open hnext
          obtain ⟨⟨visits, hnames, hinside⟩, hfinal⟩ :=
            ih hrest htraverse hnormal hnextHeld hnextEntry
          rw [← List.append_assoc] at hnames hnextEntry
          refine ⟨⟨.directory (root ++ position ++ [part]) :: visits, ?_, ?_⟩, hfinal⟩
          · refine Names.cons [.directory (root ++ position ++ [part])] (fun hwalk => ?_) hnames
              fun hc => hne ((trimDots_eq_nil_iff hrest).mp hc)
            exact .enter ⟨hname.ne_dot, hname.ne_dotDot⟩ hnextEntry hwalk
          · refine List.forall_mem_cons.mpr ⟨⟨_, rfl, ?_⟩, hinside⟩
            rw [List.append_assoc]
            exact List.prefix_append _ _
    · rw [List.filterMap_cons_none parseSingleComponent_dot] at htraverse hnormal
      obtain ⟨⟨visits, hnames, hinside⟩, hfinal⟩ := ih hrest htraverse hnormal hheld hentry
      refine ⟨⟨visits, ?_, hinside⟩, hfinal⟩
      rw [trimDots]
      split
      · rename_i hnil
        rwa [hnil.1] at hnames
      · rename_i hne
        exact Names.cons [] (fun hwalk => .current hwalk) hnames fun hc => hne ⟨hc, rfl⟩
    · rw [List.filterMap_cons_some parseSingleComponent_dotDot] at htraverse hnormal
      rw [traverse] at htraverse
      rw [normalize] at hnormal
      split at htraverse
      · cases htraverse
      · rename_i hne
        rw [if_neg hne] at hnormal
        have hup : (root ++ position).dropLast = root ++ position.dropLast :=
          List.dropLast_append_of_ne_nil hne
        have hupEntry := FileTree.directory_dropLast hentry
        obtain ⟨⟨visits, hnames, hinside⟩, hfinal⟩ :=
          ih hrest htraverse hnormal (hheld.pop hne) hupEntry
        have hkeep : trimDots (dotDot :: parts) = dotDot :: trimDots parts := by
          rw [trimDots, if_neg fun hc => absurd hc.2 (by decide)]
        rw [hkeep]
        by_cases hnil : trimDots parts = []
        · obtain ⟨hpath, hvisits⟩ := hnames.eq_of_nil hnil
          refine ⟨⟨[], ?_, by simp⟩, hfinal⟩
          have hlast : lastEntry (root ++ position) dotDot = root ++ final := by
            rw [lastEntry, if_neg (by decide), if_pos rfl, hup, hpath]
          rw [hnil, ← hlast]
          exact .part .nil
        · refine ⟨⟨.directory (root ++ position).dropLast :: visits, ?_, ?_⟩, hfinal⟩
          · rw [← hup] at hnames
            exact Names.cons [.directory (root ++ position).dropLast] (fun hwalk => .up hwalk)
              hnames hnil
          · refine List.forall_mem_cons.mpr ⟨⟨_, rfl, ?_⟩, hinside⟩
            rw [hup]
            exact List.prefix_append _ _

/-- Normalizing proper names yields proper names.  The induction is on the components: a name is
appended, and `..` only drops one. -/
theorem normalize_isName {comps : List Component} (h : normalize position comps = .ok final)
    (hposition : ∀ name ∈ position, IsName name)
    (hcomps : ∀ name, .normal name ∈ comps → IsName name) : ∀ name ∈ final, IsName name := by
  induction comps generalizing position with
  | nil =>
    cases h
    exact hposition
  | cons component comps ih =>
    have hrest : ∀ name, .normal name ∈ comps → IsName name :=
      fun name hname => hcomps name (List.mem_cons_of_mem _ hname)
    cases component with
    | normal name =>
      refine ih h (fun other hother => ?_) hrest
      rcases List.mem_append.mp hother with hother | hother
      · exact hposition other hother
      · exact List.mem_singleton.mp hother ▸ hcomps name List.mem_cons_self
    | curDir => exact ih h hposition hrest
    | parentDir =>
      rw [normalize] at h
      split at h
      · cases h
      · exact ih h (fun name hname => hposition name (List.dropLast_subset _ hname)) hrest
    | rootDir => cases h

/-! ### Down to the copy root

The copy root is opened from the root of the file system, name by name, so the way to it
passes no link. -/

/-- The directories on the way down from a directory. -/
def along (dir : List (List UInt8)) : List (List UInt8) → List Visit
  | [] => []
  | name :: names => .directory (dir ++ [name]) :: along (dir ++ [name]) names

/-- The directories along two lists of names are those along the one and then those along the
other. -/
theorem along_append {names names' : List (List UInt8)} :
    along dir (names ++ names') = along dir names ++ along (dir ++ names) names' := by
  induction names generalizing dir with
  | nil => simp [along]
  | cons name names ih => simp [along, ih]

/-- What is passed on the way down is not below the last directory. -/
theorem length_along {names : List (List UInt8)} {visit : Visit} (h : visit ∈ along dir names) :
    ∃ path, visit = .directory path ∧ path.length ≤ (dir ++ names).length := by
  induction names generalizing dir with
  | nil => cases h
  | cons name names ih =>
    rcases List.mem_cons.mp h with rfl | h
    · exact ⟨_, rfl, by simp⟩
    · obtain ⟨path, rfl, hlength⟩ := ih h
      refine ⟨path, rfl, ?_⟩
      simp only [List.length_append, List.length_cons, List.length_nil] at hlength ⊢
      omega

/-- Names of directories are walked down, one directory for each.  The induction is on the
components of the bytes, among which only the names and `.` occur. -/
theorem walk_along {names : List (List UInt8)} (hparts : Parts parts)
    (hnames : parts.filterMap parseSingleComponent = names.map .normal)
    (hentry : tree.entry (dir ++ names) = some .directory) :
    Walk tree dir parts (along dir names) (dir ++ names) := by
  induction parts generalizing dir names with
  | nil =>
    obtain rfl : names = [] := by simpa using hnames.symm
    simpa [along] using Walk.nil
  | cons part parts ih =>
    have hrest : Parts parts := fun part hpart => hparts part (List.mem_cons_of_mem _ hpart)
    rcases hparts part List.mem_cons_self with hname | rfl | rfl
    · rw [List.filterMap_cons_some (parseSingleComponent_name hname)] at hnames
      match names, hnames with
      | name :: names, hnames =>
        obtain ⟨hpart, htail⟩ := List.cons.inj hnames
        cases hpart
        rw [List.append_cons] at hentry ⊢
        exact .enter ⟨hname.ne_dot, hname.ne_dotDot⟩ (FileTree.directory_prefix hentry)
          (ih hrest htail hentry)
    · rw [List.filterMap_cons_none parseSingleComponent_dot] at hnames
      exact .current (ih hrest hnames hentry)
    · rw [List.filterMap_cons_some parseSingleComponent_dotDot] at hnames
      match names, hnames with
      | name :: names, hnames => cases (List.cons.inj hnames).1

/-- Names name the entry at the end of the way down.  The induction is on the components of the
bytes.  The last name is looked up and not entered, so the directories on the way are those of all
names but the last. -/
theorem names_along {names : List (List UInt8)} (hparts : Parts parts)
    (hnames : parts.filterMap parseSingleComponent = names.map .normal)
    (hentry : tree.entry (dir ++ names.dropLast) = some .directory) :
    Names tree dir (trimDots parts) (along dir names.dropLast) (dir ++ names) := by
  induction parts generalizing dir names with
  | nil =>
    obtain rfl : names = [] := by simpa using hnames.symm
    simpa [along, trimDots] using Names.nothing
  | cons part parts ih =>
    have hrest : Parts parts := fun part hpart => hparts part (List.mem_cons_of_mem _ hpart)
    rcases hparts part List.mem_cons_self with hname | rfl | rfl
    · rw [List.filterMap_cons_some (parseSingleComponent_name hname)] at hnames
      match names, hnames with
      | name :: names, hnames =>
        obtain ⟨hpart, htail⟩ := List.cons.inj hnames
        cases hpart
        rw [trimDots, if_neg fun hc => hname.ne_dot hc.2]
        cases names with
        | nil =>
          rw [(trimDots_eq_nil_iff hrest).mpr htail]
          have hlast : lastEntry dir part = dir ++ [part] := by
            rw [lastEntry, if_neg hname.ne_dot, if_neg hname.ne_dotDot]
          rw [← hlast]
          exact .part .nil
        | cons second names =>
          rw [List.dropLast_cons_cons, List.append_cons] at hentry
          rw [List.dropLast_cons_cons, List.append_cons]
          have hne : trimDots parts ≠ [] := by
            rw [Ne, trimDots_eq_nil_iff hrest, htail]
            exact List.cons_ne_nil _ _
          exact Names.cons [.directory (dir ++ [part])]
            (fun hwalk => .enter ⟨hname.ne_dot, hname.ne_dotDot⟩
              (FileTree.directory_prefix hentry) hwalk) (ih hrest htail hentry) hne
    · rw [List.filterMap_cons_none parseSingleComponent_dot] at hnames
      have hnext := ih hrest hnames hentry
      rw [trimDots]
      split
      · rename_i hnil
        rwa [hnil.1] at hnext
      · rename_i hne
        exact Names.cons [] (fun hwalk => .current hwalk) hnext fun hc => hne ⟨hc, rfl⟩
    · rw [List.filterMap_cons_some parseSingleComponent_dotDot] at hnames
      match names, hnames with
      | name :: names, hnames => cases (List.cons.inj hnames).1

/-- The opened copy root is the directory its components name.  Only names are opened below a
directory, so the components are names, and each is a directory because it was opened as one. -/
theorem openBelow_some {comps : List Component} (h : tree.openBelow dir comps = some root)
    (hentry : tree.entry dir = some .directory) : ∃ names, comps = names.map .normal ∧
      root = dir ++ names ∧ tree.entry root = some .directory := by
  induction comps generalizing dir with
  | nil =>
    cases h
    exact ⟨[], rfl, by simp, hentry⟩
  | cons component comps ih =>
    cases component with
    | normal name =>
      rw [FileTree.openBelow] at h
      obtain ⟨next, hnext, h⟩ := Option.bind_eq_some_iff.mp h
      obtain ⟨rfl, hnextEntry⟩ := FileTree.openDirectoryAt_some hnext
      obtain ⟨names, rfl, rfl, hroot⟩ := ih h hnextEntry
      exact ⟨name :: names, rfl, by simp, hroot⟩
    | rootDir => cases h
    | curDir => cases h
    | parentDir => cases h

/-- The copy root is opened by its own components, and is a directory. -/
theorem openAbsoluteDirectory_some {copyRoot : List UInt8}
    (h : tree.openAbsoluteDirectory copyRoot = some root) :
    components copyRoot = .rootDir :: root.map .normal ∧ tree.entry root = some .directory := by
  unfold FileTree.openAbsoluteDirectory at h
  split at h
  · rename_i rest hcomps
    split at h
    · obtain ⟨names, rfl, rfl, hentry⟩ := openBelow_some h tree.root
      exact ⟨hcomps, hentry⟩
    · cases h
  · cases h

/-! ### The whole resolution

The walk of a reference begins at the root of the file system for an absolute one, and at
its base otherwise.  In both cases it comes to the copy root, or starts inside, and stays
there.  The example is a reference that ends in a dot. -/

/-- A way that leads to the root and then on inside stays inside once it is there.  The first visit
inside the root cannot be one of the first part, and everything behind it belongs to the second
part. -/
theorem staysInside_append {outside inside : List Visit}
    (hout : ∀ visit ∈ outside, ¬Inside root visit) (hin : ∀ visit ∈ inside, Inside root visit) :
    StaysInside root (outside ++ inside) := by
  intro before visit after he hvisit later hlater
  rcases List.append_eq_append_iff.mp he with ⟨_, rfl, hinside⟩ | ⟨rest, houtside, hafter⟩
  · refine hin later ?_
    rw [hinside]
    exact List.mem_append_right _ (List.mem_cons_of_mem _ hlater)
  · cases rest with
    | nil =>
      rw [List.nil_append] at hafter
      refine hin later ?_
      rw [← hafter]
      exact List.mem_cons_of_mem _ hlater
    | cons first rest =>
      obtain ⟨rfl, -⟩ := List.cons.inj hafter
      refine absurd hvisit (hout visit ?_)
      rw [houtside]
      exact List.mem_append_right _ List.mem_cons_self

/-- A directory whose path continues the root's is inside. -/
theorem inside_of_isPrefixOf {path : List (List UInt8)} (h : root <+: path) :
    Inside root (.directory path) := ⟨path, rfl, h⟩

/-- A directory whose path is shorter than the root's is not inside. -/
theorem not_inside_of_length {path : List (List UInt8)} (h : path.length < root.length) :
    ¬Inside root (.directory path) := by
  rintro ⟨_, he, hprefix⟩
  cases he
  have hlength := hprefix.length_le
  omega

/-- On the way down to the copy root, nothing is inside before its end. -/
theorem not_inside_along {init : List (List UInt8)} (h : init.length < root.length) :
    ∀ visit ∈ .directory [] :: along [] init, ¬Inside root visit := by
  refine List.forall_mem_cons.mpr ⟨not_inside_of_length ?_, fun visit hvisit => ?_⟩
  · simp only [List.length_nil]
    omega
  · obtain ⟨path, rfl, hlength⟩ := length_along hvisit
    rw [List.nil_append] at hlength
    exact not_inside_of_length (by omega)

/-- Down to the copy root and on inside: the way stays inside once it is there.  The directories
above the root are none that lie inside it; the root itself and what follows do. -/
theorem staysInside_along (hin : ∀ visit ∈ visits, Inside root visit) :
    StaysInside root (.directory [] :: (along [] root ++ visits)) := by
  rcases List.eq_nil_or_concat root with rfl | ⟨init, name, hroot⟩
  · have hall : ∀ visit ∈ .directory [] :: visits, Inside [] visit :=
      List.forall_mem_cons.mpr ⟨inside_of_isPrefixOf List.nil_prefix, hin⟩
    exact staysInside_append (fun visit hvisit => absurd hvisit List.not_mem_nil) hall
  · rw [List.concat_eq_append] at hroot
    have hsplit : .directory [] :: (along [] root ++ visits) =
        (.directory [] :: along [] init) ++ (.directory root :: visits) := by
      rw [hroot, along_append]
      simp [along]
    rw [hsplit]
    refine staysInside_append (not_inside_along (by simp [hroot])) ?_
    exact List.forall_mem_cons.mpr ⟨inside_of_isPrefixOf (List.prefix_refl _), hin⟩

/-- The way to the parent of the copy root is one that is not yet inside. -/
theorem staysInside_dropLast : StaysInside root (.directory [] :: along [] root.dropLast) := by
  rcases List.eq_nil_or_concat root with rfl | ⟨init, name, hroot⟩
  · have hstays := @staysInside_along [] [] (by simp)
    simpa [along] using hstays
  · rw [List.concat_eq_append] at hroot
    have hout : ∀ visit ∈ .directory [] :: along [] root.dropLast, ¬Inside root visit :=
      not_inside_along (by simp [hroot])
    have hnone : ∀ visit ∈ ([] : List Visit), Inside root visit := by simp
    simpa using staysInside_append hout hnone

/-- A walk, and what names a place from where it ended. -/
theorem Names.append {parts' : List (List UInt8)} {visits' : List Visit}
    {middle path : List (List UInt8)} (hwalk : Walk tree dir parts visits middle)
    (h : Names tree middle parts' visits' path) (hne : parts' ≠ []) :
    Names tree dir (parts ++ parts') (visits ++ visits') path := by
  cases h with
  | nothing => exact absurd rfl hne
  | part hwalk' =>
    rw [← List.append_assoc]
    exact .part (hwalk.append hwalk')

/-- Names in front of other components are taken over as they are. -/
theorem normalize_names {names : List (List UInt8)} {rest : List Component} :
    normalize position (names.map .normal ++ rest) = normalize (position ++ names) rest := by
  induction names generalizing position with
  | nil => simp
  | cons name names ih =>
    rw [List.map_cons, List.cons_append, normalize, ih, List.append_assoc, List.singleton_append]

/-- What the code concludes about an absolute reference: its way leads down to the copy root and
then stays inside.  The components of the reference split where those of the copy root end: the
upper ones are the way down to the root, and the lower ones are what the code traverses. -/
theorem absolute_walk {copyRoot reference : List UInt8} {rest : List Component}
    (hroot : components copyRoot = .rootDir :: root.map .normal)
    (hentry : tree.entry root = some .directory)
    (habsolute : isAbsolute reference = true)
    (hstrip : components reference = components copyRoot ++ rest)
    (htraverse : traverse tree [root] [] rest = .ok ()) (hnormal : normalize [] rest = .ok final) :
    (∃ visits, Names tree [] (trimDots (kernelComponents reference)) visits (root ++ final) ∧
      StaysInside root (.directory [] :: visits)) ∧
      tree.entry (root ++ final.dropLast) = some .directory := by
  rw [hroot, components_eq, if_pos habsolute, List.singleton_append, List.cons_append] at hstrip
  obtain ⟨above, below, hsplit, habove, hbelow⟩ :=
    List.filterMap_eq_append_iff.mp (List.cons.inj hstrip).2
  have hparts : Parts (kernelComponents reference) := fun part hpart => cases_kernelComponents hpart
  rw [hsplit] at hparts
  have hpartsAbove : Parts above := fun part hpart => hparts part (List.mem_append_left _ hpart)
  have hpartsBelow : Parts below := fun part hpart => hparts part (List.mem_append_right _ hpart)
  rw [← hbelow] at htraverse hnormal
  have hentry' : tree.entry (root ++ []) = some .directory := by rwa [List.append_nil]
  obtain ⟨⟨visits, hnames, hinside⟩, hfinal⟩ :=
    traverse_walk hpartsBelow htraverse hnormal .root hentry'
  rw [List.append_nil] at hnames
  refine ⟨?_, hfinal⟩
  rw [hsplit, trimDots_append]
  split
  · rename_i hnil
    obtain ⟨hpath, -⟩ := hnames.eq_of_nil hnil
    rw [hpath]
    have hdrop : tree.entry ([] ++ root.dropLast) = some .directory :=
      FileTree.directory_dropLast hentry
    exact ⟨_, names_along hpartsAbove habove hdrop, staysInside_dropLast⟩
  · rename_i hne
    exact ⟨_, Names.append (walk_along hpartsAbove habove hentry) hnames hne,
      staysInside_along hinside⟩

/-- What the code concludes about a relative reference from a base below the copy root.  The walk
begins at the base, which is held, and the code's components are those of the bytes; a leading `.`
is a component of its own for the code and changes nothing. -/
theorem relative_walk {reference : List UInt8} {names : List (List UInt8)}
    {held : List (List (List UInt8))} (hheld : Held root names held)
    (hentry : tree.entry (root ++ names) = some .directory)
    (hrelative : isAbsolute reference = false)
    (htraverse : traverse tree held names (components reference) = .ok ())
    (hnormal : normalize names (components reference) = .ok final) :
    (∃ visits, Names tree (root ++ names) (trimDots (kernelComponents reference)) visits
        (root ++ final) ∧ StaysInside root (.directory (root ++ names) :: visits)) ∧
      tree.entry (root ++ final.dropLast) = some .directory := by
  have hparts : Parts (kernelComponents reference) := fun part hpart => cases_kernelComponents hpart
  rw [components_eq, if_neg (by rw [hrelative]; decide)] at htraverse hnormal
  have hbody : traverse tree held names
        ((kernelComponents reference).filterMap parseSingleComponent) = .ok () ∧
      normalize names
        ((kernelComponents reference).filterMap parseSingleComponent) = .ok final := by
    split at htraverse
    · rename_i hcur
      rw [if_pos hcur] at hnormal
      exact ⟨htraverse, hnormal⟩
    · rename_i hcur
      rw [if_neg hcur] at hnormal
      exact ⟨htraverse, hnormal⟩
  obtain ⟨⟨visits, hnames, hinside⟩, hfinal⟩ :=
    traverse_walk hparts hbody.1 hbody.2 hheld hentry
  refine ⟨⟨visits, hnames, ?_⟩, hfinal⟩
  have hall : ∀ visit ∈ .directory (root ++ names) :: visits, Inside root visit :=
    List.forall_mem_cons.mpr ⟨inside_of_isPrefixOf (List.prefix_append _ _), hinside⟩
  exact staysInside_append (fun visit hvisit => absurd hvisit List.not_mem_nil) hall

/-- The resolved path below the copy root names its own entry.  All components are names and each
but the last is a directory, so the way goes straight down. -/
theorem names_below (hroot : ∀ name ∈ root, IsName name) (hfinal : ∀ name ∈ final, IsName name)
    (hentry : tree.entry root = some .directory)
    (hlast : tree.entry (root ++ final.dropLast) = some .directory) :
    ∃ visits, Names tree [] (root ++ final) visits (root ++ final) := by
  have hnames : ∀ name ∈ root ++ final, IsName name := fun name hname =>
    (List.mem_append.mp hname).elim (hroot name) (hfinal name)
  have hparts : Parts (root ++ final) := fun part hpart => Or.inl (hnames part hpart)
  have hmap : (root ++ final).filterMap parseSingleComponent = (root ++ final).map .normal := by
    rw [← List.filterMap_eq_map]
    exact List.filterMap_congr fun name hname => parseSingleComponent_name (hnames name hname)
  have hdrop : tree.entry ([] ++ (root ++ final).dropLast) = some .directory := by
    by_cases hnil : final = []
    · rw [hnil, List.append_nil]
      exact FileTree.directory_dropLast hentry
    · rwa [List.nil_append, List.dropLast_append_of_ne_nil hnil]
  have hwalk := names_along hparts hmap hdrop
  rw [trimDots_names hnames] at hwalk
  exact ⟨_, hwalk⟩

/-- Where the walk of a reference begins: at the root for an absolute one, else at the base. -/
inductive Start (root : List (List UInt8)) (base reference : List UInt8) :
    List (List UInt8) → Prop
  | absolute (h : isAbsolute reference = true) : Start root base reference []
  | relative {names} (h : isAbsolute reference = false)
      (hbase : components base = names.map .normal) : Start root base reference (root ++ names)

/-- What a resolved path is.  It has normal components only; the kernel's walk of the
reference, up to its last component other than `.`, goes through real directories of the
copy root from where it comes inside; and the entry it names is the entry that the path
names below the copy root. -/
def Contained (tree : FileTree) (copyRoot base reference : List UInt8)
    (p : List (List UInt8)) : Prop :=
  components (pathBytes p) = p.map .normal ∧
  ∃ root start, components copyRoot = .rootDir :: root.map .normal ∧
    Start root base reference start ∧
    (∃ visits path, Names tree start (trimDots (kernelComponents reference)) visits path) ∧
    ∀ visits path, Names tree start (trimDots (kernelComponents reference)) visits path →
      StaysInside root (.directory start :: visits) ∧
      ∃ visits', Names tree [] (root ++ p) visits' path

/-- **No reference escapes**: where the code accepts a reference, the kernel's own walk of its
bytes stays inside the copy root.  The two functions of the source, the traversal check and the
normalization, see the same components.  The absolute and the relative case are `absolute_walk` and
`relative_walk`. -/
theorem resolveInternalReference_contained {tree : FileTree} {copyRoot base reference : List UInt8}
    {p : List (List UInt8)} (h : resolveInternalReference tree copyRoot base reference = .ok p) :
    Contained tree copyRoot base reference p := by
  obtain ⟨_, hvalid, hnormal⟩ := bind_ok h
  unfold validateReferenceTraversal at hvalid
  unfold normalizeInternalReference at hnormal
  split at hvalid
  · cases hvalid
  rename_i root hopen
  obtain ⟨hroot, hentry⟩ := openAbsoluteDirectory_some hopen
  have hrootNames : ∀ name ∈ root, IsName name := by
    intro name hname
    have hmem : .normal name ∈ components copyRoot := by
      rw [hroot]
      exact List.mem_cons_of_mem _ (List.mem_map_of_mem hname)
    exact isName_of_mem_components hmem
  have hwalks : ∃ start, Start root base reference start ∧ (∀ name ∈ p, IsName name) ∧
      (∃ visits, Names tree start (trimDots (kernelComponents reference)) visits (root ++ p) ∧
        StaysInside root (.directory start :: visits)) ∧
      tree.entry (root ++ p.dropLast) = some .directory := by
    have hreference : ∀ name, .normal name ∈ components reference → IsName name :=
      fun name => isName_of_mem_components
    by_cases habsolute : isAbsolute reference = true
    · rw [if_pos habsolute] at hvalid hnormal
      obtain ⟨rest, hstrip, htraverse⟩ := bind_ok hvalid
      rw [hstrip] at hnormal
      unfold stripRoot at hstrip
      split at hstrip
      · cases hstrip
      · rename_i hrest
        cases hstrip
        have he := stripPrefix_eq_some.mp hrest
        refine ⟨[], .absolute habsolute, ?_, absolute_walk hroot hentry habsolute he htraverse
          hnormal⟩
        refine normalize_isName hnormal (by simp) fun name hname => hreference name ?_
        rw [he]
        exact List.mem_append_right _ hname
    · rw [if_neg habsolute] at hvalid hnormal
      rw [Bool.not_eq_true] at habsolute
      obtain ⟨⟨held, position⟩, hdescend, htraverse⟩ := bind_ok hvalid
      have hentry' : tree.entry (root ++ []) = some .directory := by rwa [List.append_nil]
      obtain ⟨hheld, hbaseEntry, names, hbase, hposition⟩ := descend_held hdescend .root hentry'
      obtain rfl : position = names := by rw [hposition, List.nil_append]
      rw [hbase, normalize_names, List.nil_append] at hnormal
      refine ⟨root ++ position, .relative habsolute hbase, ?_,
        relative_walk hheld hbaseEntry habsolute htraverse hnormal⟩
      refine normalize_isName hnormal (fun name hname => ?_) hreference
      have hmem : .normal name ∈ components base := by
        rw [hbase]
        exact List.mem_map_of_mem hname
      exact isName_of_mem_components hmem
  obtain ⟨start, hstart, hnames, ⟨visits, hwalk, hstays⟩, hlast⟩ := hwalks
  refine ⟨components_pathBytes hnames, root, start, hroot, hstart, ⟨visits, _, hwalk⟩, ?_⟩
  intro visits' path hwalk'
  obtain ⟨rfl, rfl⟩ := hwalk.unique hwalk'
  exact ⟨hstays, names_below hrootNames hnames hentry hlast⟩

/-- A copy at `/r` with a link `a` to the directory `/o` beside it. -/
def linkedEntry (path : List (List UInt8)) : Option TreeEntry :=
  if path = [] ∨ path = [[114]] ∨ path = [[111]] then some .directory
  else if path = [[114], [97]] then some (.symlink [47, 111])
  else none

/-- What the linked tree has an entry in is a directory of it.  The tree has four entries, so there
is one case for each. -/
theorem linkedEntry_parent (path : List (List UInt8)) (name : List UInt8)
    (h : linkedEntry (path ++ [name]) ≠ none) : linkedEntry path = some .directory := by
  unfold linkedEntry at h
  split at h
  · rename_i hpath
    rcases hpath with hpath | hpath | hpath
    · simp at hpath
    · obtain ⟨rfl, -⟩ := List.append_eq_singleton_iff.mp hpath |>.resolve_right (by simp)
      rfl
    · obtain ⟨rfl, -⟩ := List.append_eq_singleton_iff.mp hpath |>.resolve_right (by simp)
      rfl
  · split at h
    · rename_i hpath
      have hsplit : path ++ [name] = [[114]] ++ [[97]] := hpath
      obtain ⟨rfl, -⟩ := List.append_inj' hsplit rfl
      rfl
    · exact absurd rfl h

/-- The tree of `linkedEntry`, in which a link stands where the reference ends. -/
def linkedTree : FileTree := ⟨linkedEntry, fun _ => true, rfl, linkedEntry_parent⟩

/-- The code accepts the reference with the dot at its end, and names the link. -/
theorem linkedTree_resolves :
    resolveInternalReference linkedTree [47, 114] [] [97, 47, 46] = .ok [[97]] := by
  have hreference : components [97, 47, 46] = [.normal [97]] := by
    simp [components, slash, List.splitOn_eq_splitOnP, List.splitOnP_cons_eq_if_modifyHead,
      isAbsolute, includeCurDir, parseSingleComponent, dot, dotDot]
  have hroot : components [47, 114] = [.rootDir, .normal [114]] := by
    simp [components, slash, List.splitOn_eq_splitOnP, List.splitOnP_cons_eq_if_modifyHead,
      isAbsolute, parseSingleComponent, dot, dotDot]
  have hbase : components [] = [] := by decide
  rw [resolveInternalReference, validateReferenceTraversal, normalizeInternalReference,
    FileTree.openAbsoluteDirectory, hroot, hreference, hbase]
  decide

/-- A reference with a `.` at its end: the kernel's walk of it, up to that last component, stays
inside the copy. -/
theorem resolveInternalReference_contained_link :
    Contained linkedTree [47, 114] [] [97, 47, 46] [[97]] :=
  resolveInternalReference_contained linkedTree_resolves

/-- The reference `a/.` is resolved to `a`, and the kernel's walk of it, up to but not
including its last component `.`, follows the link out of the copy. -/
theorem trailing_dot_follows_link :
    resolveInternalReference linkedTree [47, 114] [] [97, 47, 46] = .ok [[97]] ∧
    ∃ visits, Walk linkedTree [[114]] (kernelComponents [97, 47, 46]).dropLast visits [[111]] ∧
      ¬StaysInside [[114]] (.directory [[114]] :: visits) := by
  have hparts : kernelComponents [97, 47, 46] = [[97], [46]] := by
    simp [kernelComponents, Lib.Words.words, slash, List.splitOnP_cons_eq_if_modifyHead]
  have htarget : kernelComponents [47, 111] = [[111]] := by
    simp [kernelComponents, Lib.Words.words, slash, List.splitOnP_cons_eq_if_modifyHead]
  refine ⟨linkedTree_resolves, [.symlink [[114], [97]], .directory [[111]]], ?_,
    fun hstays => ?_⟩
  · rw [hparts]
    have hname : ([97] : List UInt8) ≠ dot ∧ ([97] : List UInt8) ≠ dotDot := by decide
    have hname' : ([111] : List UInt8) ≠ dot ∧ ([111] : List UInt8) ≠ dotDot := by decide
    have hentry : linkedTree.entry ([[114]] ++ [[97]]) = some (.symlink [47, 111]) := rfl
    have hlink : Walk linkedTree (if isAbsolute [47, 111] then [] else [[114]])
        (kernelComponents [47, 111]) [.directory [[111]]] [[111]] := by
      rw [if_pos (by decide), htarget]
      exact .enter hname' rfl .nil
    exact .follow hname hentry hlink .nil
  · obtain ⟨path, hvisit, -⟩ := hstays [] (.directory [[114]]) _ rfl
      (inside_of_isPrefixOf (List.prefix_refl _)) (.symlink [[114], [97]]) List.mem_cons_self
    cases hvisit

end Git
end ThinWorkspace
