/-
# Trees as a scan reads them

A scan reads a directory as a list of named entries: directories with their mode and
time, regular files with their bytes as well, symbolic links with their text.  A
`Forest` is such a list, with the entries of every directory below it.

Both adapters keep a tree as the flat list of its facts, a directory after everything
below it.  The paths say where a directory ends, so the flat list still determines the
tree (`Forest.facts_inj`).

A file system lists a directory in any order, so two trees are compared fact by fact
(`Tree.Agrees`).  Where every listing is sorted and names each entry once, the facts are
ordered by their paths (`Forest.pairwise_facts`), and trees with the same facts are one tree
(`Tree.agrees_iff`).
-/

import Mathlib.Data.List.Sort
import ThinWorkspace.Core.FileName

namespace ThinWorkspace
namespace Core

/-- The entries of a directory, with everything below them. -/
inductive Forest where
  | nil
  | directory (name : FileName) (mode : UInt32) (mtime : ℤ × ℤ) (children rest : Forest)
  | file (name : FileName) (mode : UInt32) (mtime : ℤ × ℤ) (content : List UInt8) (rest : Forest)
  | symlink (name : FileName) (text : List UInt8) (rest : Forest)
deriving DecidableEq

/-- A directory with everything below it: its mode, its time and its entries. -/
structure Tree where
  mode : UInt32
  mtime : ℤ × ℤ
  entries : Forest
deriving DecidableEq

/-- What a scan notes of one entry: the bytes are those of a file or of a link's text. -/
structure EntryFact where
  path : TreePath
  kind : MaterializedEntryKind
  mode : Option UInt32
  mtime : Option (ℤ × ℤ)
  bytes : Option (List UInt8)
deriving DecidableEq

/-- The facts of a directory at `base`, each directory after what it holds. -/
def Forest.facts : Forest → TreePath → List EntryFact
  | .nil, _ => []
  | .directory name mode mtime children rest, base =>
    children.facts (base ++ [name]) ++
      ⟨base ++ [name], .directory, some mode, some mtime, none⟩ :: rest.facts base
  | .file name mode mtime content rest, base =>
    ⟨base ++ [name], .regularFile, some mode, some mtime, some content⟩ :: rest.facts base
  | .symlink name text rest, base =>
    ⟨base ++ [name], .symbolicLink, none, none, some text⟩ :: rest.facts base

/-- The facts lie below the directory.  The induction is on the forest: the facts of an entry have
its path, and those below it have longer ones. -/
theorem Forest.length_lt {forest : Forest} {base : TreePath} :
    ∀ fact ∈ forest.facts base, base.length < fact.path.length := by
  induction forest generalizing base with
  | nil => simp [facts]
  | directory name mode mtime children rest ihc ihr =>
    intro fact hmem
    rcases List.mem_append.mp hmem with hmem | hmem
    · have hdeep : (base ++ [name]).length < fact.path.length := ihc fact hmem
      rw [List.length_append] at hdeep
      omega
    · rcases List.mem_cons.mp hmem with rfl | hmem
      · simp
      · exact ihr fact hmem
  | file name mode mtime content rest ihr =>
    intro fact hmem
    rcases List.mem_cons.mp hmem with rfl | hmem
    · simp
    · exact ihr fact hmem
  | symlink name text rest ihr =>
    intro fact hmem
    rcases List.mem_cons.mp hmem with rfl | hmem
    · simp
    · exact ihr fact hmem

/-- Every fact has a name. -/
theorem Forest.path_ne_nil {forest : Forest} {base : TreePath} :
    ∀ fact ∈ forest.facts base, fact.path ≠ [] := by
  intro fact hmem h
  have hlt := length_lt fact hmem
  rw [h, List.length_nil] at hlt
  omega

/-- Two lists that are cut at the first element with `P`.  The induction is on the first list,
since neither list has such an element before its cut. -/
theorem append_cons_inj_of_first {α : Type} {P : α → Prop} {as bs as' bs' : List α} {a a' : α}
    (has : ∀ x ∈ as, ¬P x) (ha : P a) (has' : ∀ x ∈ as', ¬P x) (ha' : P a')
    (h : as ++ a :: bs = as' ++ a' :: bs') : as = as' ∧ a = a' ∧ bs = bs' := by
  induction as generalizing as' with
  | nil =>
    cases as' with
    | nil =>
      obtain ⟨hhead, htail⟩ := List.cons.inj h
      exact ⟨rfl, hhead, htail⟩
    | cons x as' =>
      obtain ⟨rfl, -⟩ := List.cons.inj h
      exact absurd ha (has' a List.mem_cons_self)
  | cons x as ih =>
    cases as' with
    | nil =>
      obtain ⟨rfl, -⟩ := List.cons.inj h
      exact absurd ha' (has x List.mem_cons_self)
    | cons x' as' =>
      obtain ⟨rfl, htail⟩ := List.cons.inj h
      rw [List.forall_mem_cons] at has has'
      obtain ⟨rfl, hrest⟩ := ih has.2 has'.2 htail
      exact ⟨rfl, hrest⟩

/-- The facts below a child are deeper than those of the children. -/
theorem Forest.deeper {children : Forest} {base : TreePath} {name : FileName} :
    ∀ fact ∈ children.facts (base ++ [name]), ¬fact.path.length = base.length + 1 := by
  intro fact hmem
  have hdeep := length_lt fact hmem
  rw [List.length_append, List.length_singleton] at hdeep
  omega

/-- The first fact of a directory's own entries ends its first entry. -/
theorem Forest.first_inj {inner inner' rest rest' : List EntryFact} {base : TreePath}
    {fact fact' : EntryFact} {name name' : FileName}
    (hinner : ∀ x ∈ inner, ¬x.path.length = base.length + 1) (hfact : fact.path = base ++ [name])
    (hinner' : ∀ x ∈ inner', ¬x.path.length = base.length + 1)
    (hfact' : fact'.path = base ++ [name']) (h : inner ++ fact :: rest = inner' ++ fact' :: rest') :
    inner = inner' ∧ fact = fact' ∧ rest = rest' := by
  refine append_cons_inj_of_first (P := fun x => x.path.length = base.length + 1) hinner ?_ hinner'
    ?_ h
  · simp [hfact]
  · simp [hfact']

/-- The last name of a path is determined by it. -/
theorem name_inj {base : TreePath} {name name' : FileName} (h : base ++ [name] = base ++ [name']) :
    name = name' := by
  simpa using h

/-- The facts of a directory determine its entries. -/
theorem Forest.facts_inj {forest other : Forest} {base : TreePath}
    (h : forest.facts base = other.facts base) : forest = other := by
  have hnone : ∀ x ∈ ([] : List EntryFact), ¬x.path.length = base.length + 1 := by simp
  induction forest generalizing other base with
  | nil =>
    cases other with
    | nil => rfl
    | directory => simp [facts] at h
    | file => simp [facts] at h
    | symlink => simp [facts] at h
  | directory name mode mtime children rest ihc ihr =>
    cases other with
    | nil => simp [facts] at h
    | directory name' mode' mtime' children' rest' =>
      obtain ⟨hchildren, hfact, hrest⟩ := first_inj deeper rfl deeper rfl h
      simp only [EntryFact.mk.injEq, Option.some.injEq] at hfact
      obtain ⟨hpath, -, rfl, rfl, -⟩ := hfact
      obtain rfl := name_inj hpath
      rw [ihc hchildren (by simp), ihr hrest hnone]
    | file =>
      obtain ⟨-, hfact, -⟩ := first_inj deeper rfl hnone rfl h
      cases congrArg EntryFact.kind hfact
    | symlink =>
      obtain ⟨-, hfact, -⟩ := first_inj deeper rfl hnone rfl h
      cases congrArg EntryFact.kind hfact
  | file name mode mtime content rest ihr =>
    cases other with
    | nil => simp [facts] at h
    | directory =>
      obtain ⟨-, hfact, -⟩ := first_inj hnone rfl deeper rfl h
      cases congrArg EntryFact.kind hfact
    | file name' mode' mtime' content' rest' =>
      obtain ⟨-, hfact, hrest⟩ := first_inj hnone rfl hnone rfl h
      simp only [EntryFact.mk.injEq, Option.some.injEq] at hfact
      obtain ⟨hpath, -, rfl, rfl, rfl⟩ := hfact
      obtain rfl := name_inj hpath
      rw [ihr hrest hnone]
    | symlink =>
      obtain ⟨-, hfact, -⟩ := first_inj hnone rfl hnone rfl h
      cases congrArg EntryFact.kind hfact
  | symlink name text rest ihr =>
    cases other with
    | nil => simp [facts] at h
    | directory =>
      obtain ⟨-, hfact, -⟩ := first_inj hnone rfl deeper rfl h
      cases congrArg EntryFact.kind hfact
    | file =>
      obtain ⟨-, hfact, -⟩ := first_inj hnone rfl hnone rfl h
      cases congrArg EntryFact.kind hfact
    | symlink name' text' rest' =>
      obtain ⟨-, hfact, hrest⟩ := first_inj hnone rfl hnone rfl h
      simp only [EntryFact.mk.injEq, Option.some.injEq] at hfact
      obtain ⟨hpath, -, -, -, rfl⟩ := hfact
      obtain rfl := name_inj hpath
      rw [ihr hrest hnone]

/-! ### Trees in any order

A file system lists a directory in an order of its own, so two listings of one tree need not
be equal as lists.  `Tree.Agrees` compares trees without regard to order, by what each path
has.  For trees whose listings are sorted the comparison is equality (`Tree.agrees_iff`):
`Forest.pairwise_facts` orders all facts of a sorted tree strictly, and a strictly ordered
list is determined by its elements. -/

variable {R S : FileName → FileName → Prop}

/-- The names that a directory lists, in the order of its listing.  A scan of either adapter
sorts them first, and a name stands twice only where the file system listed it twice. -/
def Forest.names : Forest → List FileName
  | .nil => []
  | .directory name _ _ _ rest => name :: rest.names
  | .file name _ _ _ rest => name :: rest.names
  | .symlink name _ rest => name :: rest.names

/-- In every directory of the forest, each name stands in the relation to all names listed
after it.  With `≠` no listing repeats a name, with an order every listing is sorted. -/
def Forest.Each (R : FileName → FileName → Prop) : Forest → Prop
  | .nil => True
  | .directory name _ _ children rest =>
    (∀ other ∈ rest.names, R name other) ∧ children.Each R ∧ rest.Each R
  | .file name _ _ _ rest => (∀ other ∈ rest.names, R name other) ∧ rest.Each R
  | .symlink name _ rest => (∀ other ∈ rest.names, R name other) ∧ rest.Each R

/-- Two relations that hold in every directory hold there together. -/
theorem Forest.Each.and {forest : Forest} (h : forest.Each R) (h' : forest.Each S) :
    forest.Each fun a b => R a b ∧ S a b := by
  induction forest with
  | nil => trivial
  | directory name mode mtime children rest ihc ihr =>
    obtain ⟨hnames, hchildren, hrest⟩ := h
    obtain ⟨hnames', hchildren', hrest'⟩ := h'
    exact ⟨fun other hother => ⟨hnames other hother, hnames' other hother⟩,
      ihc hchildren hchildren', ihr hrest hrest'⟩
  | file name mode mtime content rest ihr =>
    exact ⟨fun other hother => ⟨h.1 other hother, h'.1 other hother⟩, ihr h.2 h'.2⟩
  | symlink name text rest ihr =>
    exact ⟨fun other hother => ⟨h.1 other hother, h'.1 other hother⟩, ihr h.2 h'.2⟩

/-- The order in which the facts of a tree stand: what is below a directory before the
directory, and otherwise as the relation has the first names in which two paths differ. -/
def Before (R : FileName → FileName → Prop) : TreePath → TreePath → Prop
  | [], _ => False
  | _ :: _, [] => True
  | a :: p, b :: q => R a b ∨ a = b ∧ Before R p q

/-- The order below a directory is that of the relative paths. -/
theorem Before.append_left {p q : TreePath} (h : Before R p q) (base : TreePath) :
    Before R (base ++ p) (base ++ q) := by
  induction base with
  | nil => exact h
  | cons name base ih => exact .inr ⟨rfl, ih⟩

/-- The order of the paths is strict where that of the names is. -/
theorem Before.asymm (hR : ∀ a b, R a b → ¬R b a) {p q : TreePath} (h : Before R p q) :
    ¬Before R q p := by
  induction p generalizing q with
  | nil => exact h.elim
  | cons a p ih =>
    cases q with
    | nil => exact id
    | cons b q =>
      rintro (hba | ⟨rfl, hqp⟩)
      · rcases h with hab | ⟨rfl, -⟩
        · exact hR a b hab hba
        · exact hR a a hba hba
      · rcases h with hab | ⟨-, hpq⟩
        · exact hR _ _ hab hab
        · exact ih hpq hqp

/-- Paths that differ in a name are not the same. -/
theorem Before.ne {p q : TreePath} (h : Before (· ≠ ·) p q) : p ≠ q := by
  rintro rfl
  induction p with
  | nil => exact h
  | cons a p ih =>
    rcases h with hne | ⟨-, h⟩
    · exact hne rfl
    · exact ih h

/-- Every fact lies at or below one of the names that the directory lists. -/
theorem Forest.exists_name {forest : Forest} {base : TreePath} :
    ∀ fact ∈ forest.facts base,
      ∃ name ∈ forest.names, ∃ path, fact.path = base ++ name :: path := by
  induction forest generalizing base with
  | nil => simp [facts]
  | directory name mode mtime children rest ihc ihr =>
    intro fact hmem
    rcases List.mem_append.mp hmem with hmem | hmem
    · obtain ⟨inner, -, path, hpath⟩ := ihc fact hmem
      exact ⟨name, List.mem_cons_self, inner :: path, by simpa using hpath⟩
    · rcases List.mem_cons.mp hmem with rfl | hmem
      · exact ⟨name, List.mem_cons_self, [], rfl⟩
      · obtain ⟨other, hother, path, hpath⟩ := ihr fact hmem
        exact ⟨other, List.mem_cons_of_mem _ hother, path, hpath⟩
  | file name mode mtime content rest ihr =>
    intro fact hmem
    rcases List.mem_cons.mp hmem with rfl | hmem
    · exact ⟨name, List.mem_cons_self, [], rfl⟩
    · obtain ⟨other, hother, path, hpath⟩ := ihr fact hmem
      exact ⟨other, List.mem_cons_of_mem _ hother, path, hpath⟩
  | symlink name text rest ihr =>
    intro fact hmem
    rcases List.mem_cons.mp hmem with rfl | hmem
    · exact ⟨name, List.mem_cons_self, [], rfl⟩
    · obtain ⟨other, hother, path, hpath⟩ := ihr fact hmem
      exact ⟨other, List.mem_cons_of_mem _ hother, path, hpath⟩

/-- Whatever lies at or below a name comes before the facts of the names after it. -/
theorem Forest.before_rest {rest : Forest} {base : TreePath} {name : FileName}
    (hnames : ∀ other ∈ rest.names, R name other) (path : TreePath) :
    ∀ fact ∈ rest.facts base, Before R (base ++ name :: path) fact.path := by
  intro fact hmem
  obtain ⟨other, hother, path', hpath⟩ := exists_name fact hmem
  have hfirst : Before R (name :: path) (other :: path') := .inl (hnames other hother)
  rw [hpath]
  exact hfirst.append_left base

/-- **The facts of a forest are ordered by their paths**, as each of its directories is by the
names it lists. -/
theorem Forest.pairwise_facts {forest : Forest} (h : forest.Each R) (base : TreePath) :
    (forest.facts base).Pairwise fun a b => Before R a.path b.path := by
  induction forest generalizing base with
  | nil => exact .nil
  | directory name mode mtime children rest ihc ihr =>
    obtain ⟨hnames, hchildren, hrest⟩ := h
    refine List.pairwise_append.mpr ⟨ihc hchildren _, List.pairwise_cons.mpr ⟨?_, ihr hrest base⟩,
      fun fact hmem other hother => ?_⟩
    · exact before_rest hnames []
    · obtain ⟨inner, -, path, hpath⟩ := exists_name fact hmem
      rw [List.append_assoc, List.singleton_append] at hpath
      have hbelow : Before R (name :: inner :: path) [name] := .inr ⟨rfl, trivial⟩
      rw [hpath]
      rcases List.mem_cons.mp hother with rfl | hother
      · exact hbelow.append_left base
      · exact before_rest hnames _ other hother
  | file name mode mtime content rest ihr =>
    exact List.pairwise_cons.mpr ⟨before_rest h.1 [], ihr h.2 base⟩
  | symlink name text rest ihr =>
    exact List.pairwise_cons.mpr ⟨before_rest h.1 [], ihr h.2 base⟩

/-- Where no listing repeats a name, no path stands twice among the facts. -/
theorem Forest.nodup_paths {forest : Forest} (h : forest.Each (· ≠ ·)) (base : TreePath) :
    ((forest.facts base).map (·.path)).Nodup :=
  List.pairwise_map.mpr ((pairwise_facts h base).imp Before.ne)

/-- No directory of the tree lists a name twice.  A file system names every entry of a
directory once; a listing that repeats one was taken while the directory changed. -/
def Tree.Distinct (tree : Tree) : Prop := tree.entries.Each (· ≠ ·)

/-- The trees have the same root mode and time and, whatever the order of their listings, the
same facts: the same paths, with the same kinds, modes, times, contents and link texts. -/
structure Tree.Agrees (tree other : Tree) : Prop where
  mode : tree.mode = other.mode
  mtime : tree.mtime = other.mtime
  facts : ∀ fact, fact ∈ tree.entries.facts [] ↔ fact ∈ other.entries.facts []

/-- **Sorted trees agree only where they are the same**, entry by entry. -/
theorem Tree.agrees_iff {tree other : Tree} (hR : ∀ a b, R a b → ¬R b a)
    (h : tree.entries.Each R) (h' : other.entries.Each R) : tree.Agrees other ↔ tree = other := by
  constructor
  · rintro ⟨hmode, hmtime, hfacts⟩
    have hirrefl : Std.Irrefl fun a b : EntryFact => Before R a.path b.path :=
      ⟨fun _ hlt => hlt.asymm hR hlt⟩
    have hantisymm : Std.Antisymm fun a b : EntryFact => Before R a.path b.path :=
      ⟨fun _ _ hab hba => absurd hba (hab.asymm hR)⟩
    have hsame := (Forest.pairwise_facts h []).eq_of_mem_iff (Forest.pairwise_facts h' []) hfacts
    cases tree
    cases other
    simp only at hmode hmtime hsame
    rw [hmode, hmtime, Forest.facts_inj hsame]
  · rintro rfl
    exact ⟨rfl, rfl, fun _ => Iff.rfl⟩

end Core
end ThinWorkspace
