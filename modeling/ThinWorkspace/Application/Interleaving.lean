/-
# Queries between the steps of others

A query takes no lock, so between any two of its calls the creations and removals of
other processes may make theirs.  `queryEnvironment` lets them make any calls with any
arguments there, each one step of the store, and keeps every database in between.

`workspace_path` and `workspace_status` answer with a path, or with figures, only if
the record they show stood in the snapshots around the work.  That it also stood in
between is `Metadata.ready_between`: an identity that left Ready does not come back.

In the last section another process creates a workspace before the first snapshot of the two
queries, which then find it.
-/

import ThinWorkspace.Application.Preview
import ThinWorkspace.Application.Query
import ThinWorkspace.Application.Reported
import ThinWorkspace.Metadata.Rows
import ThinWorkspace.Metadata.Unbroken

namespace ThinWorkspace
namespace Application

open ThinWorkspace.Core Lib Ports
open Metadata (Database Change)
open Program (Only Safe Returns)

/-! ### Time

A query takes no lock, so its environment is one in which others may move before each of its
calls.  What they do is any sequence of calls of the ports; a creation or a removal,
complete or stopped, is one (`others_of_visits`). -/

/-- A moment of a query: the database, and the call that the query made then, if it
was the query that moved. -/
structure Moment where
  db : Database
  event : Option Event

/-- The database now, and the moments since the query began: its own calls with their answers, and
the calls that others made in between. -/
structure Timeline where
  db : Database
  moments : List Moment

variable (json : JsonLibrary) (installation : InstallationRecord)

/-- Calls of other processes, one after another: any calls of the ports with any arguments, each
with a result that its effect allows. -/
inductive Others : Database → List Moment → Database → Prop
  | none {db : Database} : Others db [] db
  | call {db db₁ db' : Database} {moments : List Moment} {c : PortCall} {r : c.Result}
      (effect : c.effect json installation db r db₁) (rest : Others db₁ moments db') :
      Others db (⟨db₁, none⟩ :: moments) db'

/-- The world of a query: before each of its calls the others may make theirs. -/
def queryEnvironment : Environment PortCall PortCall.Result Timeline where
  step t c r t' := ∃ between db, Others json installation t.db between db ∧
    c.effect json installation db r t'.db ∧
    t'.moments = t.moments ++ (between ++ [⟨t'.db, some ⟨c, r⟩⟩])

variable {json installation} {t t' : Timeline} {start db db' : Database} {α β : Type}

/-- A creation or a removal, complete or stopped anywhere, makes such calls. -/
theorem others_of_visits {x : UseCase α} {w w' : World}
    (run : Program.Visits (portEnvironment json installation) x w w') :
    ∃ moments, Others json installation w.db moments w'.db := by
  induction run with
  | here => exact ⟨[], .none⟩
  | later step _ ih =>
    obtain ⟨moments, rest⟩ := ih
    exact ⟨_, .call step.2 rest⟩

/-! ### The databases of a run are linked by changes

Whatever others do, the databases of a run are linked by changes of the store, one after the
other.  The invariants of the store therefore hold at every moment of the timeline, not only
where the query looks. -/

/-- The databases of a timeline that began with `start`: that one, and the one behind every moment
since. -/
def Timeline.states (start : Database) (t : Timeline) : List Database :=
  start :: t.moments.map (·.db)

/-- Each is a change of the one before, and the last is the one now. -/
structure Timeline.Linked (start : Database) (t : Timeline) : Prop where
  chain : (t.states start).IsChain Change
  last : (t.states start).getLast? = some t.db

/-- A timeline without moments is linked, with one database. -/
theorem Timeline.Linked.begin (db : Database) : Timeline.Linked db ⟨db, []⟩ :=
  ⟨.singleton db, rfl⟩

/-- One more moment behind a change of the store keeps a timeline linked. -/
theorem Timeline.Linked.change (h : t.Linked start) {m : Moment} (hchange : Change t.db m.db) :
    Timeline.Linked start ⟨m.db, t.moments ++ [m]⟩ := by
  have hstates : Timeline.states start ⟨m.db, t.moments ++ [m]⟩ = t.states start ++ [m.db] := by
    simp [Timeline.states]
  constructor
  · rw [hstates, List.isChain_append]
    refine ⟨h.chain, .singleton _, fun a ha b hb => ?_⟩
    rw [h.last] at ha
    obtain rfl := Option.some.inj ha
    obtain rfl := Option.some.inj hb
    exact hchange
  · rw [hstates]
    exact List.getLast?_concat

/-- What others did keeps a timeline linked, since every one of their calls is a change of the
store. -/
theorem Timeline.Linked.others {between : List Moment}
    (hothers : Others json installation db between db') {moments : List Moment}
    (h : Timeline.Linked start ⟨db, moments⟩) :
    Timeline.Linked start ⟨db', moments ++ between⟩ := by
  induction hothers generalizing moments with
  | none => rwa [List.append_nil]
  | @call db db₁ db' between c r effect _ ih =>
    have hnext := h.change (m := ⟨db₁, none⟩) (PortCall.effect_change effect)
    have hrest := ih hnext
    rwa [List.append_assoc, List.singleton_append] at hrest

/-- **One call** of the query, with those of the others before it. -/
theorem Timeline.Linked.step {c : PortCall} {r : c.Result} (h : t.Linked start)
    (hstep : (queryEnvironment json installation).step t c r t') : t'.Linked start := by
  obtain ⟨between, db, hothers, heffect, hmoments⟩ := hstep
  have hlinked := (h.others hothers).change (m := ⟨t'.db, some ⟨c, r⟩⟩)
    (PortCall.effect_change heffect)
  rw [List.append_assoc, ← hmoments] at hlinked
  exact hlinked

/-! ### What a part adds to the moments

The calculus of this module: what a part of a query adds to the moments when it returns.
The kind of a stretch may depend on the value that is returned, and in a sequence the
stretches are put together.  Most calls of a query read no snapshot, and are `Quiet`. -/

/-- The query's own calls among the moments read no snapshot; the calls of others may be of any
kind. -/
def Quiet (moments : List Moment) : Prop :=
  ∀ m ∈ moments, ∀ e, m.event = some e → ∀ expected, e.call ≠ .inspectMetadata expected

/-- Two quiet stretches make one, moment by moment. -/
theorem Quiet.append {as bs : List Moment} (ha : Quiet as) (hb : Quiet bs) : Quiet (as ++ bs) :=
  fun m hm => (List.mem_append.mp hm).elim (ha m) (hb m)

/-- A stretch without moments is quiet, since it has no call. -/
theorem quiet_nil : Quiet [] := fun _ h => absurd h List.not_mem_nil

/-- The calls of others are quiet: they carry no event of the query. -/
theorem Others.quiet {between : List Moment} (h : Others json installation db between db') :
    Quiet between := by
  induction h with
  | none => exact quiet_nil
  | call _ _ ih =>
    intro m hm
    rcases List.mem_cons.mp hm with rfl | hm
    · intro e he
      cases he
    · exact ih m hm

/-- A part that returns has added moments of a kind, which may depend on what it returns; nothing
is said of a part that fails. -/
def Adds (json : JsonLibrary) (installation : InstallationRecord) (x : UseCase α)
    (S : α → List Moment → Prop) : Prop :=
  ∀ t, Safe (queryEnvironment json installation) (fun _ _ => True)
    (fun outcome t' => ∀ a, outcome = .ok a →
      ∃ added, t'.moments = t.moments ++ added ∧ S a added) x t

variable {x : UseCase α} {f : α → UseCase β} {S S₁ : α → List Moment → Prop}
  {S' : α → β → List Moment → Prop}

/-- The added moments may be described less precisely, for every run. -/
theorem Adds.mono (h : Adds json installation x S) (hS : ∀ a added, S a added → S₁ a added) :
    Adds json installation x S₁ := fun t =>
  (h t).mono fun _ _ hpost a ha => by
    obtain ⟨added, hadded, hs⟩ := hpost a ha
    exact ⟨added, hadded, hS a added hs⟩

/-- Two parts in sequence add the moments of the first and then those of the second. -/
theorem Adds.bind (hx : Adds json installation x S)
    (hf : ∀ a, Adds json installation (f a) (S' a)) :
    Adds json installation (x >>= f) fun b added =>
      ∃ a as bs, added = as ++ bs ∧ S a as ∧ S' a b bs := fun t => by
  refine Safe.bind (x := x) (hx t) (fun a t₁ h₁ => ?_) fun _ _ _ => nofun
  obtain ⟨as, has, hS⟩ := h₁ a rfl
  refine (hf a t₁).mono fun outcome t₂ h₂ b hb => ?_
  obtain ⟨bs, hbs, hS'⟩ := h₂ b hb
  exact ⟨as ++ bs, by rw [hbs, has, List.append_assoc], a, as, bs, rfl, hS, hS'⟩

/-- `Adds.bind` where the kind of the second part is given, since unification does not find it. -/
theorem Adds.bindTo (S' : α → β → List Moment → Prop) (hx : Adds json installation x S)
    (hf : ∀ a, Adds json installation (f a) (S' a)) :
    Adds json installation (x >>= f) fun b added =>
      ∃ a as bs, added = as ++ bs ∧ S a as ∧ S' a b bs := hx.bind hf

/-- A value at hand adds no moment, and is the value that is returned. -/
theorem adds_ret {a : α} : Adds json installation (pure a) fun b added => b = a ∧ added = [] :=
  fun _ _ hb => ⟨[], (List.append_nil _).symm, (Except.ok.inj hb).symm, rfl⟩

/-- A pure check adds no moment, and what it returns is what it computed. -/
theorem adds_check {r : Except UseCaseError α} :
    Adds json installation (check r) fun a added => r = .ok a ∧ added = [] := fun t => by
  cases r with
  | ok a => exact fun b hb => ⟨[], (List.append_nil _).symm, congrArg _ (Except.ok.inj hb), rfl⟩
  | error e => exact nofun

/-- A condition that is checked adds no moment, and holds where the part returns. -/
theorem adds_unlessFail {p : Prop} [Decidable p] {e : UseCaseError} :
    Adds json installation (unlessFail p e) fun _ added => p ∧ added = [] := fun t => by
  unfold unlessFail
  split
  · exact fun _ _ => ⟨[], (List.append_nil _).symm, ‹p›, rfl⟩
  · exact nofun

/-- A call that only observes: the moment it is made at, after those of the others. -/
theorem adds_call {c : PortCall} (hc : c.writesStore = false) :
    Adds json installation (call c) fun r added => ∃ between m, added = between ++ [m] ∧
      Quiet between ∧ m.event = some ⟨c, r⟩ ∧ c.effect json installation m.db r m.db := fun t => by
  refine ⟨trivial, fun r t₁ step => ?_⟩
  obtain ⟨between, db, hothers, heffect, hmoments⟩ := step
  intro a ha
  obtain rfl := Except.ok.inj ha
  have hdb : t₁.db = db := effect_reading hc heffect
  exact ⟨_, hmoments, between, _, rfl, hothers.quiet, rfl, by rw [hdb] at heffect ⊢; exact heffect⟩

/-- A part whose error is turned into another adds what the part adds when it succeeds. -/
theorem Adds.orFail {ε : Type} {g : ε → UseCaseError} {y : UseCase (Except ε α)}
    {T : Except ε α → List Moment → Prop} (h : Adds json installation y T) :
    Adds json installation (y.orFail g) fun a added => T (.ok a) added := fun t => by
  refine Safe.bind (x := y) (h t) (fun r t₁ h₁ => ?_) fun _ _ _ => nofun
  cases r with
  | ok a =>
    intro b hb
    obtain rfl := Except.ok.inj hb
    exact h₁ _ rfl
  | error e => exact nofun

/-- The calls other than a snapshot: those by which a query does not learn what the database holds.
-/
def PortCall.quiet : PortCall → Bool
  | .inspectMetadata _ => false
  | _ => true

/-- The query went on without a snapshot: what was added in the meantime is quiet. -/
def Timeline.Hushed (t t' : Timeline) : Prop :=
  ∃ added, t'.moments = t.moments ++ added ∧ Quiet added

/-- No step at all is a hushed one, since it adds no moment. -/
theorem Timeline.Hushed.refl (t : Timeline) : t.Hushed t :=
  ⟨[], (List.append_nil _).symm, quiet_nil⟩

/-- Two hushed stretches, one after the other, are one. -/
theorem Timeline.Hushed.trans {t t₁ t₂ : Timeline} : t.Hushed t₁ → t₁.Hushed t₂ → t.Hushed t₂ := by
  rintro ⟨as, has, hqa⟩ ⟨bs, hbs, hqb⟩
  exact ⟨as ++ bs, by rw [hbs, has, List.append_assoc], hqa.append hqb⟩

/-- A call that is no snapshot, with all that others do around it, is hushed. -/
theorem Timeline.Hushed.step {c : PortCall} {r : c.Result} (hc : c.quiet = true)
    (hstep : (queryEnvironment json installation).step t c r t') : t.Hushed t' := by
  obtain ⟨between, db, hothers, -, hmoments⟩ := hstep
  refine ⟨_, hmoments, hothers.quiet.append fun m hm e he expected hcall => ?_⟩
  obtain rfl := List.mem_singleton.mp hm
  obtain rfl := Option.some.inj he
  rw [show c = .inspectMetadata expected from hcall] at hc
  cases hc

/-- A part that makes only quiet calls adds a quiet stretch. -/
theorem adds_quiet (hx : Only (fun c => c.quiet = true) x) :
    Adds json installation x fun _ added => Quiet added := fun _ =>
  (hx.safe Timeline.Hushed.refl (fun _ _ _ => Timeline.Hushed.trans) (fun _ _ _ => trivial)
    fun _ _ _ _ hc hstep => Timeline.Hushed.step hc hstep).mono fun _ _ h _ _ => h

/-! ### The parts of a query

Along the code of a query, its two snapshots are found again: what each showed, and what
lies between them.  `adds_inspectWorkspace` is the result for the path, with the validation
between the snapshots. -/

variable {name : WorkspaceName} {q : WorkspaceQuery} {path : AbsolutePath}

/-- The query read a snapshot at this moment: its call returned it, and it is what the database had
at the time. -/
def Moment.Snapshot (json : JsonLibrary) (m : Moment) (snapshot : MetadataSnapshot) : Prop :=
  ∃ expected, m.event = some ⟨.inspectMetadata expected, .ok snapshot⟩ ∧
    StoreStep (inspectSnapshot json) m.db (.ok snapshot) m.db

/-- The snapshot read at this moment shows the workspace under its name. -/
def Moment.Shows (json : JsonLibrary) (m : Moment) (name : WorkspaceName) (q : WorkspaceQuery) :
    Prop :=
  ∃ snapshot, m.Snapshot json snapshot ∧ findWorkspace snapshot name = .ok q

/-- A single quiet call makes only quiet calls. -/
theorem quiet_call {c : PortCall} (h : c.quiet = true) : Only (fun c => c.quiet = true) (call c) :=
  only_call h

/-- Reading the installation's identity takes no snapshot: the config is no part of the metadata.
-/
theorem quiet_readIdentity : Only (fun c => c.quiet = true) readIdentity :=
  Only.bind (Only.orFail (quiet_call rfl)) fun _ => only_orMissing

/-- Requiring the ready marker takes no snapshot: the marker is no part of the metadata. -/
theorem quiet_requireReadyMarker {identity : InstallationIdentity} :
    Only (fun c => c.quiet = true) (requireReadyMarker identity) :=
  Only.bind (Only.orFail (quiet_call rfl)) fun _ => only_unlessFail

/-- `inspect_current` adds one snapshot, which is the one it returns, with quiet stretches around
it. -/
theorem adds_inspectCurrent : Adds json installation inspectCurrent fun snapshot added =>
    ∃ before m after, added = before ++ m :: after ∧ Quiet before ∧ Quiet after ∧
      m.Snapshot json snapshot := by
  refine ((adds_quiet quiet_readIdentity).bind fun identity =>
    (adds_quiet (Only.orFail (quiet_call rfl))).bind fun _ =>
    (adds_quiet quiet_requireReadyMarker).bind fun _ =>
    (Adds.orFail (adds_call rfl)).bind fun snapshot =>
    (adds_quiet (Only.orFail (quiet_call rfl))).bind fun _ =>
    (adds_quiet quiet_requireReadyMarker).bind fun _ => adds_ret).mono ?_
  rintro snapshot added ⟨_, a, _, rfl, ha, _, b, _, rfl, hb, _, c, _, rfl, hc, _, _, _, rfl,
    ⟨between, m, rfl, hbetween, hevent, heffect⟩, _, d, _, rfl, hd, _, e, _, rfl, he, rfl, rfl⟩
  refine ⟨a ++ (b ++ (c ++ between)), m, d ++ e, by simp, ?_, hd.append he, _, hevent, heffect⟩
  exact ha.append (hb.append (hc.append hbetween))

/-- `verify_path` returns the registered target path behind one validation of the workspace that
returned that very path, and takes no snapshot. -/
theorem adds_verifyPath : Adds json installation (verifyPath q) fun path added =>
    path = q.record.reservation.targetPath ∧ ∃ before m after, added = before ++ m :: after ∧
      Quiet before ∧ Quiet after ∧
      m.event = some ⟨.validateReadyWorkspace q.record.reservation, .ok path⟩ := by
  refine ((adds_quiet quiet_readIdentity).bind fun identity =>
    (adds_quiet (Only.orFail (quiet_call rfl))).bind fun _ =>
    (adds_quiet quiet_requireReadyMarker).bind fun _ =>
    (Adds.orFail (adds_call rfl)).bind fun path =>
    adds_unlessFail.bind fun _ =>
    (adds_quiet (Only.orFail (quiet_call rfl))).bind fun _ => adds_ret).mono ?_
  rintro path added ⟨_, a, _, rfl, ha, _, b, _, rfl, hb, _, c, _, rfl, hc, _, _, _, rfl,
    ⟨between, m, rfl, hbetween, hevent, -⟩, _, _, _, rfl, ⟨hpath, rfl⟩, _, d, _, rfl, hd, rfl, rfl⟩
  refine ⟨hpath, a ++ (b ++ (c ++ between)), m, d, by simp, ?_, hd, hevent⟩
  exact ha.append (hb.append (hc.append hbetween))

/-- An inspection that returned the record without its path, because it is not Ready. -/
def NotReady (found : WorkspaceQuery × Option AbsolutePath) : Prop :=
  found.2 = none ∧ found.1.record.state ≠ .ready

/-- `confirm_workspace` either finds the record no longer Ready, or takes one more snapshot that
shows the same Ready record as before.  The parts of the call are put in sequence: the snapshot,
the comparison with the record that was found before, and the answer. -/
theorem adds_confirmWorkspace :
    Adds json installation (confirmWorkspace name q path) fun found added =>
      NotReady found ∨ found = (q, some path) ∧ q.record.state = .ready ∧
        ∃ before last after, added = before ++ last :: after ∧ Quiet before ∧ Quiet after ∧
          last.Shows json name q := by
  refine (adds_inspectCurrent.bind fun snapshot => adds_check.bindTo (fun current found added =>
    added = [] ∧ (NotReady found ∨
      found = (q, some path) ∧ q.record.state = .ready ∧ current = q)) fun current => ?_).mono ?_
  · split
    · rename_i hstate
      refine adds_ret.mono ?_
      rintro _ _ ⟨rfl, rfl⟩
      exact ⟨rfl, .inl ⟨rfl, hstate⟩⟩
    · rename_i hstate
      refine (adds_unlessFail.bind fun _ => adds_ret).mono ?_
      rintro _ _ ⟨_, _, _, rfl, ⟨rfl, rfl⟩, rfl, rfl⟩
      exact ⟨rfl, .inr ⟨rfl, not_not.mp hstate, rfl⟩⟩
  · rintro found _ ⟨snapshot, _, _, rfl, ⟨before, last, after, rfl, hbefore, hafter, hshot⟩,
      current, _, _, rfl, ⟨hfind, rfl⟩, rfl, hcases⟩
    rcases hcases with hnone | ⟨rfl, hready, rfl⟩
    · exact .inl hnone
    · exact .inr ⟨rfl, hready, before, last, after, by simp, hbefore, hafter, snapshot, hshot,
        hfind⟩

/-- The moments of an inspection that returned a path: the two snapshots around the
validation show the same Ready record. -/
structure Validated (json : JsonLibrary) (name : WorkspaceName) (q : WorkspaceQuery)
    (path : AbsolutePath) (before : List Moment) (first : Moment) (during : List Moment)
    (validated : Moment) (after : List Moment) (last : Moment) (rest : List Moment) : Prop where
  ready : q.record.state = .ready
  target : path = q.record.reservation.targetPath
  shown : first.Shows json name q ∧ last.Shows json name q
  validation : validated.event =
    some ⟨.validateReadyWorkspace q.record.reservation, .ok path⟩
  quiet : Quiet before ∧ Quiet during ∧ Quiet after ∧ Quiet rest

/-- `inspect_workspace` answers with a path only if a snapshot showed the Ready record before the
validation of the workspace and another showed it after.  A first snapshot finds the record, the
validation follows, and the confirmation takes the second one; what lies between is quiet. -/
theorem adds_inspectWorkspace : Adds json installation (inspectWorkspace name) fun found added =>
    NotReady found ∨ ∃ q path before first during validated after last rest,
      found = (q, some path) ∧
      added = before ++ first :: (during ++ validated :: (after ++ last :: rest)) ∧
      Validated json name q path before first during validated after last rest := by
  refine (adds_inspectCurrent.bind fun snapshot => adds_check.bindTo (fun q found added =>
    NotReady found ∨ ∃ path before validated after last rest, found = (q, some path) ∧
      added = before ++ validated :: (after ++ last :: rest) ∧
      q.record.state = .ready ∧ path = q.record.reservation.targetPath ∧ last.Shows json name q ∧
      validated.event = some ⟨.validateReadyWorkspace q.record.reservation, .ok path⟩ ∧
      Quiet before ∧ Quiet after ∧ Quiet rest) fun q => ?_).mono ?_
  · split
    · rename_i hstate
      refine adds_ret.mono ?_
      rintro _ _ ⟨rfl, rfl⟩
      exact .inl ⟨rfl, hstate⟩
    · refine (adds_verifyPath.bind fun path => adds_confirmWorkspace).mono ?_
      rintro found _ ⟨path, _, _, rfl, ⟨hpath, before, validated, after, rfl, hbefore, hafter,
        hevent⟩, hcases⟩
      rcases hcases with hnone | ⟨rfl, hready, between, last, rest, rfl, hbetween, hrest, hshows⟩
      · exact .inl hnone
      · exact .inr ⟨path, before, validated, after ++ between, last, rest, rfl, by simp, hready,
          hpath, hshows, hevent, hbefore, hafter.append hbetween, hrest⟩
  · rintro found _ ⟨snapshot, _, _, rfl, ⟨before, first, after, rfl, hbefore, hafter, hshot⟩, q,
      _, _, rfl, ⟨hfind, rfl⟩, hcases⟩
    rcases hcases with hnone | ⟨path, before', validated, after', last, rest, rfl, rfl, hready,
      hpath, hlast, hvalidated, hbefore', hafter', hrest⟩
    · exact .inl hnone
    · exact .inr ⟨q, path, before, first, after ++ before', validated, after', last, rest, rfl,
        by simp, hready, hpath, ⟨⟨snapshot, hshot, hfind⟩, hlast⟩, hvalidated, hbefore,
        hafter.append hbefore', hafter', hrest⟩

/-! ### The queries

The same for what the two use cases return.  A path has the moments of an inspection;
figures have the Git inspection and the measurement between two snapshots that show the same
record. -/

variable {text : String}

/-- What a returned path is made of: a parsed name, a validation that returned the path, and the
two snapshots around it that show the same Ready record. -/
theorem adds_workspacePath : Adds json installation (workspacePath text) fun path added =>
    ∃ name q before first during validated after last rest, parseName text = .ok name ∧
      added = before ++ first :: (during ++ validated :: (after ++ last :: rest)) ∧
      Validated json name q path before first during validated after last rest := by
  refine (adds_check.bind fun name => adds_inspectWorkspace.bindTo (fun found path added =>
    found.2 = some path ∧ added = []) fun found => ?_).mono ?_
  · obtain ⟨q, path⟩ := found
    cases path with
    | none => exact fun _ => nofun
    | some path =>
      refine adds_ret.mono ?_
      rintro _ _ ⟨rfl, rfl⟩
      exact ⟨rfl, rfl⟩
  · rintro path _ ⟨name, _, _, rfl, ⟨hname, rfl⟩, found, _, _, rfl, hfound, hpath, rfl⟩
    rcases hfound with ⟨hnone, -⟩ | ⟨q, path', before, first, during, validated, after, last, rest,
      rfl, rfl, h⟩
    · rw [hpath] at hnone
      cases hnone
    · obtain rfl := Option.some.inj hpath
      exact ⟨name, q, before, first, during, validated, after, last, rest, hname, by simp, h⟩

/-- The space that is returned is what the measurement of the workspace returned, as the last call
made. -/
theorem adds_measureWorkspaceSpace {reservation : WorkspaceReservation} :
    Adds json installation (measureWorkspaceSpace reservation) fun space added =>
      ∃ before measured, added = before ++ [measured] ∧ measured.event =
        some ⟨.measureReadyWorkspaceSpace reservation, .ok space⟩ := by
  refine ((adds_quiet quiet_readIdentity).bind fun identity =>
    (adds_quiet (Only.orFail (quiet_call rfl))).bind fun _ =>
    (adds_quiet quiet_requireReadyMarker).bind fun _ => Adds.orFail (adds_call rfl)).mono ?_
  rintro space _ ⟨_, a, _, rfl, -, _, b, _, rfl, -, _, c, _, rfl, -, between, measured, rfl, -,
    hevent, -⟩
  exact ⟨a ++ (b ++ (c ++ between)), measured, by simp, hevent⟩

/-- A status without figures, of a record that is not Ready, as a query answers when the workspace
left Ready in the meantime. -/
def Unmeasured (status : WorkspaceStatus) : Prop :=
  status.git = none ∧ status.space = none ∧ status.workspace.record.state ≠ .ready

/-- What a query found not Ready is answered without figures. -/
theorem NotReady.unmeasured {found : WorkspaceQuery × Option AbsolutePath} (h : NotReady found) :
    Unmeasured ⟨found.1, none, none⟩ :=
  ⟨rfl, rfl, h.2⟩

variable {inspection : GitInspection} {space : WorkspaceSpace}

/-- Behind the measurement of the space there is one more snapshot: it shows the record as it was,
or the status is given without figures. -/
theorem adds_statusAfterSpace :
    Adds json installation (statusAfterSpace name q inspection space) fun status added =>
      Unmeasured status ∨ status = ⟨q, some inspection, some space⟩ ∧
        ∃ before last rest, added = before ++ last :: rest ∧ Quiet rest ∧
          last.Shows json name q := by
  refine (adds_inspectWorkspace.bindTo (fun found status added => added = [] ∧
    ((found.2 = none ∧ status = ⟨found.1, none, none⟩) ∨
      found.2 ≠ none ∧ found.1 = q ∧ status = ⟨q, some inspection, some space⟩))
        fun found => ?_).mono ?_
  · obtain ⟨shown, path⟩ := found
    cases path with
    | none =>
      refine adds_ret.mono ?_
      rintro _ _ ⟨rfl, rfl⟩
      exact ⟨rfl, .inl ⟨rfl, rfl⟩⟩
    | some path =>
      refine (adds_unlessFail.bind fun _ => adds_ret).mono ?_
      rintro _ _ ⟨_, _, _, rfl, ⟨rfl, rfl⟩, rfl, rfl⟩
      exact ⟨rfl, .inr ⟨nofun, rfl, rfl⟩⟩
  · rintro status _ ⟨found, _, _, rfl, hfound, rfl, hstatus⟩
    rcases hfound with hnone | ⟨shown, path, before, first, during, validated, after, last, rest,
      rfl, rfl, h⟩
    · rcases hstatus with ⟨-, rfl⟩ | ⟨hpath, -⟩
      · exact .inl hnone.unmeasured
      · exact absurd hnone.1 hpath
    · rcases hstatus with ⟨hpath, -⟩ | ⟨-, rfl, rfl⟩
      · cases hpath
      · exact .inr ⟨rfl, before ++ first :: (during ++ validated :: after), last, rest, by simp,
          h.quiet.2.2.2, h.shown.2⟩

/-- The moments of a status that has figures: the first and the last snapshot show the
record, and the Git inspection and the space scan are between them. -/
structure Measured (json : JsonLibrary) (name : WorkspaceName) (q : WorkspaceQuery)
    (inspection : GitInspection) (space : WorkspaceSpace) (before : List Moment) (first : Moment)
    (during : List Moment) (inspected : Moment) (between : List Moment) (measured : Moment)
    (after : List Moment) (last : Moment) (rest : List Moment) : Prop where
  ready : q.record.state = .ready
  shown : first.Shows json name q ∧ last.Shows json name q
  git : inspected.event = some ⟨.gitInspect q.record.reservation.targetPath, inspection⟩
  scan : measured.event =
    some ⟨.measureReadyWorkspaceSpace q.record.reservation, .ok space⟩
  quiet : Quiet before ∧ Quiet rest

/-- Behind the inspection of the repository come the measurement of the space and the snapshot that
confirms the record.  The workspace is inspected once more, the space is measured, and the
confirmation ends the call. -/
theorem adds_statusAfterGit :
    Adds json installation (statusAfterGit name q inspection) fun status added =>
      Unmeasured status ∨ ∃ space between measured after last rest,
        status = ⟨q, some inspection, some space⟩ ∧
        added = between ++ measured :: (after ++ last :: rest) ∧ Quiet rest ∧
        measured.event = some ⟨.measureReadyWorkspaceSpace q.record.reservation, .ok space⟩ ∧
        last.Shows json name q := by
  refine (adds_inspectWorkspace.bindTo (fun found status added =>
    (found.2 = none ∧ status = ⟨found.1, none, none⟩) ∨ found.2 ≠ none ∧
      (Unmeasured status ∨ ∃ space between measured after last rest,
        status = ⟨q, some inspection, some space⟩ ∧
        added = between ++ measured :: (after ++ last :: rest) ∧ Quiet rest ∧
        measured.event = some ⟨.measureReadyWorkspaceSpace q.record.reservation, .ok space⟩ ∧
        last.Shows json name q)) fun found => ?_).mono ?_
  · obtain ⟨shown, path⟩ := found
    cases path with
    | none =>
      refine adds_ret.mono ?_
      rintro _ _ ⟨rfl, rfl⟩
      exact .inl ⟨rfl, rfl⟩
    | some path =>
      refine (adds_unlessFail.bind fun _ => adds_measureWorkspaceSpace.bind fun space =>
        adds_statusAfterSpace).mono ?_
      rintro status _ ⟨_, _, _, rfl, ⟨rfl, rfl⟩, space, _, _, rfl,
        ⟨between, measured, rfl, hmeasured⟩, hstatus⟩
      refine .inr ⟨nofun, hstatus.imp_right ?_⟩
      rintro ⟨rfl, after, last, rest, rfl, hrest, hshows⟩
      exact ⟨space, between, measured, after, last, rest, rfl, by simp, hrest, hmeasured, hshows⟩
  · rintro status _ ⟨found, as, _, rfl, hfound, ⟨hnone, rfl⟩ | ⟨hpath, hstatus⟩⟩
    · rcases hfound with hnot | ⟨_, _, _, _, _, _, _, _, _, rfl, -⟩
      · exact .inl hnot.unmeasured
      · cases hnone
    · refine hstatus.imp_right ?_
      rintro ⟨space, between, measured, after, last, rest, rfl, rfl, h⟩
      exact ⟨space, as ++ between, measured, after, last, rest, rfl, by simp, h⟩

/-- What a status with figures is made of: the inspection and the measurement, between two
snapshots that show the same Ready record.  The two inspections, of the repository and of the
space, lie between the first snapshot and the last one, and each answer that is not Ready ends the
call without figures. -/
theorem adds_workspaceStatus : Adds json installation (workspaceStatus text) fun status added =>
    Unmeasured status ∨ ∃ name q inspection space before first during inspected between measured
      after last rest, parseName text = .ok name ∧ status = ⟨q, some inspection, some space⟩ ∧
      added = before ++ first :: (during ++ inspected :: (between ++ measured ::
        (after ++ last :: rest))) ∧
      Measured json name q inspection space before first during inspected between measured after
        last rest := by
  refine (adds_check.bind fun name => adds_inspectWorkspace.bindTo (fun found status added =>
    (found.2 = none ∧ status = ⟨found.1, none, none⟩) ∨ ∃ path, found.2 = some path ∧
      (Unmeasured status ∨ ∃ inspection space during inspected between measured after last rest,
        status = ⟨found.1, some inspection, some space⟩ ∧
        added = during ++ inspected :: (between ++ measured :: (after ++ last :: rest)) ∧
        inspected.event = some ⟨.gitInspect path, inspection⟩ ∧
        measured.event =
          some ⟨.measureReadyWorkspaceSpace found.1.record.reservation, .ok space⟩ ∧
        last.Shows json name found.1 ∧ Quiet rest)) fun found => ?_).mono ?_
  · obtain ⟨shown, path⟩ := found
    cases path with
    | none =>
      refine adds_ret.mono ?_
      rintro _ _ ⟨rfl, rfl⟩
      exact .inl ⟨rfl, rfl⟩
    | some path =>
      refine ((adds_call rfl).bind fun inspection => adds_statusAfterGit).mono ?_
      rintro status _ ⟨inspection, _, _, rfl, ⟨during, inspected, rfl, -, hgit, -⟩, hstatus⟩
      refine .inr ⟨path, rfl, hstatus.imp_right ?_⟩
      rintro ⟨space, between, measured, after, last, rest, rfl, rfl, hrest, hscan, hlast⟩
      exact ⟨inspection, space, during, inspected, between, measured, after, last, rest, rfl,
        by simp, hgit, hscan, hlast, hrest⟩
  · rintro status _ ⟨name, _, _, rfl, ⟨hname, rfl⟩, found, as, _, rfl, hfound, hstatus⟩
    rcases hstatus with ⟨hnone, rfl⟩ | ⟨path, hpath, hstatus⟩
    · rcases hfound with hnot | ⟨_, _, _, _, _, _, _, _, _, rfl, -⟩
      · exact .inl hnot.unmeasured
      · cases hnone
    · refine hstatus.imp_right ?_
      rintro ⟨inspection, space, during, inspected, between, measured, after, last, rest, rfl, rfl,
        hgit, hscan, hlast, hrest⟩
      rcases hfound with hnot | ⟨q, path', before, first, during', validated, after', last', rest',
        rfl, rfl, h⟩
      · rw [hnot.1] at hpath
        cases hpath
      · obtain rfl := Option.some.inj hpath
        rw [h.target] at hgit
        exact ⟨name, q, inspection, space, before, first,
          during' ++ validated :: (after' ++ last' :: rest') ++ during, inspected, between,
          measured, after, last, rest, hname, rfl, by simp, h.ready, ⟨h.shown.1, hlast⟩, hgit,
          hscan, h.quiet.1, hrest⟩

/-! ### Ready in between

Two snapshots that show one identity Ready enclose moments at which it is Ready, since an
identity that left Ready never comes back to it (`Metadata.ready_between`). -/

variable {id : WorkspaceId} {first last : Moment} {before during rest : List Moment}

/-- A workspace that is found in a snapshot has its record there. -/
theorem findWorkspace_ok {snapshot : MetadataSnapshot}
    (h : findWorkspace snapshot name = .ok q) : q.record ∈ snapshot.workspaces := by
  unfold findWorkspace at h
  split at h
  · rename_i record hfind
    have hrecord : q.record = record := by
      simp only [queryFromSnapshot] at h
      split at h
      · cases h
      · rw [← Except.ok.inj h]
    rw [hrecord]
    exact List.mem_of_find?_eq_some hfind
  · cases h

/-- A record that a snapshot shows Ready is Ready at that moment. -/
theorem Moment.Shows.ready {m : Moment} (h : m.Shows json name q) (hdb : m.db.Encoded)
    (hready : q.record.state = .ready) : m.db.ReadyAt q.record.reservation.workspaceId := by
  obtain ⟨snapshot, ⟨_, _, hread⟩, hfind⟩ := h
  obtain ⟨row, hrow, hrecord⟩ :=
    (Fallible.mem_mapM_ok hread.inspected).2 _ (findWorkspace_ok hfind)
  rw [List.mem_mergeSort] at hrow
  obtain ⟨record, rfl⟩ := hdb row hrow
  obtain hsame := Metadata.recordRow_unique hrecord
  rw [hsame] at hready ⊢
  refine ⟨_, hrow, rfl, ?_⟩
  have hstate : (Metadata.recordRow record).state = record.state.asStr := rfl
  rw [hstate, hready]
  rfl

/-- What every change of the store preserves and holds at the start of a linked timeline holds at
each of its moments. -/
theorem Timeline.Linked.moment (h : t.Linked start) {P : Database → Prop}
    (keep : ∀ db db', Change db db' → P db → P db') (hstart : P start) {m : Moment}
    (hm : m ∈ t.moments) : P m.db :=
  Chain.forall_mem keep h.chain hstart m.db (List.mem_cons_of_mem _ (List.mem_map_of_mem hm))

/-- **Two moments of a run** at which an identity is Ready have none between them at
which it is not. -/
theorem Timeline.Linked.ready (h : t.Linked start) (hstart : start.Consistent)
    (hmoments : t.moments = before ++ first :: (during ++ last :: rest))
    (hfirst : first.db.ReadyAt id) (hlast : last.db.ReadyAt id) :
    ∀ m ∈ first :: (during ++ [last]), m.db.ReadyAt id := by
  have hchain : (first.db :: (during ++ [last]).map (·.db)).IsChain Change := by
    refine h.chain.infix ⟨start :: before.map (·.db), rest.map (·.db), ?_⟩
    simp [Timeline.states, hmoments]
  have hconsistent : first.db.Consistent :=
    h.moment (fun _ _ hchange hdb => hchange.consistent hdb) hstart (by rw [hmoments]; simp)
  have hend : (first.db :: (during ++ [last]).map (·.db)).getLast? = some last.db := by
    rw [List.map_append, ← List.cons_append]
    exact List.getLast?_concat
  intro m hm
  refine Metadata.ready_between hconsistent hchain hfirst hend hlast m.db ?_
  rw [← List.map_cons (f := fun m : Moment => m.db)]
  exact List.mem_map_of_mem hm

/-! ### The main result

The statements about what is returned, and the theorem.  It assumes nothing of the others.
-/

/-- A path was returned: around its validation two snapshots show one Ready record,
and the identity of that record was Ready from the first to the last of them. -/
def PathStood (json : JsonLibrary) (text : String) (path : AbsolutePath)
    (moments : List Moment) : Prop :=
  ∃ name q before first during validated after last rest, parseName text = .ok name ∧
    moments = before ++ first :: (during ++ validated :: (after ++ last :: rest)) ∧
    Validated json name q path before first during validated after last rest ∧
    ∀ m ∈ first :: (during ++ validated :: (after ++ [last])),
      m.db.ReadyAt q.record.reservation.workspaceId

/-- Figures were returned: they are those of a Git inspection and a space scan of one
Ready record, and its identity was Ready from the first snapshot to the last. -/
def FiguresStood (json : JsonLibrary) (text : String) (status : WorkspaceStatus)
    (moments : List Moment) : Prop :=
  ∃ name q inspection space before first during inspected between measured after last rest,
    parseName text = .ok name ∧ status = ⟨q, some inspection, some space⟩ ∧
    moments = before ++ first :: (during ++ inspected :: (between ++ measured ::
      (after ++ last :: rest))) ∧
    Measured json name q inspection space before first during inspected between measured after
      last rest ∧
    ∀ m ∈ first :: (during ++ inspected :: (between ++ measured :: (after ++ [last]))),
      m.db.ReadyAt q.record.reservation.workspaceId

/-- What the two queries return, whatever the others do since the installation. -/
structure NeverStale (json : JsonLibrary) (installation : InstallationRecord) (text : String) :
    Prop where
  path : ∀ path t, Returns (queryEnvironment json installation) (workspacePath text)
    ⟨.initialized installation, []⟩ (.ok path) t → PathStood json text path t.moments
  status : ∀ status t, Returns (queryEnvironment json installation) (workspaceStatus text)
    ⟨.initialized installation, []⟩ (.ok status) t →
      Unmeasured status ∨ FiguresStood json text status t.moments

/-- The databases of a run since the installation are linked: its own calls and those of others are
changes of the store. -/
theorem linked_of_returns {x : UseCase α} {outcome : Except UseCaseError α}
    (run : Returns (queryEnvironment json installation) x ⟨.initialized installation, []⟩
      outcome t) : t.Linked (.initialized installation) :=
  Program.safe_true.of_visits (Timeline.Linked (.initialized installation))
    (.begin _) (fun _ _ _ _ _ h hstep => h.step hstep) run.visits

/-- A Ready record that a snapshot of the run shows belongs to an identity that is Ready in the
database of that moment. -/
theorem Moment.Shows.ready_of_returns {x : UseCase α} {outcome : Except UseCaseError α}
    (run : Returns (queryEnvironment json installation) x ⟨.initialized installation, []⟩
      outcome t) {m : Moment} (hm : m ∈ t.moments) (h : m.Shows json name q)
    (hready : q.record.state = .ready) : m.db.ReadyAt q.record.reservation.workspaceId :=
  h.ready ((linked_of_returns run).moment (fun _ _ hchange hdb => hchange.encoded hdb)
    (Metadata.encoded_runCalls json installation []) hm) hready

/-- **Queries never answer from a stale record.**  Whatever calls other processes make
before, between and after the calls of a query, an identity whose path or figures it
returns was Ready throughout. -/
theorem queries_never_stale (json : JsonLibrary) (installation : InstallationRecord)
    (text : String) : NeverStale json installation text := by
  have hstart := Metadata.Database.initialized_consistent installation
  constructor
  case path =>
    intro path t run
    obtain ⟨_, hadded, name, q, before, first, during, validated, after, last, rest, hname, rfl,
      h⟩ := (adds_workspacePath _).of_returns run path rfl
    rw [List.nil_append] at hadded
    refine ⟨name, q, before, first, during, validated, after, last, rest, hname, hadded, h, ?_⟩
    have hspan : t.moments = before ++ first :: ((during ++ validated :: after) ++ last :: rest) :=
      by simpa using hadded
    have hfirst := h.shown.1.ready_of_returns run (by rw [hadded]; simp) h.ready
    have hlast := h.shown.2.ready_of_returns run (by rw [hadded]; simp) h.ready
    simpa using (linked_of_returns run).ready hstart hspan hfirst hlast
  case status =>
    intro status t run
    obtain ⟨_, hadded, hstatus⟩ := (adds_workspaceStatus _).of_returns run status rfl
    rw [List.nil_append] at hadded
    refine hstatus.imp_right ?_
    rintro ⟨name, q, inspection, space, before, first, during, inspected, between, measured, after,
      last, rest, hname, hok, rfl, h⟩
    refine ⟨name, q, inspection, space, before, first, during, inspected, between, measured, after,
      last, rest, hname, hok, hadded, h, ?_⟩
    have hspan : t.moments = before ++ first ::
        ((during ++ inspected :: (between ++ measured :: after)) ++ last :: rest) := by
      simpa using hadded
    have hfirst := h.shown.1.ready_of_returns run (by rw [hadded]; simp) h.ready
    have hlast := h.shown.2.ready_of_returns run (by rw [hadded]; simp) h.ready
    simpa using (linked_of_returns run).ready hstart hspan hfirst hlast

/-! ### A workspace that another process creates

No workspace exists when the query begins, and another process creates the workspace before
the first snapshot.  Both queries then answer, by the general theorem, with a path and
figures that stood. -/

/-- The snapshot of the database in which the sample workspace is Ready. -/
def sampleSnapshot : MetadataSnapshot :=
  ⟨[sampleReady], [(sampleReservation.workspaceId, summaryOf sampleReceipt)]⟩

/-- The row of the sample reservation once it is Ready is the row of the Ready record. -/
theorem sampleReady_row : { Metadata.reservationRow sampleReservation with state := "ready" } =
    Metadata.recordRow sampleReady := rfl

/-- The snapshot that is read of it: the row decodes, and so does its receipt.  The query lists one
row, sorting leaves it, and the summary is decoded from its receipt. -/
theorem sampleReadyDatabase_inspected :
    StoreStep (inspectSnapshot sampleDocumentLibrary) (sampleReadyDatabase sampleDocumentLibrary)
      (.ok sampleSnapshot) (sampleReadyDatabase sampleDocumentLibrary) := by
  have hread : Metadata.readWorkspacesByWorkspaceId
      ⟨sampleReadyDatabase sampleDocumentLibrary, []⟩ =
        .ok [sampleReady] ⟨sampleReadyDatabase sampleDocumentLibrary, []⟩ := by
    rw [Metadata.readWorkspacesByWorkspaceId, Metadata.run_bind Metadata.run_query]
    change Session.ofExcept ((List.mergeSort [_] _).mapM Metadata.WorkspaceRow.intoRecord) _ = _
    rw [List.mergeSort_singleton, sampleReady_row]
    change Session.ofExcept ((List.map Metadata.recordRow [sampleReady]).mapM _) _ = _
    rw [Metadata.mapM_intoRecord]
    rfl
  have hdecode := Metadata.decodeFinalSummary_stored
    (documentLibrary_readsBack sampleDocument (Metadata.finalReceiptJson sampleReceipt))
    (Metadata.reportable_of_accepted samplePlan_built sampleReceipt_built
      (show Metadata.receiptAccepted sampleReservation samplePlan sampleReceipt = true from rfl))
  have hstored : (sampleReadyDatabase sampleDocumentLibrary).selectReceipt
      sampleReservation.workspaceId.toText = some (Metadata.receiptRow sampleDocumentLibrary
        sampleReservation.workspaceId sampleReceipt sampleCreate.now) := rfl
  have hsummaries : Metadata.readSummaries sampleDocumentLibrary [sampleReady]
      ⟨sampleReadyDatabase sampleDocumentLibrary, []⟩ =
        .ok [(sampleReservation.workspaceId, summaryOf sampleReceipt)]
          ⟨sampleReadyDatabase sampleDocumentLibrary, []⟩ := by
    rw [Metadata.readSummaries]
    exact Metadata.run_bind (Metadata.readFinalMaterialization_run hstored hdecode)
  have hinspect : Metadata.inspect sampleDocumentLibrary
      ⟨sampleReadyDatabase sampleDocumentLibrary, []⟩ =
        .ok ([sampleReady], [(sampleReservation.workspaceId, summaryOf sampleReceipt)])
          ⟨sampleReadyDatabase sampleDocumentLibrary, []⟩ := by
    refine Metadata.run_transaction ?_
    rw [Metadata.run_bind hread, Metadata.run_bind hsummaries]
    rfl
  have hsnapshot : inspectSnapshot sampleDocumentLibrary
      ⟨sampleReadyDatabase sampleDocumentLibrary, []⟩ =
        .ok sampleSnapshot ⟨sampleReadyDatabase sampleDocumentLibrary, []⟩ := by
    rw [inspectSnapshot, Metadata.run_bind hinspect]
    rfl
  exact .returned hsnapshot

/-- What the calls of a query answer once the sample workspace is Ready; the others answer that
they are not available. -/
def readyAnswer : (c : PortCall) → c.Result
  | .inspectMetadata _ => .ok sampleSnapshot
  | .validateReadyWorkspace reservation => .ok reservation.targetPath
  | .measureReadyWorkspaceSpace _ => .ok (.complete 3 8)
  | .workspaces | .workspace _ | .deletionTombstone _ | .finalMaterialization _ =>
    .error (.new .unavailable "")
  | c => sampleAnswer c

/-- The calls of others after which the sample workspace is Ready: none if it already is. -/
def BecomesReady (t : Timeline) : Prop :=
  ∃ between, Others sampleDocumentLibrary sampleInstallation t.db between
    (sampleReadyDatabase sampleDocumentLibrary)

/-- From the installation on, the two calls of a creation that write the store. -/
theorem initialized_becomesReady : BecomesReady ⟨.initialized sampleInstallation, []⟩ := by
  have hreads := documentLibrary_readsBack sampleDocument (Metadata.finalReceiptJson sampleReceipt)
  exact ⟨_, .call (c := .reserveWorkspace sampleReservation) initialized_reserve
    (.call (c := .completeMaterialization sampleReservation.workspaceId samplePlan sampleReceipt
      sampleCreate.now) (sampleCreate_completes hreads.valid_toText) .none)⟩

/-- The answers are those of a world in which the others first create the sample workspace.  There
is one case for each call: the snapshot shows the Ready row, and every other call of the store is
refused, which changes nothing. -/
theorem readyAnswer_live {t : Timeline} {c : PortCall} (h : BecomesReady t) :
    ∃ t', (queryEnvironment sampleDocumentLibrary sampleInstallation).step t c (readyAnswer c) t' ∧
      BecomesReady t' := by
  obtain ⟨between, hothers⟩ := h
  have heffect : c.effect sampleDocumentLibrary sampleInstallation
      (sampleReadyDatabase sampleDocumentLibrary) (readyAnswer c)
      (sampleReadyDatabase sampleDocumentLibrary) := by
    cases c
    case inspectMetadata => exact sampleReadyDatabase_inspected
    case workspaces => exact .refused
    case workspace => exact .refused
    case deletionTombstone => exact .refused
    case finalMaterialization => exact .refused
    case reserveWorkspace => exact .refused
    case completeMaterialization => exact .refused
    case recordFailure => exact .refused
    case beginRemoval => exact .refused
    case completeDeletion => exact .refused
    all_goals rfl
  exact ⟨⟨_, t.moments ++ (between ++ [⟨_, some ⟨c, readyAnswer c⟩⟩])⟩,
    ⟨between, _, hothers, heffect, rfl⟩, [], .none⟩

/-- A query in that world returns what its answers give. -/
theorem returns_readyAnswer (x : UseCase α) :
    ∃ t, Returns (queryEnvironment sampleDocumentLibrary sampleInstallation) x
      ⟨.initialized sampleInstallation, []⟩ (Program.evaluate readyAnswer x) t := by
  obtain ⟨t, run, -⟩ := (Program.only_true (x := x)).exists_returns_within BecomesReady
    (fun _ _ _ h => readyAnswer_live h) initialized_becomesReady
  exact ⟨t, run⟩

/-- Both queries of a workspace that another process creates before their first snapshot: the path
and the figures are returned, and they are those of a record that was Ready throughout. -/
theorem queries_never_stale_created :
    (∃ t, Returns (queryEnvironment sampleDocumentLibrary sampleInstallation) (workspacePath "a")
        ⟨.initialized sampleInstallation, []⟩ (.ok sampleReservation.targetPath) t ∧
      PathStood sampleDocumentLibrary "a" sampleReservation.targetPath t.moments) ∧
    ∃ status t, Returns (queryEnvironment sampleDocumentLibrary sampleInstallation)
        (workspaceStatus "a") ⟨.initialized sampleInstallation, []⟩ (.ok status) t ∧
      FiguresStood sampleDocumentLibrary "a" status t.moments := by
  constructor
  · obtain ⟨t, run⟩ := returns_readyAnswer (workspacePath "a")
    have hpath : Program.evaluate readyAnswer (workspacePath "a") =
        .ok sampleReservation.targetPath := rfl
    rw [hpath] at run
    exact ⟨t, run, (queries_never_stale sampleDocumentLibrary sampleInstallation "a").path _ t run⟩
  · obtain ⟨t, run⟩ := returns_readyAnswer (workspaceStatus "a")
    have hstatus : Program.evaluate readyAnswer (workspaceStatus "a") =
        .ok ⟨⟨sampleReady, some (summaryOf sampleReceipt)⟩, some (.new .complete [] []),
          some (.complete 3 8)⟩ := rfl
    rw [hstatus] at run
    refine ⟨_, t, run, ?_⟩
    rcases (queries_never_stale sampleDocumentLibrary sampleInstallation "a").status _ t run with
      hnone | hstood
    · exact absurd hnone.1 (Option.some_ne_none _)
    · exact hstood

end Application
end ThinWorkspace
