/-
# What a removal selects

Source: `RemoveRequest::try_from_raw` and the selection in `remove` of
`crates/thinws-application/src/remove.rs`, with the parsers of
`crates/thinws-core/src/id.rs` and `workspace_name.rs`.

Every text of a `WorkspaceId` is a `WorkspaceName` (`exists_name_of_id`), so a text without
`name:` or `id:` is read as both whenever it is an identifier.  `StandsFor` is what a target
stands for in the database: the active record with that name or that identifier, and for a
text that is both one record that is not in `Conflict`.

`selectActive_selects` says that the selection is that one, and `remove_target_resolution`
that a removal makes no call about any other workspace.  A selector that resolves to a
deleted identifier leaves the database as it was; its two log records are all it adds
(`remove_deleted_calm`).
-/

import ThinWorkspace.Application.Siblings
import ThinWorkspace.Application.World
import ThinWorkspace.Application.Remove
import ThinWorkspace.Metadata.Grammar
import ThinWorkspace.Metadata.Rows

namespace ThinWorkspace
namespace Application

open ThinWorkspace.Core Lib Ports
open Metadata (Database recordRow)
open Program (Issues Only Returns Safe)

/-! ### Parsing

A text with a prefix is read in one way, and a text without one as a name, an identifier, or
both.  The text of an identifier is always a valid name (`exists_name_of_id`), so a text
that is an identifier without a prefix is always ambiguous. -/

/-- The target of `try_from_raw`: a text with one of the two prefixes is read in that way only, one
without is read in every way it can be. -/
def parseTarget (text : String) : Except UseCaseError RemoveTarget :=
  match stripPrefix? "name:" text with
  | some value =>
    match WorkspaceName.tryFrom value with
    | .ok name => .ok (.name name)
    | .error _ => .error (semanticError .usage "invalid explicit Workspace name")
  | none =>
    match stripPrefix? "id:" text with
    | some value =>
      match WorkspaceId.fromText value with
      | .ok id => .ok (.id id)
      | .error _ => .error (semanticError .usage "invalid explicit Workspace ID")
    | none =>
      match (WorkspaceName.tryFrom text).toOption, (WorkspaceId.fromText text).toOption with
      | some name, some id => .ok (.ambiguous name id)
      | some name, none => .ok (.name name)
      | none, some id => .ok (.id id)
      | none, none => .error (semanticError .usage "invalid Workspace name or full ID")

/-- `RemoveRequest::try_from_raw`, with the mode and the time of the request. -/
def tryFromRaw (text : String) (force : Bool) (nowMs : ℤ) : Except UseCaseError RemoveRequest := do
  let target ← parseTarget text
  match UnixMillis.new nowMs with
  | some now => pure ⟨target, if force then .force else .normal, now⟩
  | none => .error (semanticError .usage "system clock predates the Unix epoch")

/-- A hexadecimal digit may stand at the ends of a workspace name. -/
theorem boundary_hexDigit : ∀ d, (String.utf8EncodeChar (hexDigit d)).all isBoundary = true := by
  decide

/-- So may the last byte of one, since a digit is a letter or a figure. -/
theorem getLast?_hexDigit : ∀ d, (String.utf8EncodeChar (hexDigit d)).getLast?.any isBoundary =
    true := by
  decide

/-- A byte of an identifier's text is a letter, a digit, a `-` or a `_`.  The text is the prefix
`ws_` followed by the hyphenated digits, which are encoded one by one. -/
theorem mem_asBytes_toText {id : WorkspaceId} {b : UInt8} (h : b ∈ asBytes id.toText) :
    isBoundary b = true ∨ b = 45 ∨ b = 95 := by
  have hstart (b : UInt8) (hb : b ∈ asBytes "ws_") : isBoundary b = true ∨ b = 45 ∨ b = 95 := by
    have htext : asBytes "ws_" = [119, 115, 95] := by decide
    rw [htext] at hb
    rcases List.mem_cons.mp hb with rfl | hb
    · exact .inl (by decide)
    · rcases List.mem_cons.mp hb with rfl | hb
      · exact .inl (by decide)
      · exact .inr (.inr (List.mem_singleton.mp hb))
  rw [asBytes_toText, List.mem_append, List.mem_flatMap] at h
  rcases h with h | ⟨c, hc, h⟩
  · exact hstart b h
  · rcases Uuid.mem_hyphenatedChars hc with rfl | ⟨d, rfl⟩
    · have hhyphen : String.utf8EncodeChar '-' = [45] := by decide
      rw [hhyphen, List.mem_singleton] at h
      exact Or.inr (Or.inl h)
    · exact Or.inl (List.all_eq_true.mp (boundary_hexDigit d) b h)

/-- A text without a dot has no two dots in a row.  The induction is on the bytes, two at a time.
-/
theorem hasConsecutiveDots_of_notMem {bytes : List UInt8} (h : (46 : UInt8) ∉ bytes) :
    hasConsecutiveDots bytes = false := by
  induction bytes with
  | nil => rfl
  | cons a bytes ih =>
    cases bytes with
    | nil => rfl
    | cons b bytes =>
      have hdot : (a == 46) = false := by
        rw [beq_eq_false_iff_ne]
        rintro rfl
        exact h List.mem_cons_self
      rw [hasConsecutiveDots, hdot, Bool.false_and, Bool.false_or]
      exact ih fun hmem => h (List.mem_cons_of_mem _ hmem)

/-- The last character of a UUID is a digit. -/
theorem getLast?_hyphenatedChars (u : Uuid) :
    ∃ init d, u.hyphenatedChars = init ++ [hexDigit d] := by
  obtain ⟨a, b, c, d, e, ha, hb, hc, hd, he, hu⟩ := u.digits_groups
  have hne : e ≠ [] := by
    rintro rfl
    cases he
  obtain ⟨init, last, rfl⟩ : ∃ init last, e = init ++ [last] :=
    ⟨_, _, (List.dropLast_concat_getLast hne).symm⟩
  rw [Uuid.hyphenatedChars_groups ha hb hc hd hu, List.map_append, List.map_singleton]
  exact ⟨a.map hexDigit ++ '-' :: (b.map hexDigit ++ '-' :: (c.map hexDigit ++ '-' ::
    (d.map hexDigit ++ '-' :: init.map hexDigit))), last, by simp⟩

/-- **The text of an identifier is a name**: hexadecimal digits with hyphens between are within the
alphabet and the length of a workspace name.  The checks are those of `validateWorkspaceName_iff`:
the length, the first and the last byte, the alphabet and the dots. -/
theorem exists_name_of_id (id : WorkspaceId) : ∃ name : WorkspaceName, name.asStr = id.toText := by
  have hvalid : validateWorkspaceName id.toText = .ok () := by
    rw [Metadata.validateWorkspaceName_iff]
    have hlength := length_toText id
    refine ⟨?_, ?_, ?_, ?_, fun b hb => ?_, hasConsecutiveDots_of_notMem fun hdot => ?_⟩
    · intro hnil
      rw [hnil] at hlength
      cases hlength
    · rw [hlength]
      decide
    · have hstart : (asBytes "ws_").head? = some 119 := by decide
      rw [asBytes_toText, List.head?_append, hstart]
      rfl
    · obtain ⟨init, d, hchars⟩ := getLast?_hyphenatedChars id.uuid.asUuid
      have hlast := getLast?_hexDigit d
      cases hbyte : (String.utf8EncodeChar (hexDigit d)).getLast? with
      | none =>
        rw [hbyte] at hlast
        cases hlast
      | some byte =>
        rw [hbyte] at hlast
        rw [asBytes_toText, hchars, List.flatMap_append, ← List.append_assoc,
          List.getLast?_append, List.flatMap_singleton, hbyte]
        exact hlast
    · rw [isAllowed]
      rcases mem_asBytes_toText hb with h | rfl | rfl
      · simp [h]
      · rfl
      · rfl
    · rcases mem_asBytes_toText hdot with h | h | h
      · exact absurd h (by decide)
      · exact absurd h (by decide)
      · exact absurd h (by decide)
  exact ⟨⟨id.toText, hvalid⟩, rfl⟩

/-- How a text is read.  A text without a kind that is an identifier is always a name as
well. -/
inductive Reads : String → RemoveTarget → Prop
  | name (name : WorkspaceName) : Reads ("name:" ++ name.asStr) (.name name)
  | id (id : WorkspaceId) : Reads ("id:" ++ id.toText) (.id id)
  | plain (name : WorkspaceName) (h : ∀ id : WorkspaceId, id.toText ≠ name.asStr) :
      Reads name.asStr (.name name)
  | both (name : WorkspaceName) (id : WorkspaceId) (h : id.toText = name.asStr) :
      Reads name.asStr (.ambiguous name id)

/-- A prefix is stripped from a text that begins with it. -/
theorem stripPrefix?_append (kind value : String) :
    stripPrefix? kind (kind ++ value) = some value := by
  simp [stripPrefix?]

/-- Only from such a text is it stripped, so the text is the prefix and what is left. -/
theorem stripPrefix?_eq_some {kind text value : String} (h : stripPrefix? kind text = some value) :
    text = kind ++ value := by
  obtain ⟨chars, hchars, rfl⟩ := Option.map_eq_some_iff.mp h
  rw [← String.toList_inj, String.toList_append, String.toList_ofList]
  exact (List.isPrefixOf?_eq_some_iff_append_eq.mp hchars).symm

/-- A name has no `:`, so it does not begin with a kind. -/
theorem stripPrefix?_name (name : WorkspaceName) {kind : String} (h : ':' ∈ kind.toList) :
    stripPrefix? kind name.asStr = none := by
  cases hstrip : stripPrefix? kind name.asStr with
  | none => rfl
  | some value =>
    have hmem : ':' ∈ name.asStr.toList := by
      rw [stripPrefix?_eq_some hstrip, String.toList_append]
      exact List.mem_append_left _ h
    have hallowed := (Metadata.validateWorkspaceName_iff.mp name.valid).2.2.2.2.1
    exact absurd (Metadata.isAllowed_asBytes.mp hallowed ':' hmem) (by decide)

/-- The text of a name is read as that name. -/
theorem toOption_tryFrom (name : WorkspaceName) :
    (WorkspaceName.tryFrom name.asStr).toOption = some name := by
  rw [WorkspaceName.tryFrom_asStr]
  rfl

/-- **What is read** from a text, and that nothing else is accepted.  The two prefixes are tried in
turn, and a text with neither of them is read as a name and as an identifier. -/
theorem parseTarget_ok {text : String} {target : RemoveTarget} :
    parseTarget text = .ok target ↔ Reads text target := by
  constructor
  · intro h
    rw [parseTarget] at h
    split at h
    · rename_i value hstrip
      rw [stripPrefix?_eq_some hstrip]
      split at h
      · rename_i name hname
        cases h
        rw [← Metadata.WorkspaceName.tryFrom_eq_ok.mp hname]
        exact .name name
      · cases h
    · split at h
      · rename_i value hstrip
        rw [stripPrefix?_eq_some hstrip]
        split at h
        · rename_i id hid
          cases h
          rw [← Metadata.WorkspaceId.fromText_eq_ok.mp hid]
          exact .id id
        · cases h
      · split at h
        · rename_i name id hname hid
          cases h
          have hname' :=
            Metadata.WorkspaceName.tryFrom_eq_ok.mp (Metadata.toOption_eq_some.mp hname)
          have hid' :=
            Metadata.WorkspaceId.fromText_eq_ok.mp (Metadata.toOption_eq_some.mp hid)
          rw [← hname']
          exact .both name id (hid'.trans hname'.symm)
        · rename_i name hname hid
          cases h
          have hname' :=
            Metadata.WorkspaceName.tryFrom_eq_ok.mp (Metadata.toOption_eq_some.mp hname)
          rw [← hname']
          refine .plain name fun id he => ?_
          rw [← hname', ← he, WorkspaceId.fromText_toText] at hid
          cases hid
        · -- An identifier that is no name: there is none.
          rename_i id hname hid
          have hid' := Metadata.WorkspaceId.fromText_eq_ok.mp (Metadata.toOption_eq_some.mp hid)
          obtain ⟨name, hname'⟩ := exists_name_of_id id
          rw [← hid', ← hname', toOption_tryFrom] at hname
          cases hname
        · cases h
  · rintro (name | id | ⟨name, h⟩ | ⟨name, id, h⟩)
    · rw [parseTarget, stripPrefix?_append]
      simp only [WorkspaceName.tryFrom_asStr]
    · have hother : stripPrefix? "name:" ("id:" ++ id.toText) = none := by
        rw [stripPrefix?, String.toList_append]
        rfl
      rw [parseTarget, hother, stripPrefix?_append]
      simp only [WorkspaceId.fromText_toText]
    · rw [parseTarget, stripPrefix?_name name (by decide), stripPrefix?_name name (by decide),
        toOption_tryFrom]
      cases hid : WorkspaceId.fromText name.asStr with
      | ok id => exact absurd (Metadata.WorkspaceId.fromText_eq_ok.mp hid) (h id)
      | error e => rfl
    · rw [parseTarget, stripPrefix?_name name (by decide), stripPrefix?_name name (by decide),
        toOption_tryFrom, ← h, WorkspaceId.fromText_toText]
      rfl

/-- A request that is read has the target that its text reads as. -/
theorem tryFromRaw_ok {text : String} {force : Bool} {nowMs : ℤ} {request : RemoveRequest}
    (h : tryFromRaw text force nowMs = .ok request) : Reads text request.target := by
  obtain ⟨target, htarget, h⟩ := Fallible.bind_ok h
  split at h
  · cases h
    exact parseTarget_ok.mp htarget
  · cases h

/-! ### What a target stands for

What a target stands for, said of the rows and tombstones instead of the code.  In a
consistent database the answer is unique, because names and identifiers are. -/

/-- The record has a row: its workspace has been reserved and not yet deleted. -/
def Active (db : Database) (record : WorkspaceRecord) : Prop := recordRow record ∈ db.workspaces

/-- The identifier was deleted: it has a tombstone. -/
def Deleted (db : Database) (id : WorkspaceId) : Prop :=
  ∃ tombstone ∈ db.tombstones, tombstone.workspaceId = id.toText

/-- A text is the name of one workspace and the identifier of another, active or deleted. -/
def Conflict (db : Database) (name : WorkspaceName) (id : WorkspaceId) : Prop :=
  ∃ named, Active db named ∧ named.reservation.name = name ∧
    (Deleted db id ∨ ∃ identified, Active db identified ∧
      identified.reservation.workspaceId = id ∧ named.reservation.workspaceId ≠ id)

/-- What a target stands for: the active record with the name or with the identifier, if
there is one, and nothing while the two are in conflict. -/
def StandsFor (db : Database) : RemoveTarget → Option WorkspaceRecord → Prop
  | .name name, found => ∀ record, found = some record ↔
      Active db record ∧ record.reservation.name = name
  | .id id, found => ∀ record, found = some record ↔
      Active db record ∧ record.reservation.workspaceId = id
  | .ambiguous name id, found => ¬Conflict db name id ∧ ∀ record, found = some record ↔
      Active db record ∧ (record.reservation.name = name ∨ record.reservation.workspaceId = id)

section Lookups

variable {db : Database} {record record' : WorkspaceRecord}

/-- In a consistent database a name has one active record. -/
theorem Active.eq_of_name (hdb : db.Consistent) (h : Active db record) (h' : Active db record')
    (hname : record.reservation.name = record'.reservation.name) : record = record' := by
  have hrow : recordRow record = recordRow record' :=
    Sql.eq_of_key_eq hdb.names_nodup h h' (congrArg WorkspaceName.asStr hname)
  have hback := congrArg Metadata.WorkspaceRow.intoRecord hrow
  rw [Metadata.intoRecord_recordRow, Metadata.intoRecord_recordRow] at hback
  exact Except.ok.inj hback

/-- In a consistent database an identifier has one active record. -/
theorem Active.eq_of_id (hdb : db.Consistent) (h : Active db record) (h' : Active db record')
    (hid : record.reservation.workspaceId = record'.reservation.workspaceId) :
    record = record' := by
  have hrow : recordRow record = recordRow record' :=
    Sql.eq_of_key_eq hdb.ids_nodup h h' (congrArg WorkspaceId.toText hid)
  have hback := congrArg Metadata.WorkspaceRow.intoRecord hrow
  rw [Metadata.intoRecord_recordRow, Metadata.intoRecord_recordRow] at hback
  exact Except.ok.inj hback

/-- An active identifier is not a deleted one, since a tombstone takes the place of the row. -/
theorem Active.not_deleted (hdb : db.Consistent) (h : Active db record) :
    ¬Deleted db record.reservation.workspaceId := by
  rintro ⟨tombstone, hmem, hid⟩
  exact hdb.tombstones_inactive tombstone hmem _ h hid.symm

/-- The list that a read returns has the active records.  Reading a row gives back the record that
was written into it, which makes the correspondence one of members. -/
theorem listed_iff (hencoded : db.Encoded) {db' : Database} {records : List WorkspaceRecord}
    (h : StoreStep Metadata.workspaces db (.ok records) db') :
    record ∈ records ↔ Active db record := by
  obtain ⟨hto, hof⟩ := Fallible.mem_mapM_ok h.listed
  simp only [List.mem_mergeSort] at hto hof
  constructor
  · intro hmem
    obtain ⟨row, hrow, hinto⟩ := hof record hmem
    obtain ⟨stored, rfl⟩ := hencoded row hrow
    rw [Metadata.intoRecord_recordRow] at hinto
    exact Except.ok.inj hinto ▸ hrow
  · intro hactive
    obtain ⟨found, hfound, hinto⟩ := hto _ hactive
    rw [Metadata.intoRecord_recordRow] at hinto
    exact Except.ok.inj hinto ▸ hfound

/-- `find` of a name finds the active record that has it.  Names are unique among the active rows
of a consistent database, so the first record that matches is the only one. -/
theorem findByName_iff (hdb : db.Consistent) {records : List WorkspaceRecord}
    (hlisted : ∀ record, record ∈ records ↔ Active db record) {name : WorkspaceName} :
    findByName name records = some record ↔ Active db record ∧ record.reservation.name = name := by
  constructor
  · intro h
    have hname : record.reservation.name = name := by simpa using List.find?_some h
    exact ⟨(hlisted record).mp (List.mem_of_find?_eq_some h), hname⟩
  · rintro ⟨hactive, hname⟩
    cases hfound : findByName name records with
    | none =>
      have hnone := List.find?_eq_none.mp hfound record ((hlisted record).mpr hactive)
      simp [hname] at hnone
    | some found =>
      have hfoundName : found.reservation.name = name := by simpa using List.find?_some hfound
      have hmem := (hlisted found).mp (List.mem_of_find?_eq_some hfound)
      rw [hmem.eq_of_name hdb hactive (hfoundName.trans hname.symm)]

/-- The record a read returns is the active one with the identifier.  The row is selected by the
text of the identifier, which is the key of the table. -/
theorem workspace_iff (hdb : db.Consistent) (hencoded : db.Encoded) {db' : Database}
    {id : WorkspaceId} {found : Option WorkspaceRecord}
    (h : StoreStep (Metadata.readWorkspace id) db (.ok found) db') :
    found = some record ↔ Active db record ∧ record.reservation.workspaceId = id := by
  obtain ⟨faults, c, run, -⟩ := h.ran
  obtain ⟨-, hfound⟩ := Metadata.readWorkspace_ok run
  cases found with
  | none =>
    constructor
    · exact nofun
    · rintro ⟨hactive, rfl⟩
      have hnone : db.selectWorkspace record.reservation.workspaceId.toText = none := hfound
      have hsome : db.selectWorkspace record.reservation.workspaceId.toText = _ :=
        Metadata.selectWorkspace_of_mem hdb.ids_nodup hactive
      rw [hnone] at hsome
      cases hsome
  | some stored =>
    obtain ⟨row, hrow, hinto⟩ := hfound
    obtain ⟨hmem, hid⟩ := Metadata.selectWorkspace_mem hrow
    obtain ⟨encoded, rfl⟩ := hencoded row hmem
    rw [Metadata.intoRecord_recordRow] at hinto
    obtain rfl := Except.ok.inj hinto
    have hstoredId : encoded.reservation.workspaceId = id := WorkspaceId.toText_injective hid
    constructor
    · rintro he
      rw [← Option.some.inj he]
      exact ⟨hmem, hstoredId⟩
    · rintro ⟨hactive, hrecordId⟩
      have hsame : Active db encoded := hmem
      rw [hsame.eq_of_id hdb hactive (hstoredId.trans hrecordId.symm)]

/-- A tombstone is returned of a deleted identifier only.  The query selects by the text of the
identifier, and the row it finds is one of a deletion. -/
theorem deletionTombstone_iff {installation : InstallationRecord} {db' : Database}
    {id : WorkspaceId} {found : Option DeletionTombstone}
    (h : StoreStep (Metadata.deletionTombstone installation id) db (.ok found) db') :
    found.isSome = true ↔ Deleted db id := by
  obtain ⟨faults, c, run, -⟩ := h.ran
  obtain ⟨c₁, -, run⟩ := Session.query_bind_ok run
  have hselect : (db.selectTombstone id.toText).isSome = true ↔ Deleted db id := by
    rw [Metadata.Database.selectTombstone, List.find?_isSome]
    simp [Deleted]
  rw [← hselect]
  cases hrow : db.selectTombstone id.toText with
  | none =>
    rw [hrow] at run
    obtain ⟨rfl, -⟩ := Session.pure_ok run
    exact Iff.rfl
  | some row =>
    rw [hrow] at run
    obtain ⟨run, -⟩ := Session.ofExcept_ok run
    obtain ⟨instanceId, -, run⟩ := Fallible.bind_ok run
    by_cases hother : instanceId ≠ installation.identity.instanceId
    · rw [if_pos hother] at run
      cases run
    · rw [if_neg hother] at run
      obtain ⟨deletedAt, -, run⟩ := Fallible.bind_ok run
      cases run
      exact Iff.rfl

end Lookups

/-! ### The selection

The selection computes what the target stands for, or fails.  It only looks things up, so
the database at its end is the one it was computed from. -/

/-- The refusal of a text in conflict, with the advice to say which of the two is meant. -/
def ambiguousRefusal : UseCaseError :=
  (semanticError .usage "Workspace name and ID select different records").withRemediation
    "Use name:<name> or id:<full-workspace-id> to select the intended Workspace explicitly."

variable {json : JsonLibrary} {installation : InstallationRecord}

/-- A step of a session that only reads leaves the database as it is. -/
theorem StoreStep.unread {α : Type} {session : Metadata.Store α} {db db' : Database}
    {result : Except PortError α} (hx : Session.Reads session)
    (h : StoreStep session db result db') : db' = db := by
  exact (StoreStep.leaves (fun _ => rfl) (hx.leaves fun _ => rfl) h).symm

/-- What the selection ends with: the record its target stands for, the refusal of a
conflict, or the failure of a read. -/
def Settles (db : Database) (target : RemoveTarget) :
    Except UseCaseError (Option WorkspaceRecord) → Prop
  | .ok found => StandsFor db target found
  | .error e => (∃ name id, target = .ambiguous name id ∧ Conflict db name id ∧
      e = ambiguousRefusal) ∨ ∃ failure, e = mapPort .metadata failure

/-- Two lookups that do not select two records select one, or none.  Where no two are selected, the
record of the name and the one of the identifier are one, if both are there, so taking the first
that is there takes the right one. -/
theorem selected_or {db : Database} (hdb : db.Consistent) {name : WorkspaceName}
    {id : WorkspaceId} {byName byId : Option WorkspaceRecord} {oldId : Bool}
    (hname : ∀ record, byName = some record ↔ Active db record ∧ record.reservation.name = name)
    (hid : ∀ record, byId = some record ↔
      Active db record ∧ record.reservation.workspaceId = id)
    (hold : oldId = true ↔ Deleted db id) :
    (selectsTwo byName byId oldId = true ↔ Conflict db name id) ∧
      (selectsTwo byName byId oldId = false →
        StandsFor db (.ambiguous name id) (byName.or byId)) := by
  have hconflict : selectsTwo byName byId oldId = true ↔ Conflict db name id := by
    rw [selectsTwo, Option.any_eq_true]
    constructor
    · rintro ⟨named, hnamed, htwo⟩
      obtain ⟨hactive, hnamedName⟩ := (hname named).mp hnamed
      refine ⟨named, hactive, hnamedName, ?_⟩
      rcases (Bool.or_eq_true _ _).mp htwo with htwo | htwo
      · exact Or.inl (hold.mp htwo)
      · obtain ⟨identified, hidentified, hne⟩ := (Option.any_eq_true _ _).mp htwo
        obtain ⟨hother, hotherId⟩ := (hid identified).mp hidentified
        refine Or.inr ⟨identified, hother, hotherId, fun he => ?_⟩
        rw [hotherId, he] at hne
        simp at hne
    · rintro ⟨named, hactive, hnamedName, hother⟩
      refine ⟨named, (hname named).mpr ⟨hactive, hnamedName⟩, (Bool.or_eq_true _ _).mpr ?_⟩
      rcases hother with hdeleted | ⟨identified, hother, hotherId, hne⟩
      · exact Or.inl (hold.mpr hdeleted)
      · refine Or.inr ((Option.any_eq_true _ _).mpr
          ⟨identified, (hid identified).mpr ⟨hother, hotherId⟩, ?_⟩)
        rw [hotherId]
        simpa using hne
  refine ⟨hconflict, fun hone => ⟨fun htwo => ?_, fun record => ?_⟩⟩
  · rw [hconflict.mpr htwo] at hone
    cases hone
  · rw [Option.or_eq_some_iff, hname, hid]
    constructor
    · rintro (⟨hactive, hrecord⟩ | ⟨-, hactive, hrecord⟩)
      · exact ⟨hactive, Or.inl hrecord⟩
      · exact ⟨hactive, Or.inr hrecord⟩
    · rintro ⟨hactive, hrecord | hrecord⟩
      · exact Or.inl ⟨hactive, hrecord⟩
      · cases hbyName : byName with
        | none => exact Or.inr ⟨rfl, hactive, hrecord⟩
        | some named =>
          -- The named record has this identifier, or the two would be in conflict.
          obtain ⟨hnamed, hnamedName⟩ := (hname named).mp hbyName
          by_cases hsame : named.reservation.workspaceId = id
          · rw [hnamed.eq_of_id hdb hactive (hsame.trans hrecord.symm)] at hnamedName
            exact Or.inl ⟨hactive, hnamedName⟩
          · have htwo := hconflict.mpr
              ⟨named, hnamed, hnamedName, Or.inr ⟨record, hactive, hrecord, hsame⟩⟩
            rw [htwo] at hone
            cases hone

/-- A call of a selection: a read of the store. -/
def PortCall.looksUp : PortCall → Bool
  | .workspaces | .workspace _ | .deletionTombstone _ => true
  | _ => false

/-- Whether an identifier is an old one is what the tombstones say.  Only an identifier without an
active record is looked up among the tombstones; an active one is not an old one. -/
theorem isOldId_settles {db : Database} (hdb : db.Consistent) {id : WorkspaceId}
    {byId : Option WorkspaceRecord} {history : List Event}
    (hid : ∀ record, byId = some record ↔
      Active db record ∧ record.reservation.workspaceId = id) :
    Safe (portEnvironment json installation) (fun c _ => c.looksUp = true)
      (fun outcome w' => w'.db = db ∧ ((∃ oldId, outcome = .ok oldId ∧
        (oldId = true ↔ Deleted db id)) ∨ ∃ failure, outcome = .error (mapPort .metadata failure)))
      (isOldId byId id) ⟨db, history⟩ := by
  unfold isOldId
  cases byId with
  | none =>
    rw [if_pos Option.isNone_none]
    refine ⟨rfl, fun r w₁ h₁ => ?_⟩
    have hkept : w₁.db = db := StoreStep.unread reads_deletionTombstone h₁.2
    cases r with
    | error e => exact ⟨hkept, Or.inr ⟨e, rfl⟩⟩
    | ok found => exact ⟨hkept, Or.inl ⟨_, rfl, deletionTombstone_iff h₁.2⟩⟩
  | some record =>
    obtain ⟨hactive, rfl⟩ := (hid record).mp rfl
    rw [if_neg (by simp)]
    exact ⟨rfl, Or.inl ⟨_, rfl, iff_of_false (by simp) (hactive.not_deleted hdb)⟩⟩

/-- **The selection is what the target stands for**, or it fails; it only looks things up and
leaves the database.  There is one case for each form of the target; the ambiguous one makes both
lookups and the question about the tombstone, and puts them together by `selected_or`. -/
theorem selectActive_selects {db : Database} (hdb : db.Consistent) (hencoded : db.Encoded)
    (target : RemoveTarget) {history : List Event} :
    Safe (portEnvironment json installation) (fun c _ => c.looksUp = true)
      (fun outcome w' => w'.db = db ∧ Settles db target outcome)
      (selectActive target) ⟨db, history⟩ := by
  cases target with
  | name name =>
    refine ⟨rfl, fun r w₁ h₁ => ?_⟩
    have hkept : w₁.db = db := StoreStep.unread reads_workspaces h₁.2
    cases r with
    | error e => exact ⟨hkept, Or.inr ⟨e, rfl⟩⟩
    | ok records =>
      exact ⟨hkept, fun record => findByName_iff hdb (fun _ => listed_iff hencoded h₁.2)⟩
  | id id =>
    refine ⟨rfl, fun r w₁ h₁ => ?_⟩
    have hkept : w₁.db = db := StoreStep.unread Metadata.reads_readWorkspace h₁.2
    cases r with
    | error e => exact ⟨hkept, Or.inr ⟨e, rfl⟩⟩
    | ok found => exact ⟨hkept, fun record => workspace_iff hdb hencoded h₁.2⟩
  | ambiguous name id =>
    refine ⟨rfl, fun r w₁ h₁ => ?_⟩
    have hkept₁ : w₁.db = db := StoreStep.unread reads_workspaces h₁.2
    cases r with
    | error e => exact ⟨hkept₁, Or.inr ⟨e, rfl⟩⟩
    | ok records =>
      have hname : ∀ record, findByName name records = some record ↔
          Active db record ∧ record.reservation.name = name :=
        fun _ => findByName_iff hdb fun _ => listed_iff hencoded h₁.2
      obtain ⟨db₁, history₁⟩ := w₁
      obtain rfl : db₁ = db := hkept₁
      refine ⟨rfl, fun r w₂ h₂ => ?_⟩
      have hkept₂ : w₂.db = db₁ := StoreStep.unread Metadata.reads_readWorkspace h₂.2
      cases r with
      | error e => exact ⟨hkept₂, Or.inr ⟨e, rfl⟩⟩
      | ok byId =>
        have hid : ∀ record, byId = some record ↔
            Active db₁ record ∧ record.reservation.workspaceId = id :=
          fun _ => workspace_iff hdb hencoded h₂.2
        obtain ⟨db₂, history₂⟩ := w₂
        obtain rfl : db₂ = db₁ := hkept₂
        refine Safe.bind (x := isOldId byId id) (isOldId_settles hdb hid) (fun oldId w₃ h₃ => ?_)
          fun e w₃ h₃ => ?_
        · obtain ⟨hkept₃, ⟨_, he, hold⟩ | ⟨_, he⟩⟩ := h₃
          · obtain rfl := Except.ok.inj he
            obtain ⟨htwo, hone⟩ := selected_or hdb hname hid hold
            cases hselects : selectsTwo (findByName name records) byId oldId with
            | true => exact ⟨hkept₃, Or.inl ⟨name, id, rfl, htwo.mp hselects, rfl⟩⟩
            | false => exact ⟨hkept₃, hone hselects⟩
          · cases he
        · obtain ⟨hkept₃, ⟨_, he, -⟩ | ⟨failure, he⟩⟩ := h₃
          · cases he
          · exact ⟨hkept₃, Or.inr ⟨failure, Except.error.inj he⟩⟩

/-! ### What a removal calls

A call acts on a workspace when it writes its row, touches its files or logs about it. -/

/-- The workspace a call is about, apart from the reads of the store. -/
def PortCall.actsOn : PortCall → Option WorkspaceId
  | .completeMaterialization id _ _ _ | .recordFailure id _ _ _ | .beginRemoval id _ _ _
  | .completeDeletion id _ _ | .prepareWorkspace id _ => some id
  | .reserveWorkspace reservation | .validateReadyWorkspace reservation
  | .measureReadyWorkspaceSpace reservation | .inspectRemovalContainer reservation
  | .removeWorkspace reservation => some reservation.workspaceId
  | .appendRemovalLog record => some record.workspaceId
  | _ => none

/-- A call about the removed record is about that record's workspace. -/
theorem PortCall.Removes.actsOn {active : WorkspaceRecord} {c : PortCall} (h : c.Removes active)
    {id : WorkspaceId} (hid : c.actsOn = some id) : active.reservation.workspaceId = id := by
  cases c
  case recordFailure => exact h.symm.trans (Option.some.inj hid)
  case beginRemoval => exact h.symm.trans (Option.some.inj hid)
  case completeDeletion => exact h.symm.trans (Option.some.inj hid)
  case appendRemovalLog => exact h.symm.trans (Option.some.inj hid)
  case validateReadyWorkspace => exact congrArg _ h.symm |>.trans (Option.some.inj hid)
  case inspectRemovalContainer => exact congrArg _ h.symm |>.trans (Option.some.inj hid)
  case removeWorkspace => exact congrArg _ h.symm |>.trans (Option.some.inj hid)
  all_goals first | exact False.elim h | cases hid

/-! ### A whole removal

Every call of a removal is about the workspace that the target chooses, and files are
touched only of the record that it stands for.  The scope is carried along the run, from the
opening of the store to the last record. -/

/-- The workspace a target chooses in a database: the record it stands for, or without one
the deleted workspace with its identifier. -/
def Chosen (db : Database) (target : RemoveTarget) (id : WorkspaceId) : Prop :=
  (∃ record, StandsFor db target (some record) ∧ record.reservation.workspaceId = id) ∨
    (StandsFor db target none ∧ target.absentId = some id ∧ Deleted db id)

/-- The two records of a removal that found its workspace deleted. -/
def PortCall.LogsAbsence : PortCall → Prop
  | .appendRemovalLog record =>
    (record.event = .started ∧ record.outcome = none) ∨
      (record.event = .completed ∧ record.outcome = some .alreadyAbsent)
  | _ => False

/-- A call that changes no workspace: it opens or reads the store, makes an identifier, or
logs that the workspace is deleted. -/
def PortCall.LeavesWorkspaces (c : PortCall) : Prop :=
  c.opensStore = true ∨ c.looksUp = true ∨ c = .newOperationId ∨ c.LogsAbsence

/-- What every call of a removal is about: the chosen identifier, and files only of the record that
was selected. -/
structure RemovalScope (db : Database) (target : RemoveTarget) (c : PortCall) : Prop where
  chosen : ∀ id, c.actsOn = some id → Chosen db target id
  removed : ∀ reservation, c = .removeWorkspace reservation →
    ∃ record, StandsFor db target (some record) ∧ reservation = record.reservation
  absent : StandsFor db target none → c.LeavesWorkspaces

variable {db : Database} {target : RemoveTarget} {c : PortCall}

/-- A target stands for at most one record, or for none, but not for both. -/
theorem StandsFor.unique {found found' : Option WorkspaceRecord} (h : StandsFor db target found)
    (h' : StandsFor db target found') : found = found' := by
  have hiff : ∀ record, found = some record ↔ found' = some record := by
    intro record
    cases target with
    | name name => exact (h record).trans (h' record).symm
    | id id => exact (h record).trans (h' record).symm
    | ambiguous name id => exact (h.2 record).trans (h'.2 record).symm
  exact Option.ext hiff

/-- A call that opens the store is about no workspace. -/
theorem removalScope_of_opensStore (h : c.opensStore = true) : RemovalScope db target c where
  chosen id hid := by cases c <;> first | exact absurd h Bool.false_ne_true | cases hid
  removed reservation he := by rw [he] at h; cases h
  absent _ := Or.inl h

/-- A call that looks something up is about no workspace that it could change. -/
theorem removalScope_of_looksUp (h : c.looksUp = true) : RemovalScope db target c where
  chosen id hid := by cases c <;> first | exact absurd h Bool.false_ne_true | cases hid
  removed reservation he := by rw [he] at h; cases h
  absent _ := Or.inr (Or.inl h)

/-- The calls about the selected record are in scope. -/
theorem removalScope_of_removes {active : WorkspaceRecord}
    (hselected : StandsFor db target (some active)) (h : c.Removes active) :
    RemovalScope db target c where
  chosen id hid := Or.inl ⟨active, hselected, h.actsOn hid⟩
  removed reservation he := by
    rw [he] at h
    exact ⟨active, hselected, h⟩
  absent hnone := by cases hselected.unique hnone

/-- Drawing an identifier for the operation is about no workspace. -/
theorem removalScope_newOperationId : RemovalScope db target .newOperationId where
  chosen := nofun
  removed := nofun
  absent _ := Or.inr (Or.inr (Or.inl rfl))

/-- A log record about a chosen identifier is in scope. -/
theorem removalScope_logsAbsence {record : RemovalLogRecord}
    (hchosen : Chosen db target record.workspaceId)
    (h : (PortCall.appendRemovalLog record).LogsAbsence) :
    RemovalScope db target (.appendRemovalLog record) where
  chosen _ hid := Option.some.inj hid ▸ hchosen
  removed := nofun
  absent _ := Or.inr (Or.inr (Or.inr h))

/-- A condition that is checked first: the rest starts from the same world where it holds. -/
theorem unlessFail_bind {α : Type} {p : Prop} [Decidable p] {error : UseCaseError}
    {f : Unit → UseCase α} {w : World} {guard : PortCall → World → Prop}
    {post : Except UseCaseError α → World → Prop} (hfail : post (.error error) w)
    (hf : p → Safe (portEnvironment json installation) guard post (f ()) w) :
    Safe (portEnvironment json installation) guard post (unlessFail p error >>= f) w := by
  unfold unlessFail
  split
  · rename_i h
    exact hf h
  · exact hfail

/-- A log record of a deleted workspace leaves the database. -/
theorem appendLog_bind {α : Type} {id : WorkspaceId} {record : RemovalLogRecord}
    {f : AbsolutePath → UseCase α} {history : List Event} (hid : record.workspaceId = id)
    (hchosen : Chosen db target id) (h : (PortCall.appendRemovalLog record).LogsAbsence)
    (hf : ∀ path history', Safe (portEnvironment json installation)
      (fun c _ => RemovalScope db target c) (fun _ w' => w'.db = db) (f path) ⟨db, history'⟩) :
    Safe (portEnvironment json installation) (fun c _ => RemovalScope db target c)
      (fun _ w' => w'.db = db) (appendLog id record >>= f) ⟨db, history⟩ := by
  refine ⟨removalScope_logsAbsence (hid ▸ hchosen) h, fun r w₁ h₁ => ?_⟩
  obtain ⟨db₁, history₁⟩ := w₁
  obtain rfl : db₁ = db := h₁.2
  rcases r with e | path
  · exact rfl
  · exact hf path history₁

/-- The calls of a removal that found no record.  Only a target that can mean an identifier goes on
to the tombstone, and only a tombstone that is found leads to a record in the log. -/
theorem removeAbsent_scope {request : RemoveRequest} {identity : InstallationIdentity}
    {history : List Event} (hselected : StandsFor db request.target none) :
    Safe (portEnvironment json installation) (fun c _ => RemovalScope db request.target c)
      (fun _ w' => w'.db = db) (removeAbsent request identity) ⟨db, history⟩ := by
  unfold removeAbsent
  cases hid : request.target.absentId with
  | none => exact rfl
  | some id =>
    refine ⟨removalScope_of_looksUp rfl, fun r w₁ h₁ => ?_⟩
    have hkept : w₁.db = db := StoreStep.unread reads_deletionTombstone h₁.2
    rcases r with e | found
    · exact hkept
    · have hdeleted := deletionTombstone_iff h₁.2
      rcases found with _ | tombstone
      · exact hkept
      · have hchosen : Chosen db request.target id := Or.inr ⟨hselected, hid, hdeleted.mp rfl⟩
        obtain ⟨db₁, history₁⟩ := w₁
        obtain rfl : db₁ = db := hkept
        refine unlessFail_bind rfl fun _ => ?_
        refine ⟨removalScope_newOperationId, fun operationId w₃ h₃ => ?_⟩
        obtain ⟨db₃, history₃⟩ := w₃
        obtain rfl : db₃ = db₁ := h₃.2
        refine appendLog_bind rfl hchosen (Or.inl ⟨rfl, rfl⟩) fun _ history₄ => ?_
        exact appendLog_bind rfl hchosen (Or.inr ⟨rfl, rfl⟩) fun _ history₅ => rfl

/-- What a removal ends with: without a record the database is as it was, and a target in
conflict is refused. -/
def RemovalEnds (db : Database) (target : RemoveTarget)
    (outcome : Except UseCaseError RemoveOutcome) (w : World) : Prop :=
  (StandsFor db target none → w.db = db) ∧
    (∀ name id, target = .ambiguous name id → Conflict db name id → ∃ e, outcome = .error e)

/-- A part that only opens the store is in scope, and leaves the database. -/
theorem opening_scope {α : Type} {x : UseCase α} {history : List Event}
    (hx : Only (fun c => c.opensStore = true) x) :
    Safe (portEnvironment json installation) (fun c _ => RemovalScope db target c)
      (fun _ w' => w'.db = db) x ⟨db, history⟩ := by
  have hguard : ∀ c (_ : World), c.opensStore = true → RemovalScope db target c :=
    fun c _ h => removalScope_of_opensStore h
  have hstep : ∀ (w : World) (c : PortCall) r w', c.opensStore = true →
      (portEnvironment json installation).step w c r w' → w'.db = w.db := by
    intro w c r w' hc step
    have heffect := step.2
    cases c <;> first | exact absurd hc Bool.false_ne_true | exact heffect
  exact hx.safe (s := ⟨db, history⟩) (R := fun w w' : World => w'.db = w.db) (fun _ => rfl)
    (fun _ _ _ h₁ h₂ => h₂.trans h₁) hguard hstep

/-- **A removal is about what its target stands for.**  The opening and the selection leave the
database as it is; from there the removal of the selected record, or of none, is followed with the
target it stands for. -/
theorem remove_scope (hdb : db.Consistent) (hencoded : db.Encoded) (request : RemoveRequest) :
    Safe (portEnvironment json installation) (fun c _ => RemovalScope db request.target c)
      (RemovalEnds db request.target) (remove request) ⟨db, []⟩ := by
  have hopens : ∀ e w, w.db = db → RemovalEnds db request.target (.error e) w :=
    fun e w h => ⟨fun _ => h, fun _ _ _ _ => ⟨e, rfl⟩⟩
  refine Safe.bind (opening_scope only_readIdentity) (fun identity w₁ h₁ => ?_) hopens
  obtain ⟨db₁, history₁⟩ := w₁
  obtain rfl : db₁ = db := h₁
  refine Safe.bind (opening_scope only_openMetadata) (fun _ w₂ h₂ => ?_) hopens
  obtain ⟨db₂, history₂⟩ := w₂
  obtain rfl : db₂ = db₁ := h₂
  have hselect : Safe (portEnvironment json installation)
      (fun c _ => RemovalScope db₂ request.target c)
      (fun outcome w' => w'.db = db₂ ∧ Settles db₂ request.target outcome)
      (selectActive request.target) ⟨db₂, history₂⟩ :=
    (selectActive_selects hdb hencoded request.target).weaken
      fun _ _ h => removalScope_of_looksUp h
  refine Safe.bind hselect (fun found w₃ h₃ => ?_) fun e w₃ h₃ => hopens e w₃ h₃.1
  obtain ⟨db₃, history₃⟩ := w₃
  obtain ⟨rfl, hselected⟩ : db₃ = db₂ ∧ StandsFor db₂ request.target found := h₃
  have hconflict : ∀ name id, request.target = .ambiguous name id → ¬Conflict db₃ name id := by
    intro name id he
    rw [he] at hselected
    exact hselected.1
  cases found with
  | none =>
    exact (removeAbsent_scope hselected).mono fun outcome w₄ h₄ =>
      ⟨fun _ => h₄, fun name id he htwo => absurd htwo (hconflict name id he)⟩
  | some active =>
    have hguard : ∀ c (_ : World), c.Removes active → RemovalScope db₃ request.target c :=
      fun c _ h => removalScope_of_removes hselected h
    have hactive : Safe (portEnvironment json installation)
        (fun c _ => RemovalScope db₃ request.target c) (fun _ _ => True)
        (removeActive request identity active) ⟨db₃, history₃⟩ :=
      removes_removeActive.safe (R := fun _ _ : World => True) (fun _ => trivial)
        (fun _ _ _ _ _ => trivial) hguard fun _ _ _ _ _ _ => trivial
    refine hactive.mono fun outcome w₄ _ => ⟨fun hnone => ?_, fun name id he htwo => ?_⟩
    · cases hselected.unique hnone
    · exact absurd htwo (hconflict name id he)

/-- How a removal resolves its target. -/
structure ResolvesTargets (json : JsonLibrary) (installation : InstallationRecord)
    (db : Database) : Prop where
  /-- Every text of an identifier is a name. -/
  names : ∀ id : WorkspaceId, ∃ name : WorkspaceName, name.asStr = id.toText
  /-- What a text is read as. -/
  read : ∀ text force nowMs request, tryFromRaw text force nowMs = .ok request →
    Reads text request.target
  /-- A name chooses the one active record with this name. -/
  byName : ∀ name id, Chosen db (.name name) id ↔ ∃ record, Active db record ∧
    record.reservation.name = name ∧ record.reservation.workspaceId = id
  /-- An identifier chooses its active record or its deletion. -/
  byId : ∀ id id', Chosen db (.id id) id' ↔ id' = id ∧ (Deleted db id ∨ ∃ record,
    Active db record ∧ record.reservation.workspaceId = id)
  /-- A text that is both chooses a record with the name or the identifier, or the deletion
  of the identifier, and nothing in a conflict. -/
  byBoth : ∀ name id id', Chosen db (.ambiguous name id) id' → ¬Conflict db name id ∧
    ((∃ record, Active db record ∧ record.reservation.workspaceId = id' ∧
      (record.reservation.name = name ∨ id' = id)) ∨ id' = id ∧ Deleted db id)
  /-- Every call of a removal about a workspace is about the chosen one. -/
  chosen : ∀ request c w id, Issues (portEnvironment json installation) (remove request)
    ⟨db, []⟩ c w → c.actsOn = some id → Chosen db request.target id
  /-- The files that are removed are those of the selected record. -/
  removed : ∀ request reservation w, Issues (portEnvironment json installation) (remove request)
    ⟨db, []⟩ (.removeWorkspace reservation) w →
    ∃ record, StandsFor db request.target (some record) ∧ reservation = record.reservation
  /-- A conflict is refused as ambiguous, unless a read of the store fails. -/
  ambiguous : ∀ name id outcome w, Conflict db name id →
    Returns (portEnvironment json installation) (selectActive (.ambiguous name id)) ⟨db, []⟩
      outcome w →
    outcome = .error ambiguousRefusal ∨ ∃ failure, outcome = .error (mapPort .metadata failure)
  /-- No removal succeeds in a conflict. -/
  refused : ∀ request name id outcome w, request.target = .ambiguous name id →
    Conflict db name id →
    Returns (portEnvironment json installation) (remove request) ⟨db, []⟩ outcome w →
    ∃ e, outcome = .error e
  /-- Without an active record the database stays as it was. -/
  kept : ∀ request outcome w, StandsFor db request.target none →
    Returns (portEnvironment json installation) (remove request) ⟨db, []⟩ outcome w → w.db = db
  /-- Without an active record no call changes a workspace. -/
  absent : ∀ request c w, StandsFor db request.target none →
    Issues (portEnvironment json installation) (remove request) ⟨db, []⟩ c w →
    c.LeavesWorkspaces

section Choices

variable (hdb : db.Consistent)
include hdb

/-- The name of an active record stands for it. -/
theorem selected_name {record : WorkspaceRecord} (h : Active db record) :
    StandsFor db (.name record.reservation.name) (some record) := by
  intro record'
  constructor
  · rintro he
    rw [← Option.some.inj he]
    exact ⟨h, rfl⟩
  · rintro ⟨hactive, hname⟩
    rw [hactive.eq_of_name hdb h hname]

/-- The identifier of an active record stands for it. -/
theorem selected_id {record : WorkspaceRecord} (h : Active db record) :
    StandsFor db (.id record.reservation.workspaceId) (some record) := by
  intro record'
  constructor
  · rintro he
    rw [← Option.some.inj he]
    exact ⟨h, rfl⟩
  · rintro ⟨hactive, hid⟩
    rw [hactive.eq_of_id hdb h hid]

/-- A deleted identifier stands for no record, since no active row has it. -/
theorem selected_deleted {id : WorkspaceId} (h : Deleted db id) : StandsFor db (.id id) none := by
  refine fun record => iff_of_false nofun ?_
  rintro ⟨hactive, rfl⟩
  exact hactive.not_deleted hdb h

/-- A name chooses the one active record with this name, and nothing else. -/
theorem chosen_name {name : WorkspaceName} {id : WorkspaceId} :
    Chosen db (.name name) id ↔ ∃ record, Active db record ∧ record.reservation.name = name ∧
      record.reservation.workspaceId = id := by
  constructor
  · rintro (⟨record, hselected, hid⟩ | ⟨-, habsent, -⟩)
    · obtain ⟨hactive, hname⟩ := (hselected record).mp rfl
      exact ⟨record, hactive, hname, hid⟩
    · cases habsent
  · rintro ⟨record, hactive, rfl, hid⟩
    exact Or.inl ⟨record, selected_name hdb hactive, hid⟩

/-- An identifier chooses itself, where it is active or deleted. -/
theorem chosen_id {id id' : WorkspaceId} :
    Chosen db (.id id) id' ↔ id' = id ∧ (Deleted db id ∨ ∃ record, Active db record ∧
      record.reservation.workspaceId = id) := by
  constructor
  · rintro (⟨record, hselected, rfl⟩ | ⟨-, habsent, hdeleted⟩)
    · obtain ⟨hactive, hid⟩ := (hselected record).mp rfl
      exact ⟨hid, Or.inr ⟨record, hactive, hid⟩⟩
    · obtain rfl : id = id' := Option.some.inj habsent
      exact ⟨rfl, Or.inl hdeleted⟩
  · rintro ⟨rfl, hdeleted | ⟨record, hactive, rfl⟩⟩
    · exact Or.inr ⟨selected_deleted hdb hdeleted, rfl, hdeleted⟩
    · exact Or.inl ⟨record, selected_id hdb hactive, rfl⟩

end Choices

/-- A text that is both chooses what its name or its identifier has, and nothing in a conflict. -/
theorem chosen_both {name : WorkspaceName} {id id' : WorkspaceId}
    (h : Chosen db (.ambiguous name id) id') : ¬Conflict db name id ∧
      ((∃ record, Active db record ∧ record.reservation.workspaceId = id' ∧
        (record.reservation.name = name ∨ id' = id)) ∨ id' = id ∧ Deleted db id) := by
  rcases h with ⟨record, hselected, rfl⟩ | ⟨hselected, habsent, hdeleted⟩
  · obtain ⟨hactive, hrecord⟩ := (hselected.2 record).mp rfl
    exact ⟨hselected.1, Or.inl ⟨record, hactive, rfl, hrecord⟩⟩
  · obtain rfl : id = id' := Option.some.inj habsent
    exact ⟨hselected.1, Or.inr ⟨rfl, hdeleted⟩⟩

/-- **A removal never guesses.**  In every reachable database, every text is read in one
way, and every run of a removal is about the workspace that its target chooses; a text that
is the name of one workspace and the identifier of another is refused, and a deleted
identifier leaves every workspace and the database as they are. -/
theorem remove_target_resolution (json : JsonLibrary) (installation : InstallationRecord)
    (calls : List (Metadata.Call × List Bool)) :
    ResolvesTargets json installation
      (Metadata.runCalls json installation (.initialized installation) calls) := by
  have hdb := Metadata.consistent_runCalls json installation calls
  have hencoded := Metadata.encoded_runCalls json installation calls
  have hscope := @remove_scope json installation _ hdb hencoded
  refine ⟨exists_name_of_id, fun _ _ _ _ h => tryFromRaw_ok h, fun _ _ => chosen_name hdb,
    fun _ _ => chosen_id hdb, fun _ _ _ h => chosen_both h, ?_, ?_, ?_, ?_, ?_, ?_⟩
  · exact fun request c w id run hid => ((hscope request).of_issues run).chosen id hid
  · exact fun request reservation w run => ((hscope request).of_issues run).removed _ rfl
  · intro name id outcome w htwo run
    obtain ⟨-, hsettles⟩ := (selectActive_selects hdb hencoded _).of_returns run
    rcases outcome with e | found
    · rcases hsettles with ⟨_, _, -, -, rfl⟩ | ⟨failure, rfl⟩
      · exact Or.inl rfl
      · exact Or.inr ⟨failure, rfl⟩
    · exact absurd htwo hsettles.1
  · exact fun request name id outcome w he htwo run =>
      ((hscope request).of_returns run).2 name id he htwo
  · exact fun request outcome w hnone run => ((hscope request).of_returns run).1 hnone
  · exact fun request c w hnone run => ((hscope request).of_issues run).absent hnone

/-! ### A workspace that was removed

A deleted identifier, named again.  The request is answered as done, and adds to the log. -/

/-- The database after the sample workspace was removed: its row is gone and its tombstone stays.
-/
def sampleRemoved : Database :=
  { Database.initialized sampleInstallation with
    tombstones := [⟨sampleReservation.workspaceId.toText, sampleReservation.instanceId.toText,
      sampleLater.get⟩] }

/-- That database is what a reservation and a forced removal leave. -/
theorem sampleRemoved_reachable : Metadata.runCalls sampleLibrary sampleInstallation
    (.initialized sampleInstallation) [(.reserveWorkspace sampleReservation, []),
      (.beginRemoval sampleReservation.workspaceId .creating .force sampleLater, []),
      (.completeDeletion sampleReservation.workspaceId sampleReservation.instanceId sampleLater,
        [])] = sampleRemoved := by
  decide +kernel

/-- That database is consistent, as one that calls reach. -/
theorem sampleRemoved_consistent : sampleRemoved.Consistent := by
  rw [← sampleRemoved_reachable]
  exact Metadata.consistent_runCalls _ _ _

/-- There the sample identifier is a deleted one: it has a tombstone and no row. -/
theorem sampleRemoved_deleted : Deleted sampleRemoved sampleReservation.workspaceId :=
  ⟨_, List.mem_singleton_self _, rfl⟩

/-- There no workspace is found under the identifier, since its row is gone. -/
theorem sampleRemoved_workspace :
    StoreStep (Metadata.readWorkspace sampleReservation.workspaceId) sampleRemoved (.ok none)
      sampleRemoved :=
  @StoreStep.returned _ _ _ [] _ ⟨sampleRemoved, []⟩ rfl

/-- There the tombstone is found under the identifier, with the time of the removal. -/
theorem sampleRemoved_tombstone :
    StoreStep (Metadata.deletionTombstone sampleInstallation sampleReservation.workspaceId)
      sampleRemoved (.ok (some ⟨sampleReservation.workspaceId, sampleReservation.instanceId,
        sampleLater⟩)) sampleRemoved :=
  @StoreStep.returned _ _ _ [] _ ⟨sampleRemoved, []⟩ rfl

/-- A request for the removed identifier, without force. -/
def sampleAgain : RemoveRequest := ⟨.id sampleReservation.workspaceId, .normal, sampleLater⟩

/-- **Not nothing**: removing the deleted identifier again adds to the removal log, since the
request is logged as started all the same.  The run opens the installation, finds no active record
and the tombstone, and is then at the first line of the log. -/
theorem remove_deleted_logs :
    Deleted sampleRemoved sampleReservation.workspaceId ∧
      StandsFor sampleRemoved sampleAgain.target none ∧
      ∃ w, Issues (portEnvironment sampleLibrary sampleInstallation) (remove sampleAgain)
        ⟨sampleRemoved, []⟩ (.appendRemovalLog (removalRecord sampleAgain ⟨sampleUuid 4⟩
          sampleReservation.workspaceId none none .started none none none)) w := by
  refine ⟨sampleRemoved_deleted, selected_deleted sampleRemoved_consistent sampleRemoved_deleted,
    ?_⟩
  refine issues_after (.ok (some sampleInstallation.identity)) sampleRemoved rfl ?_
  refine issues_after (.ok ()) sampleRemoved rfl ?_
  refine issues_after (.ok ()) sampleRemoved rfl ?_
  refine issues_after (.ok ()) sampleRemoved rfl ?_
  refine issues_after (.ok ()) sampleRemoved rfl ?_
  refine issues_after (.ok (some ⟨sampleInstallation.identity, .ready⟩)) sampleRemoved rfl ?_
  refine issues_after (.ok ()) sampleRemoved rfl ?_
  refine issues_after (.ok none) sampleRemoved sampleRemoved_workspace ?_
  refine issues_after (.ok (some ⟨sampleReservation.workspaceId, sampleReservation.instanceId,
    sampleLater⟩)) sampleRemoved sampleRemoved_tombstone ?_
  refine issues_after ⟨sampleUuid 4⟩ sampleRemoved rfl ?_
  exact ⟨_, .here⟩

end Application
end ThinWorkspace
