/-
# Workspace names

Source: `crates/thinws-core/src/workspace_name.rs`.  The grammar is checked on
the bytes of the input, in the order the source checks it, and the accepted
input is kept unchanged.

A name carries the proof that it passed, so what is stored under it can always be read
back: `WorkspaceName.tryFrom_asStr`.
-/

import Mathlib.Data.List.Basic

namespace ThinWorkspace
namespace Core

/-- `MAX_WORKSPACE_NAME_LEN`: the length that the schema allows as well. -/
def maxWorkspaceNameLen : ℕ := 63

/-- `WorkspaceNameError`: the first rule that a text breaks, with the length or the position where
the source names one. -/
inductive WorkspaceNameError where
  | empty
  | tooLong (length : ℕ)
  | invalidBoundary
  | invalidCharacter (index : ℕ)
  | consecutiveDots
deriving DecidableEq

/-- `str::as_bytes`: the bytes of a text, in UTF-8. -/
def asBytes (value : String) : List UInt8 := value.toUTF8.data.toList

/-- The bytes of a text are those of its characters. -/
theorem asBytes_ofList (chars : List Char) :
    asBytes (String.ofList chars) = chars.flatMap String.utf8EncodeChar := by
  simp [asBytes, String.toUTF8, List.utf8Encode]

/-- The bytes of two texts are those of the one and then the other. -/
theorem asBytes_append (a b : String) : asBytes (a ++ b) = asBytes a ++ asBytes b := by
  simp [asBytes, String.toUTF8]

/-- A text is its bytes: two texts with the same bytes are equal. -/
theorem asBytes_text_injective : Function.Injective asBytes := fun a b h => by
  rw [← String.toByteArray_inj]
  exact ByteArray.ext (Array.toList_inj.mp h)

/-- A lower-case letter or a digit, `is_boundary`: what a name begins and ends with. -/
def isBoundary (byte : UInt8) : Bool :=
  (97 ≤ byte && byte ≤ 122) || (48 ≤ byte && byte ≤ 57)

/-- `is_allowed`: a boundary byte, or one of `.`, `_` and `-`. -/
def isAllowed (byte : UInt8) : Bool :=
  isBoundary byte || byte == 46 || byte == 95 || byte == 45

/-- `bytes.windows(2).any(|pair| pair == b"..")`, by recursion on the bytes. -/
def hasConsecutiveDots : List UInt8 → Bool
  | a :: b :: rest => (a == 46 && b == 46) || hasConsecutiveDots (b :: rest)
  | _ => false

/-- `validate_workspace_name`: the rules in the order of the source, so that a text that breaks
several has the error of the first. -/
def validateWorkspaceName (value : String) : Except WorkspaceNameError Unit :=
  let bytes := asBytes value
  if bytes = [] then .error .empty
  else if bytes.length > maxWorkspaceNameLen then .error (.tooLong bytes.length)
  else if !bytes.head?.any isBoundary || !bytes.getLast?.any isBoundary then
    .error .invalidBoundary
  else match bytes.findIdx? fun byte => !isAllowed byte with
    | some index => .error (.invalidCharacter index)
    | none => if hasConsecutiveDots bytes then .error .consecutiveDots else .ok ()

instance (value : String) : Decidable (validateWorkspaceName value = .ok ()) :=
  match h : validateWorkspaceName value with
  | .ok () => isTrue rfl
  | .error _ => isFalse (by simp)

/-- `WorkspaceName`: the exact text that passed the grammar; a text that does not pass cannot
become one. -/
structure WorkspaceName where
  asStr : String
  valid : validateWorkspaceName asStr = .ok ()
deriving DecidableEq

/-- `TryFrom<String> for WorkspaceName`: the text is kept as it is, without trimming or folding. -/
def WorkspaceName.tryFrom (value : String) : Except WorkspaceNameError WorkspaceName :=
  match h : validateWorkspaceName value with
  | .error e => .error e
  | .ok () => .ok ⟨value, h⟩

/-- A name is read back from its text, since the text passed the grammar before. -/
@[simp] theorem WorkspaceName.tryFrom_asStr (name : WorkspaceName) :
    WorkspaceName.tryFrom name.asStr = .ok name := by
  unfold tryFrom
  split
  · rename_i e h
    rw [name.valid] at h
    cases h
  · rfl

/-- A name is its text: the proof that it passed the grammar adds nothing to it. -/
theorem WorkspaceName.asStr_injective : Function.Injective WorkspaceName.asStr := fun a b h => by
  cases a
  cases b
  simpa using h

/-- Names are equal exactly if their texts are, so comparing the stored column is comparing names.
-/
@[simp] theorem WorkspaceName.asStr_inj {a b : WorkspaceName} : a.asStr = b.asStr ↔ a = b :=
  WorkspaceName.asStr_injective.eq_iff

end Core
end ThinWorkspace
