/-
# IncomUdon.Lib.Disk — files read and written whole, and writes that fail on the way.

A `Disk` holds the bytes of each file. Writing opens the file, which truncates or creates it, and then writes the
bytes; how far that gets is up to the environment (`WriteOutcome`). A write that fails after the file was opened
leaves the bytes written so far and nothing of what the file held before.
-/
import IncomUdon.Lib.Text
import Mathlib.Logic.Function.Basic

namespace IncomUdon.Lib

/-- The bytes of each file; none where there is no file. -/
abbrev Disk := Str → Option Bytes

/-- How a write ends. -/
inductive WriteOutcome where
  /-- The file cannot be opened for writing. -/
  | refused (error : IoError)
  /-- The file is open, and `written` bytes later the write fails. -/
  | cut (written : Nat) (error : IoError)
  | complete
  deriving DecidableEq, Repr

namespace Disk

/-- The disk where the file at `path` holds `bytes`. -/
def put (disk : Disk) (path : Str) (bytes : Bytes) : Disk := Function.update disk path (some bytes)

@[simp] theorem put_self (disk : Disk) (path : Str) (bytes : Bytes) : disk.put path bytes path = some bytes :=
  Function.update_self ..

/-- `fs::write`. -/
def write (disk : Disk) (path : Str) (bytes : Bytes) : WriteOutcome → Except IoError Unit × Disk
  | .refused error => (.error error, disk)
  | .cut written error => (.error error, disk.put path (bytes.take written))
  | .complete => (.ok (), disk.put path bytes)

/-- `fs::read_to_string`. -/
def readToString (disk : Disk) (path : Str) : Except IoError Str :=
  match disk path with
  | none => .error ⟨.other, "No such file or directory (os error 2)"⟩
  | some bytes => (fromUtf8 bytes).elim (.error ⟨.other, "stream did not contain valid UTF-8"⟩) .ok

/-- What is read is the text whose UTF-8 form the file holds. -/
theorem readToString_eq_ok_iff {disk : Disk} {path : Str} {text : Str} :
    disk.readToString path = .ok text ↔ disk path = some (asBytes text) := by
  unfold readToString
  cases hfile : disk path with
  | none => exact ⟨fun h => (nomatch h), fun h => (nomatch h)⟩
  | some bytes =>
    simp only [Option.some.injEq]
    rw [← fromUtf8_eq_some_iff]
    cases hdecode : fromUtf8 bytes with
    | none => exact ⟨fun h => (nomatch h), fun h => (nomatch h)⟩
    | some text' => simp

end Disk

end IncomUdon.Lib
