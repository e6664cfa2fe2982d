import EnumLabels.Proofs.Report.Prediction
import EnumLabels.Proofs.Text.Lines
import EnumLabels.Proofs.Text.Utf8

/-!
# Files that encode a text and files that cannot be read

A file can be read when its bytes are the UTF-8 encoding of a text, and a scan of it is then one of
that text. Otherwise the scan fails with the path of the file, unless the file may be missing: then
it finds no labels and warns with the words of that failure. Nothing else is turned into a warning,
so a negative position and a case without a name are errors even then.
-/

namespace EnumLabels

section Loading

variable {d : Directory} {path : String} (hpath : Directory.hasNul path = false)
include hpath

/-- The lines of a file are those of the text that it encodes. -/
theorem loadLines_of_encode {text : List Char} (hread : d.read path = .ok (Text.Utf8.encode text)) :
    loadLines d path = .ok (Text.lines text) := by
  have hdecode : Text.Utf8.decode (Text.Utf8.encode text) = .ok text :=
    Text.Utf8.decode_eq_ok_iff.mpr rfl
  rw [loadLines, hpath, if_neg Bool.false_ne_true, Directory.readText, hread]
  simp only [hdecode]

/-- A path that leads to no file cannot be loaded. -/
theorem loadLines_of_fault {fault : FileFault} (hread : d.read path = .error fault) :
    loadLines d path = .error (.unreadable path fault.reason) := by
  rw [loadLines, hpath, if_neg Bool.false_ne_true, Directory.readText, hread]

/-- A file that encodes no text cannot be loaded. -/
theorem loadLines_of_ne_encode {bytes : List UInt8} (hread : d.read path = .ok bytes)
    (hbytes : ∀ text, bytes ≠ Text.Utf8.encode text) :
    ∃ fault, loadLines d path = .error (.unreadable path (FileFault.notUtf8 fault).reason) := by
  rw [loadLines, hpath, if_neg Bool.false_ne_true, Directory.readText, hread]
  cases hdecode : Text.Utf8.decode bytes with
  | error fault => exact ⟨fault, by simp only [hdecode]⟩
  | ok text => exact absurd (Text.Utf8.decode_eq_ok_iff.mp hdecode) (hbytes text)

end Loading

/-- A scan of a file fails because the file cannot be read, or if it may be missing, finds no labels
and warns once with the words of that failure. -/
structure FailsToRead (d : Directory) (s : Settings) (position : Position) (skip : Option Bool)
    (reason : String) : Prop where
  fails : scanFile d s position skip false = .error (.unreadable position.path reason)
  warns : ∃ warning, scanFile d s position skip true = .ok ⟨[], [warning]⟩ ∧
    CodeString.chars warning = (Error.unreadable position.path reason).message ++
      CodeString.chars "; no labels extracted"

/-- A scan of a file that cannot be loaded fails or warns. -/
theorem failsToRead_of_loadLines {d : Directory} {path reason : String} {line column : Int}
    (hline : 0 ≤ line) (hcolumn : 0 ≤ column) (s : Settings) (skip : Option Bool)
    (hload : loadLines d path = .error (.unreadable path reason)) :
    FailsToRead d s ⟨path, line, column⟩ skip reason := by
  refine ⟨scanFile_of_error hline hcolumn hload s skip, _, ?_, rfl⟩
  rw [scanFile, Position.check_of_nonneg hline hcolumn]
  simp only [bind, Except.bind, hload, if_true]
  rfl

end EnumLabels
