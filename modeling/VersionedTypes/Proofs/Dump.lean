import Mathlib.Data.List.Basic
import VersionedTypes.Dump

/-!
# The text of a dump

* `Dump.Line.body`, `Dump.Line.toList_text`: the characters of a line;
* `Dump.toList_text_append`, `Dump.toList_text_flatMap`: the text of lines, part by part.
-/

namespace VersionedTypes

/-- Without colors a piece is shown as its text. -/
@[simp]
theorem Piece.paint_off (piece : Piece) : piece.paint Palette.off = piece.text := by
  obtain ⟨hue, text⟩ := piece
  cases hue <;> simp [paint, Palette.start?, Palette.off]

namespace Dump

variable {p : Palette}

namespace Line

/-- The line without its end: its blanks and its painted pieces. -/
def body (p : Palette) (l : Line) : List Char :=
  List.replicate (2 * l.depth) ' ' ++ l.pieces.flatMap fun piece => (piece.paint p).toList

theorem toList_text (l : Line) : (l.text p).toList = l.body p ++ ['\n'] := by
  have hblanks : ∀ n, (List.replicate n "  ").flatMap String.toList
      = List.replicate (2 * n) ' ' := by
    intro n
    induction n with
    | zero => rfl
    | succ n ih => rw [List.replicate_succ, List.flatMap_cons, ih]; rfl
  rw [text, String.toList_append, String.toList_append, String.toList_join, String.toList_join,
    hblanks, List.flatMap_map]
  rfl

end Line

theorem toList_text (lines : List Line) :
    (text p lines).toList = lines.flatMap fun l => (l.text p).toList := by
  rw [text, String.toList_join, List.flatMap_map]

theorem toList_text_append (lines lines' : List Line) :
    (text p (lines ++ lines')).toList = (text p lines).toList ++ (text p lines').toList := by
  rw [toList_text, toList_text, toList_text, List.flatMap_append]

theorem toList_text_flatMap {α : Type} (xs : List α) (lines : α → List Line) :
    (text p (xs.flatMap lines)).toList = xs.flatMap fun x => (text p (lines x)).toList := by
  rw [toList_text, List.flatMap_assoc]
  exact List.flatMap_congr fun x _ => (toList_text (lines x)).symm

end Dump

end VersionedTypes
