import PickIndent.Diff.Hunk
import PickIndent.Text.Lines

/-!
# Unified diffs

A diff is written as two header lines and the hunks. A hunk begins with the places and sizes of the
two stretches that it relates, and each of its lines is marked by the first character. Equal texts
have an empty diff. A last line without an end is written as it is.
-/

namespace PickIndent.Diff

/-- A stretch of `size` lines behind `start` others. The size is left out when it is one; an empty
stretch is placed at the line before it. -/
def rangeText (start size : Nat) : String :=
  if size = 1 then toString (start + 1)
  else if size = 0 then toString start ++ ",0"
  else toString (start + 1) ++ "," ++ toString size

def Hunk.header {α : Type} (h : Hunk α) : Text :=
  ("@@ -" ++ rangeText h.oldStart h.oldSize ++ " +" ++ rangeText h.newStart h.newSize ++ " @@\n").toList

def Entry.mark : Entry Text → Text
  | common line => ' ' :: line
  | removed line => '-' :: line
  | added line => '+' :: line

def Hunk.render (h : Hunk Text) : List Text := h.header :: h.entries.map Entry.mark

/-- The lines of the diff between two versions of the file `name`. -/
def unified (name : String) (old new : Text) : List Text :=
  match hunks (compareLines (endedLines old) (endedLines new)) with
  | [] => []
  | hs => ("--- " ++ name ++ "\n").toList :: ("+++ " ++ name ++ "\n").toList :: hs.flatMap Hunk.render

end PickIndent.Diff
