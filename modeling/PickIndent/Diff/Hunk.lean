import PickIndent.Diff.Script

/-!
# Hunks — the parts of a script worth showing

Every change is shown together with the common lines that are within three lines of it. What is shown
without a gap is one hunk, and a hunk knows how many lines of the old and of the new list come before
it.
-/

namespace PickIndent.Diff

variable {α : Type}

/-- The number of common lines shown before and after a change. -/
def contextSize : Nat := 3

/-- Marks the entries to show, where the first `due` of them are near a change that came before. -/
def markShown (due : Nat) : List (Entry α) → List (Bool × Entry α)
  | [] => []
  | e :: es =>
    if e.isChange then (true, e) :: markShown contextSize es
    else (0 < due || (es.take contextSize).any Entry.isChange, e) :: markShown (due - 1) es

structure Hunk (α : Type) where
  /-- The number of old lines before the hunk. -/
  oldStart : Nat
  /-- The number of new lines before the hunk. -/
  newStart : Nat
  entries : List (Entry α)
  deriving DecidableEq, Repr

namespace Hunk

def oldSize (h : Hunk α) : Nat := (oldLines h.entries).length

def newSize (h : Hunk α) : Nat := (newLines h.entries).length

end Hunk

/-- The hunks of a marked script that has `i` old and `j` new lines before it. -/
def hunksFrom (i j : Nat) : List (Bool × Entry α) → List (Hunk α)
  | [] => []
  | (shown, e) :: es =>
    let later := hunksFrom (i + e.old?.toList.length) (j + e.new?.toList.length) es
    if shown then
      match es.head?, later with
      | some (true, _), h :: hs => ⟨i, j, e :: h.entries⟩ :: hs
      | _, hs => ⟨i, j, [e]⟩ :: hs
    else later

/-- The hunks of a script. -/
def hunks (es : List (Entry α)) : List (Hunk α) := hunksFrom 0 0 (markShown 0 es)

end PickIndent.Diff
