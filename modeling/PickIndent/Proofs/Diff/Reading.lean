import Mathlib.Data.List.Basic
import PickIndent.Proofs.Diff.Replay
import PickIndent.Proofs.Diff.Same
import PickIndent.Proofs.Text.Beginning

/-!
# Reading — what the lines of a diff say

The lines of hunks can be read again (`readHunks?_render`): the sizes in the first line of a hunk say how many lines
belong to it, and the first character of each of these says what it is.  The number at which a range is placed counts
from one, except for an empty range.  So a diff can be followed from its lines alone.  It has none if and only if the
texts are the same (`unified_eq_nil_iff`), and otherwise it leads from the lines of the old text to those of the new
one (`exists_hunks_of_unified`).
-/

namespace PickIndent.Diff

/-! ### Ranges -/

/-- The number in front of a text, and the text behind it. -/
def readNumber? (t : Text) : Option (Nat × Text) :=
  if t.takeWhile Char.isDigit = [] then none
  else some (Nat.ofDigitChars 10 (t.takeWhile Char.isDigit) 0, t.dropWhile Char.isDigit)

/-- The number of lines before a range that is placed at the line `n`: its first line or, if it is empty, the line
before it. -/
def linesBefore? (n size : Nat) : Option Nat :=
  if size = 0 then some n else if n = 0 then none else some (n - 1)

/-- Some of the lines of a list. -/
structure Range where
  /-- The number of lines before it. -/
  start : Nat
  size : Nat
  deriving DecidableEq, Repr

/-- The range in front of a text, and the text behind it. A size of one is left out. -/
def readRange? (t : Text) : Option (Range × Text) := do
  let (n, rest) ← readNumber? t
  let (size, rest) ←
    match rest with
    | ',' :: rest => readNumber? rest
    | _ => some (1, rest)
  let start ← linesBefore? n size
  return (⟨start, size⟩, rest)

/-- The old and the new range of a hunk. -/
def readHeader? (line : Text) : Option (Range × Range) := do
  let rest ← "@@ -".toList.isPrefixOf? line
  let (old, rest) ← readRange? rest
  let rest ← " +".toList.isPrefixOf? rest
  let (new, rest) ← readRange? rest
  if rest = " @@\n".toList then some (old, new) else none

theorem readNumber?_append (n : Nat) {rest : Text} (hrest : startsWithOrEnds (!Char.isDigit ·) rest = true) :
    readNumber? ((toString n).toList ++ rest) = some (n, rest) := by
  have hdigits : ∀ c ∈ Nat.toDigits 10 n, c.isDigit = true := fun c hc =>
    Nat.isDigit_of_mem_toDigits (by decide) (by decide) hc
  obtain ⟨htake, hdrop⟩ := takeWhile_append_of_stop hdigits hrest
  rw [Nat.toString_eq_ofList_toDigits, String.toList_ofList, readNumber?, htake, hdrop, if_neg Nat.toDigits_ne_nil,
    Nat.ofDigitChars_ten_toDigits]

theorem readRange?_sized (n size : Nat) {rest : Text} (hrest : startsWithOrEnds (!Char.isDigit ·) rest = true) :
    readRange? ((toString n).toList ++ ',' :: ((toString size).toList ++ rest)) =
      (linesBefore? n size).map fun start => (⟨start, size⟩, rest) := by
  rw [readRange?, readNumber?_append n rfl]
  simp only [Option.bind_eq_bind, Option.bind_some, readNumber?_append size hrest]
  cases linesBefore? n size <;> rfl

theorem readRange?_single (n : Nat) {c : Char} {rest : Text} (hdigit : c.isDigit = false) (hcomma : c ≠ ',') :
    readRange? ((toString n).toList ++ c :: rest) = (linesBefore? n 1).map fun start => (⟨start, 1⟩, c :: rest) := by
  have hrest : startsWithOrEnds (!Char.isDigit ·) (c :: rest) = true := by simp [startsWithOrEnds, hdigit]
  rw [readRange?, readNumber?_append n hrest]
  simp only [Option.bind_eq_bind, Option.bind_some]
  split
  next rest' heq => exact absurd (List.cons.inj heq).1 hcomma
  next => cases linesBefore? n 1 <;> rfl

/-- A range that is followed by another character is read as it was written. -/
theorem readRange?_append (start size : Nat) {c : Char} {rest : Text} (hdigit : c.isDigit = false) (hcomma : c ≠ ',') :
    readRange? ((rangeText start size).toList ++ c :: rest) = some (⟨start, size⟩, c :: rest) := by
  have hrest : startsWithOrEnds (!Char.isDigit ·) (c :: rest) = true := by simp [startsWithOrEnds, hdigit]
  unfold rangeText
  by_cases hsingle : size = 1
  · rw [if_pos hsingle, readRange?_single (start + 1) hdigit hcomma, hsingle]
    rfl
  have hsized := fun n => readRange?_sized n size hrest
  by_cases hempty : size = 0
  · have hzero : (",0" : String).toList = ',' :: (toString 0).toList := by decide
    rw [hempty] at hsized
    rw [if_neg hsingle, if_pos hempty, hempty, String.toList_append, hzero, List.append_assoc, List.cons_append,
      hsized]
    rfl
  · have hcomma' : (",").toList = [','] := rfl
    rw [if_neg hsingle, if_neg hempty, String.toList_append, String.toList_append, hcomma', List.append_assoc,
      List.append_assoc, List.singleton_append, hsized, linesBefore?, if_neg hempty]
    rfl

/-- The first line of a hunk says where it stands and how long it is, in both lists. -/
theorem readHeader?_header {α : Type} (h : Hunk α) :
    readHeader? h.header = some (⟨h.oldStart, h.oldSize⟩, ⟨h.newStart, h.newSize⟩) := by
  have hdrop : ∀ u rest : Text, u.isPrefixOf? (u ++ rest) = some rest := fun u rest =>
    List.isPrefixOf?_eq_some_iff_append_eq.mpr rfl
  have htext : h.header = "@@ -".toList ++ ((rangeText h.oldStart h.oldSize).toList ++ ' ' ::
      ('+' :: ((rangeText h.newStart h.newSize).toList ++ ' ' :: "@@\n".toList))) := by
    simp [Hunk.header, String.toList_append]
  rw [htext, readHeader?, hdrop]
  simp only [Option.bind_eq_bind, Option.bind_some, readRange?_append _ _ (c := ' ') rfl (by decide)]
  have hplus : ∀ rest, " +".toList.isPrefixOf? (' ' :: '+' :: rest) = some rest := fun rest => hdrop [' ', '+'] rest
  rw [hplus]
  simp only [Option.bind_some, readRange?_append _ _ (c := ' ') rfl (by decide)]
  rfl

example : readHeader? "@@ -0,0 +1 @@\n".toList = some (⟨0, 0⟩, ⟨0, 1⟩) := by decide

/-! ### Hunks -/

def readEntry? : Text → Option (Entry Text)
  | ' ' :: line => some (.common line)
  | '-' :: line => some (.removed line)
  | '+' :: line => some (.added line)
  | _ => none

theorem readEntry?_mark (e : Entry Text) : readEntry? e.mark = some e := by
  cases e <;> rfl

/-- Reads the lines of hunks, where the hunk before them still lacks `m` old and `n` new lines: what belongs to that
hunk, and the later ones. -/
def readHunks? (m n : Nat) : List Text → Option (List (Entry Text) × List (Hunk Text))
  | [] => if m = 0 ∧ n = 0 then some ([], []) else none
  | line :: lines =>
    if m = 0 ∧ n = 0 then do
      let (old, new) ← readHeader? line
      let (es, hs) ← readHunks? old.size new.size lines
      return ([], ⟨old.start, new.start, es⟩ :: hs)
    else do
      let e ← readEntry? line
      if e.old?.toList.length ≤ m ∧ e.new?.toList.length ≤ n then
        let (es, hs) ← readHunks? (m - e.old?.toList.length) (n - e.new?.toList.length) lines
        return (e :: es, hs)
      else none

/-- A hunk lacks exactly the lines of its entries, until the last of them has been read. -/
theorem readHunks?_entries (es : List (Entry Text)) (lines : List Text) :
    readHunks? (oldLines es).length (newLines es).length (es.map Entry.mark ++ lines) =
      (readHunks? 0 0 lines).map fun p => (es ++ p.1, p.2) := by
  induction es with
  | nil => simp [oldLines, newLines]
  | cons e es ih =>
    -- every entry stands for a line on one side at least
    have hlacks : ¬((oldLines (e :: es)).length = 0 ∧ (newLines (e :: es)).length = 0) := by
      cases e <;> simp [oldLines_cons, newLines_cons, Entry.old?, Entry.new?]
    rw [List.map_cons, List.cons_append, readHunks?, if_neg hlacks, readEntry?_mark]
    simp only [Option.bind_eq_bind, Option.bind_some, oldLines_cons, newLines_cons, List.length_append,
      Nat.le_add_right, and_self, if_true, Nat.add_sub_cancel_left, ih]
    cases readHunks? 0 0 lines <;> rfl

/-- **The lines of hunks say what the hunks are.** -/
theorem readHunks?_render (hs : List (Hunk Text)) : readHunks? 0 0 (hs.flatMap Hunk.render) = some ([], hs) := by
  induction hs with
  | nil => rfl
  | cons h hs ih =>
    have hentries := readHunks?_entries h.entries (hs.flatMap Hunk.render)
    rw [ih] at hentries
    rw [List.flatMap_cons, Hunk.render, List.cons_append, readHunks?, if_pos ⟨rfl, rfl⟩, readHeader?_header]
    simp only [Option.bind_eq_bind, Option.bind_some, Hunk.oldSize, Hunk.newSize, hentries]
    simp

/-! ### The diff -/

section Diff

variable (name : String) {old new : Text}

theorem unified_of_hunks (hne : hunks (compareLines (endedLines old) (endedLines new)) ≠ []) :
    unified name old new = ("--- " ++ name ++ "\n").toList :: ("+++ " ++ name ++ "\n").toList ::
      (hunks (compareLines (endedLines old) (endedLines new))).flatMap Hunk.render := by
  rw [unified]
  split
  next hnil => exact absurd hnil hne
  next => rfl

/-- **A diff has no lines if and only if the texts are the same.** -/
theorem unified_eq_nil_iff : unified name old new = [] ↔ old = new := by
  constructor
  · intro hnil
    by_cases hhunks : hunks (compareLines (endedLines old) (endedLines new)) = []
    · have hlines := oldLines_eq_newLines_of_hunks hhunks
      rw [compareLines, oldLines_script, newLines_script] at hlines
      rw [← flatten_endedLines old, hlines, flatten_endedLines]
    · rw [unified_of_hunks name hhunks] at hnil
      exact absurd hnil (List.cons_ne_nil _ _)
  · rintro rfl
    exact unified_self name old

/-- **A diff leads from the lines of the one text to those of the other.** -/
theorem exists_hunks_of_unified (hne : unified name old new ≠ []) :
    ∃ body hs,
      unified name old new = ("--- " ++ name ++ "\n").toList :: ("+++ " ++ name ++ "\n").toList :: body ∧
      readHunks? 0 0 body = some ([], hs) ∧ hs.Pairwise Hunk.Before ∧
      replayFrom 0 0 hs (endedLines old) = some (endedLines new) := by
  have hhunks : hunks (compareLines (endedLines old) (endedLines new)) ≠ [] := by
    intro hnil
    exact hne (by rw [unified, hnil])
  have hreplay := replayFrom_hunks (compareLines (endedLines old) (endedLines new))
  rw [compareLines, oldLines_script, newLines_script] at hreplay
  exact ⟨_, _, unified_of_hunks name hhunks, readHunks?_render _, hunks_pairwise _, hreplay⟩

end Diff

end PickIndent.Diff
