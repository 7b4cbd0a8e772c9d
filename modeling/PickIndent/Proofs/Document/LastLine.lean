import PickIndent.Document
import PickIndent.Proofs.Pass.Outcome

/-!
# The last line with code

The `END` that ends a program stands on its last line that is not blank.  That line has an index (`lastCodeLine?`), and
it is the line behind which all lines are blank (`all_isBlankText_drop`).  So a pass that compares the index of each
line with it does what the pass does that looks ahead (`levels_eq_levelsByIndex`), and an `END` there always has its
place, at the left (`levelAt_lastCodeLine?`).
-/

namespace PickIndent

variable {d : Dialect} {lines : List Text} {line : Text} {i : Nat}

/-! ### The index of the last line -/

theorem lastCodeLine?_cons (line : Text) (lines : List Text) :
    lastCodeLine? (line :: lines) =
      ((lastCodeLine? lines).map (· + 1)).or (if isBlankText line then none else some 0) := by
  rw [lastCodeLine?, lastCodeLine?, List.reverse_cons, List.findIdx?_append]
  cases hlast : lines.reverse.findIdx? (!isBlankText ·) with
  | none => cases hb : isBlankText line <;> simp [List.findIdx?_cons, hb]
  | some j =>
    have hj : j < lines.length := by
      simpa using (List.findIdx?_eq_some_iff_findIdx_eq.mp hlast).1
    simp only [Option.some_or, Option.map_some, List.length_cons, Option.some.injEq]
    omega

theorem lastCodeLine?_eq_none_iff : lastCodeLine? lines = none ↔ lines.all isBlankText = true := by
  induction lines with
  | nil => simp [lastCodeLine?]
  | cons line lines ih =>
    rw [lastCodeLine?_cons, List.all_cons]
    cases isBlankText line <;> simp [ih]

/-- The last line with code is the one behind which all lines are blank. -/
theorem lastCodeLine?_eq_some_iff :
    lastCodeLine? lines = some i ↔
      (∃ line, lines[i]? = some line ∧ isBlankText line = false) ∧ (lines.drop (i + 1)).all isBlankText = true := by
  induction lines generalizing i with
  | nil => simp [lastCodeLine?]
  | cons line lines ih =>
    rw [lastCodeLine?_cons]
    cases i with
    | zero =>
      rw [List.drop_succ_cons, List.drop_zero, ← lastCodeLine?_eq_none_iff]
      cases lastCodeLine? lines <;> cases hb : isBlankText line <;> simp [hb]
    | succ i =>
      rw [List.drop_succ_cons, List.getElem?_cons_succ, ← ih]
      cases lastCodeLine? lines <;> cases isBlankText line <;> simp

theorem all_isBlankText_drop (hline : lines[i]? = some line) (hcode : isBlankText line = false) :
    (lines.drop (i + 1)).all isBlankText = decide (lastCodeLine? lines = some i) := by
  rw [Bool.eq_iff_iff, decide_eq_true_iff, lastCodeLine?_eq_some_iff]
  exact ⟨fun h => ⟨⟨line, hline, hcode⟩, h⟩, And.right⟩

/-! ### A pass that is told the last line -/

/-- The levels of the lines with the indices from `i` on, if the last line with code has the index `last?`. -/
def levelsByIndex (d : Dialect) (last? : Option Nat) (i : Nat) (s : Nesting) :
    List Text → Except PassError (List (Option Int))
  | [] => .ok []
  | line :: later =>
    if isBlankText line then (levelsByIndex d last? (i + 1) s later).map (none :: ·)
    else
      match classify d line with
      | .error e => .error (.lexical e)
      | .ok c =>
        match s.visit c (last? = some i) with
        | .error fault => .error (.structural ⟨(i + 1 : Nat), fault⟩)
        | .ok (level, s') => (levelsByIndex d last? (i + 1) s' later).map (some level :: ·)

theorem levelsFrom_eq_levelsByIndex (front : List Text) (s : Nesting) (lines : List Text) :
    levelsFrom d (front.length + 1) s lines =
      levelsByIndex d (lastCodeLine? (front ++ lines)) front.length s lines := by
  induction lines generalizing front s with
  | nil => rfl
  | cons line later ih =>
    have ih := ih (front ++ [line])
    rw [List.length_append, List.length_singleton, List.append_assoc, List.singleton_append] at ih
    cases hb : isBlankText line with
    | true => rw [levelsFrom_blank hb, levelsByIndex, if_pos hb, ih]
    | false =>
      have hline : (front ++ line :: later)[front.length]? = some line := by simp
      have hdrop : (front ++ line :: later).drop (front.length + 1) = later := by simp
      have hlast := all_isBlankText_drop hline hb
      rw [hdrop] at hlast
      rw [levelsByIndex, if_neg (by simp [hb])]
      cases hc : classify d line with
      | error e => rw [levelsFrom_lexical hb hc]
      | ok c =>
        cases hv : s.visit c (later.all isBlankText) with
        | error fault => simp only [levelsFrom_fault hb hc hv, ← hlast, hv]
        | ok placed => simp only [levelsFrom_visit hb hc hv, ih, ← hlast, hv]

/-- **The pass that looks ahead is the pass that is told the last line with code.** -/
theorem levels_eq_levelsByIndex (d : Dialect) (lines : List Text) :
    levels d lines = levelsByIndex d (lastCodeLine? lines) 0 .outermost lines :=
  levelsFrom_eq_levelsByIndex [] .outermost lines

/-! ### The `END` that ends a program -/

theorem levelAt_lastCodeLine? {c : Classification} (hlast : lastCodeLine? lines = some i)
    (hc : lines[i]?.bind (token? d) = some c) (hend : c.keyword = some .blockEnd) (before : List Classification) :
    faultAt d before lines i = none ∧ levelAt d before lines i = some 0 := by
  have hblank := (lastCodeLine?_eq_some_iff.mp hlast).2
  rw [faultAt, levelAt, hc, hblank]
  simp [faultOf, levelOf, hend]

end PickIndent
