import Mathlib.Data.List.Forall2
import PickIndent.Pass
import PickIndent.Proofs.Result

/-!
# Levels — the pass from line to line

The equations of the pass for a blank line, for a line that finds its place and for one that finds none,
and what follows for all lines: every line is given a level unless it is blank (`levelsFrom_forall₂`), and
the levels depend on nothing but which lines are blank and how the others are classified
(`levelsFrom_congr`).
-/

namespace PickIndent

variable {d : Dialect} {n : Nat} {s : Nesting}

/-! ### One line -/

theorem levelsFrom_blank {line : Text} (h : isBlankText line = true) (later : List Text) :
    levelsFrom d n s (line :: later) = (levelsFrom d (n + 1) s later).map (none :: ·) := by
  rw [levelsFrom, if_pos h]

theorem levelsFrom_lexical {line : Text} {e : StrayNewline} (h : isBlankText line = false)
    (hc : classify d line = .error e) (later : List Text) :
    levelsFrom d n s (line :: later) = .error (.lexical e) := by
  rw [levelsFrom, if_neg (by simp [h]), hc]

theorem levelsFrom_fault {line : Text} {c : Classification} {fault : Fault} {later : List Text}
    (h : isBlankText line = false) (hc : classify d line = .ok c)
    (hv : s.visit c (later.all isBlankText) = .error fault) :
    levelsFrom d n s (line :: later) = .error (.structural ⟨n, fault⟩) := by
  rw [levelsFrom, if_neg (by simp [h]), hc]
  simp only [hv]

theorem levelsFrom_visit {line : Text} {c : Classification} {level : Int} {s' : Nesting}
    {later : List Text} (h : isBlankText line = false) (hc : classify d line = .ok c)
    (hv : s.visit c (later.all isBlankText) = .ok (level, s')) :
    levelsFrom d n s (line :: later) = (levelsFrom d (n + 1) s' later).map (some level :: ·) := by
  rw [levelsFrom, if_neg (by simp [h]), hc]
  simp only [hv]

/-- What a pass that gets through has done with the first line. -/
theorem levelsFrom_cons_ok {line : Text} {later : List Text} {ls : List (Option Int)}
    (h : levelsFrom d n s (line :: later) = .ok ls) :
    (isBlankText line = true ∧ ∃ ls', levelsFrom d (n + 1) s later = .ok ls' ∧ ls = none :: ls') ∨
    (isBlankText line = false ∧ ∃ c level s' ls', classify d line = .ok c ∧
      s.visit c (later.all isBlankText) = .ok (level, s') ∧
      levelsFrom d (n + 1) s' later = .ok ls' ∧ ls = some level :: ls') := by
  cases hb : isBlankText line with
  | true =>
    rw [levelsFrom_blank hb] at h
    obtain ⟨ls', hl, rfl⟩ := map_eq_ok_iff.mp h
    exact Or.inl ⟨rfl, ls', hl, rfl⟩
  | false =>
    cases hc : classify d line with
    | error e => simp [levelsFrom_lexical hb hc] at h
    | ok c =>
      cases hv : s.visit c (later.all isBlankText) with
      | error fault => simp [levelsFrom_fault hb hc hv] at h
      | ok placed =>
        obtain ⟨level, s'⟩ := placed
        rw [levelsFrom_visit hb hc hv] at h
        obtain ⟨ls', hl, rfl⟩ := map_eq_ok_iff.mp h
        exact Or.inr ⟨rfl, c, level, s', ls', rfl, hv, hl, rfl⟩

/-- Where a pass that fails has failed. -/
theorem levelsFrom_cons_error {line : Text} {later : List Text} {e : PassError}
    (h : levelsFrom d n s (line :: later) = .error e) :
    (isBlankText line = true ∧ levelsFrom d (n + 1) s later = .error e) ∨
    (isBlankText line = false ∧ ((∃ e', classify d line = .error e' ∧ e = .lexical e') ∨
      ∃ c, classify d line = .ok c ∧
        ((∃ fault, s.visit c (later.all isBlankText) = .error fault ∧ e = .structural ⟨n, fault⟩) ∨
          ∃ level s', s.visit c (later.all isBlankText) = .ok (level, s') ∧
            levelsFrom d (n + 1) s' later = .error e))) := by
  cases hb : isBlankText line with
  | true =>
    rw [levelsFrom_blank hb] at h
    exact Or.inl ⟨rfl, map_eq_error_iff.mp h⟩
  | false =>
    refine Or.inr ⟨rfl, ?_⟩
    cases hc : classify d line with
    | error e' =>
      rw [levelsFrom_lexical hb hc] at h
      exact Or.inl ⟨e', rfl, (Except.error.inj h).symm⟩
    | ok c =>
      refine Or.inr ⟨c, rfl, ?_⟩
      cases hv : s.visit c (later.all isBlankText) with
      | error fault =>
        rw [levelsFrom_fault hb hc hv] at h
        exact Or.inl ⟨fault, rfl, (Except.error.inj h).symm⟩
      | ok placed =>
        rw [levelsFrom_visit hb hc hv] at h
        exact Or.inr ⟨placed.1, placed.2, rfl, map_eq_error_iff.mp h⟩

/-! ### All lines -/

/-- **Every line is given a level unless it is blank.** -/
theorem levelsFrom_forall₂ {lines : List Text} {ls : List (Option Int)}
    (h : levelsFrom d n s lines = .ok ls) :
    List.Forall₂ (fun line level => isBlankText line = level.isNone) lines ls := by
  induction lines generalizing n s ls with
  | nil =>
    obtain rfl : [] = ls := by simpa [levelsFrom] using h
    exact .nil
  | cons line later ih =>
    obtain ⟨hb, ls', hl, rfl⟩ | ⟨hb, c, level, s', ls', -, -, hl, rfl⟩ := levelsFrom_cons_ok h
    · exact .cons hb (ih hl)
    · exact .cons hb (ih hl)

/-- The levels are those of any lines that are blank and are classified as these. -/
theorem levelsFrom_congr {as bs : List Text}
    (h : List.Forall₂ (fun a b => isBlankText a = isBlankText b ∧ classify d a = classify d b) as bs) :
    levelsFrom d n s as = levelsFrom d n s bs := by
  have hall : ∀ {as bs : List Text},
      List.Forall₂ (fun a b => isBlankText a = isBlankText b ∧ classify d a = classify d b) as bs →
        as.all isBlankText = bs.all isBlankText := by
    intro as bs h
    induction h with
    | nil => rfl
    | cons hab _ ih => rw [List.all_cons, List.all_cons, hab.1, ih]
  induction h generalizing n s with
  | nil => rfl
  | cons hab hlater ih =>
    unfold levelsFrom
    simp only [hab.1, hab.2, hall hlater, ih]

/-! ### Formatting -/

theorem place_eq (s : Style) : place s = fun line level? => level?.elim [] (renderLine s · line) := by
  funext line level?
  cases level? <;> rfl

theorem formatLines_eq_ok_iff {o : Options} {lines out : List Text} :
    formatLines o lines = .ok out ↔
      ∃ ls, levels o.toDialect lines = .ok ls ∧ out = List.zipWith (place o.toStyle) lines ls := by
  simp only [formatLines, map_eq_ok_iff, eq_comm (a := out)]

theorem formatLines_eq_error_iff {o : Options} {lines : List Text} {e : PassError} :
    formatLines o lines = .error e ↔ levels o.toDialect lines = .error e := by
  rw [formatLines, map_eq_error_iff]

/-- What holds of every line and its rendering, at whatever level, and of every blank line and the empty
line, holds of the lines of a program and those of the result. -/
theorem formatLines_forall₂ {o : Options} {R : Text → Text → Prop} {lines out : List Text}
    (hblank : ∀ line ∈ lines, isBlankText line = true → R line [])
    (hcode : ∀ line ∈ lines, isBlankText line = false → ∀ level, R line (renderLine o.toStyle level line))
    (h : formatLines o lines = .ok out) : List.Forall₂ R lines out := by
  obtain ⟨ls, hls, rfl⟩ := formatLines_eq_ok_iff.mp h
  clear h
  have hlevels := levelsFrom_forall₂ hls
  clear hls
  induction hlevels with
  | nil => exact .nil
  | @cons line level later ls hb _ ih =>
    refine .cons ?_ (ih (fun l hl => hblank l (List.mem_cons_of_mem _ hl))
      fun l hl => hcode l (List.mem_cons_of_mem _ hl))
    cases level with
    | none => exact hblank line (by simp) hb
    | some level => exact hcode line (by simp) hb level

theorem length_formatLines {o : Options} {lines out : List Text} (h : formatLines o lines = .ok out) :
    out.length = lines.length :=
  (formatLines_forall₂ (R := fun _ _ => True) (fun _ _ _ => trivial) (fun _ _ _ _ => trivial) h).length_eq.symm

end PickIndent
