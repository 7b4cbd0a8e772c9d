import PickIndent.Proofs.Nesting.Step
import PickIndent.Proofs.Pass.Levels

/-!
# Walks — a pass over a part of a program

Inside a program the pass takes one line after the other and leads from one nesting to another (`walk`).
The rule for the `END` that ends a program is the only one that looks ahead, and it changes nothing where the
part ends outermost (`levelsFrom_of_walk`).
-/

namespace PickIndent

/-- The levels of lines that more code follows, and the nesting they lead to. -/
def walk (d : Dialect) (n : Nat) (s : Nesting) :
    List Text → Except PassError (List (Option Int) × Nesting)
  | [] => .ok ([], s)
  | line :: later =>
    if isBlankText line then (walk d (n + 1) s later).map fun r => (none :: r.1, r.2)
    else
      match classify d line with
      | .error e => .error (.lexical e)
      | .ok c =>
        match s.visit c false with
        | .error fault => .error (.structural ⟨n, fault⟩)
        | .ok (level, s') => (walk d (n + 1) s' later).map fun r => (some level :: r.1, r.2)

/-- Lines that more code follows, each written at its level, and the nesting they lead to. -/
def formatPart (o : Options) (n : Nat) (s : Nesting) (lines : List Text) :
    Except PassError (List Text × Nesting) :=
  (walk o.toDialect n s lines).map fun r => (List.zipWith (place o.toStyle) lines r.1, r.2)

variable {d : Dialect} {n : Nat} {s t : Nesting} {c : Classification} {line : Text} {later : List Text}
  {ls : List (Option Int)}

/-! ### One line -/

namespace Nesting

theorem visit_of_enter {m : Nesting} (h : s.enter c = .ok m) (hm : 0 ≤ m.level) :
    s.visit c false = .ok (m.level, m.leave c) := by
  rw [visit_eq h (fun _ => hm), if_neg (by simp), if_neg (by omega)]

/-- The `END` that ends a program is not moved if it stands outermost. -/
theorem visit_final {level : Int} (hc : c.Regular) (h : s.visit c false = .ok (level, t)) (ht : t.level = 0)
    (final : Bool) : s.visit c final = .ok (level, t) := by
  unfold visit at h ⊢
  cases he : s.enter c with
  | error fault => simp [he] at h
  | ok m =>
    simp only [he] at h ⊢
    have hsettle : m.settle c final = m.settle c false := by
      by_cases hend : c.keyword = some .blockEnd
      · have hm : m.settle c false = m := by simp [settle, hend]
        rw [hm] at h
        split at h
        next => simp at h
        next =>
          obtain ⟨-, rfl⟩ := (Prod.mk.injEq ..).mp (Except.ok.inj h)
          -- an `END` opens nothing, so it stands at the level it leads to
          rw [leave, if_neg (by simp [(hc.finishes hend).1])] at ht
          rw [hm, settle, ← ht]
          simp
      · simp [settle, hend]
    rw [hsettle]
    exact h

end Nesting

theorem walk_blank (h : isBlankText line = true) (hlater : walk d (n + 1) s later = .ok (ls, t)) :
    walk d n s (line :: later) = .ok (none :: ls, t) := by
  rw [walk, if_pos h, hlater]
  rfl

theorem walk_visit {m : Nesting} {level : Int} (h : isBlankText line = false) (hc : classify d line = .ok c)
    (hv : s.visit c false = .ok (level, m)) (hlater : walk d (n + 1) m later = .ok (ls, t)) :
    walk d n s (line :: later) = .ok (some level :: ls, t) := by
  rw [walk, if_neg (by simp [h]), hc]
  simp only [hv, hlater]
  rfl

theorem walk_cons_ok (h : walk d n s (line :: later) = .ok (ls, t)) :
    (isBlankText line = true ∧ ∃ ls', walk d (n + 1) s later = .ok (ls', t) ∧ ls = none :: ls') ∨
    (isBlankText line = false ∧ ∃ c level m ls', classify d line = .ok c ∧
      s.visit c false = .ok (level, m) ∧ walk d (n + 1) m later = .ok (ls', t) ∧ ls = some level :: ls') := by
  rw [walk] at h
  split at h
  next hb =>
    obtain ⟨r, hwalk, hr⟩ := map_eq_ok_iff.mp h
    obtain ⟨rfl, rfl⟩ := Prod.mk.inj hr
    exact Or.inl ⟨hb, r.1, hwalk, rfl⟩
  next hb =>
    cases hc : classify d line with
    | error e => simp [hc] at h
    | ok c =>
      cases hv : s.visit c false with
      | error fault => simp [hc, hv] at h
      | ok placed =>
        obtain ⟨level, m⟩ := placed
        simp only [hc, hv] at h
        obtain ⟨r, hwalk, hr⟩ := map_eq_ok_iff.mp h
        obtain ⟨rfl, rfl⟩ := Prod.mk.inj hr
        exact Or.inr ⟨by simpa using hb, c, level, m, r.1, rfl, hv, hwalk, rfl⟩

/-! ### All lines -/

theorem walk_append {m : Nesting} {as bs : List Text} {ls' : List (Option Int)}
    (has : walk d n s as = .ok (ls, m)) (hbs : walk d (n + as.length) m bs = .ok (ls', t)) :
    walk d n s (as ++ bs) = .ok (ls ++ ls', t) := by
  induction as generalizing n s ls with
  | nil =>
    obtain ⟨rfl, rfl⟩ : [] = ls ∧ s = m := by simpa [walk] using has
    exact hbs
  | cons line as ih =>
    have hbs' : walk d (n + 1 + as.length) m bs = .ok (ls', t) := by
      rwa [List.length_cons, Nat.add_comm as.length, ← Nat.add_assoc] at hbs
    rcases walk_cons_ok has with ⟨hb, ls₁, hwalk, rfl⟩ | ⟨hb, c, level, m₁, ls₁, hc, hv, hwalk, rfl⟩
    · exact walk_blank hb (ih hwalk hbs')
    · exact walk_visit hb hc hv (ih hwalk hbs')

theorem walk_of_blank (h : later.all isBlankText = true) (hwalk : walk d n s later = .ok (ls, t)) : t = s := by
  induction later generalizing n s ls with
  | nil => exact ((Prod.mk.injEq ..).mp (Except.ok.inj hwalk)).2.symm
  | cons line later ih =>
    rw [List.all_cons, Bool.and_eq_true] at h
    rcases walk_cons_ok hwalk with ⟨-, ls', hlater, -⟩ | ⟨hb, -⟩
    · exact ih h.2 hlater
    · exact absurd (hb.symm.trans h.1) Bool.false_ne_true

/-- The pass over a part of a program that code follows. -/
theorem levelsFrom_append (h : walk d n s later = .ok (ls, t)) {after : List Text}
    (hafter : after.all isBlankText = false) :
    levelsFrom d n s (later ++ after) = (levelsFrom d (n + later.length) t after).map (ls ++ ·) := by
  induction later generalizing n s ls with
  | nil =>
    obtain ⟨rfl, rfl⟩ : [] = ls ∧ s = t := by simpa [walk] using h
    show levelsFrom d n s after = (levelsFrom d n s after).map ([] ++ ·)
    cases levelsFrom d n s after <;> rfl
  | cons line later ih =>
    have hlength : n + (line :: later).length = n + 1 + later.length := by rw [List.length_cons]; omega
    rw [hlength, List.cons_append]
    rcases walk_cons_ok h with ⟨hb, ls', hlater, rfl⟩ | ⟨hb, c, level, m, ls', hc, hv, hlater, rfl⟩
    · rw [levelsFrom_blank hb, ih hlater]
      cases levelsFrom d (n + 1 + later.length) t after <;> rfl
    · have hfinal : s.visit c ((later ++ after).all isBlankText) = .ok (level, m) := by
        rw [List.all_append, hafter, Bool.and_false]
        exact hv
      rw [levelsFrom_visit hb hc hfinal, ih hlater]
      cases levelsFrom d (n + 1 + later.length) t after <;> rfl

/-- **A program that ends outermost is laid out line by line**, its last `END` with the others. -/
theorem levelsFrom_of_walk (hreturn : d.returnCloses = false) (h : walk d n s later = .ok (ls, t))
    (ht : t.level = 0) : levelsFrom d n s later = .ok ls := by
  induction later generalizing n s ls with
  | nil =>
    obtain ⟨rfl, rfl⟩ : [] = ls ∧ s = t := by simpa [walk] using h
    rfl
  | cons line later ih =>
    rcases walk_cons_ok h with ⟨hb, ls', hlater, rfl⟩ | ⟨hb, c, level, m, ls', hc, hv, hlater, rfl⟩
    · rw [levelsFrom_blank hb, ih hlater]
      rfl
    · have hfinal : s.visit c (later.all isBlankText) = .ok (level, m) := by
        cases hall : later.all isBlankText with
        | false => exact hv
        | true =>
          -- the last line with code leads to the end of the walk
          obtain rfl := walk_of_blank hall hlater
          exact Nesting.visit_final (classify_regular hreturn hc) hv ht true
      rw [levelsFrom_visit hb hc hfinal, ih hlater]
      rfl

end PickIndent
