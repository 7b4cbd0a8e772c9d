import PickIndent.Proofs.Nesting.Step
import PickIndent.Proofs.Pass.Faults

/-!
# Comparison — the nesting with and without `RETURN` as an end

A `RETURN` that ends a block takes the level down by one where it would otherwise stay, and nothing else tells
the two dialects apart (`classify_returning`).  So if the one nesting lies no deeper than the other and they
have the same groups (`Below`), they still do after the next line (`visit_below`): every line takes both of them
down by as much, and those that are put outermost are put there in both.
-/

namespace PickIndent

/-! ### The dialects -/

/-- The classification of a line where a `RETURN` closes as given. -/
def Classification.returning (closes : Bool) (c : Classification) : Classification :=
  if c.keyword = some .returnJump then { c with closes } else c

section

variable {c : Classification} {closes : Bool}

theorem Classification.returning_of_return (h : c.keyword = some .returnJump) :
    c.returning closes = { c with closes } :=
  if_pos h

theorem Classification.returning_of_ne (h : c.keyword ≠ some .returnJump) : c.returning closes = c :=
  if_neg h

@[simp] theorem Classification.returning_keyword : (c.returning closes).keyword = c.keyword := by
  unfold Classification.returning
  split <;> rfl

@[simp] theorem Classification.returning_opens : (c.returning closes).opens = c.opens := by
  unfold Classification.returning
  split <;> rfl

end

theorem classifyCode_returning (d : Dialect) (closes : Bool) (code : Text) :
    classifyCode { d with returnCloses := closes } code = (classifyCode d code).returning closes := by
  unfold classifyCode
  rw [show Keyword.find? { d with returnCloses := closes } code = Keyword.find? d code from rfl]
  cases Keyword.find? d code with
  | none => rfl
  | some k => cases k <;> rfl

/-- **The dialects differ in what a `RETURN` closes**, and in nothing else. -/
theorem classify_returning (d : Dialect) (closes : Bool) (line : Text) :
    classify { d with returnCloses := closes } line = (classify d line).map (·.returning closes) := by
  unfold classify
  split
  · rfl
  · cases codeOf line with
    | error e => rfl
    | ok code => exact congrArg Except.ok (classifyCode_returning d closes code)

/-! ### One nesting below the other -/

namespace Nesting

/-- A nesting that lies no deeper than another with the same groups. -/
structure Below (s t : Nesting) : Prop where
  level : s.level ≤ t.level
  groups : s.groups = t.groups

theorem Below.refl (s : Nesting) : s.Below s := ⟨Int.le_refl _, rfl⟩

variable {c : Classification} {s t m : Nesting} {final : Bool}

theorem Below.inBranch_eq (h : s.Below t) : s.inBranch = t.inBranch := by
  rw [inBranch, inBranch, h.groups]

theorem Below.close (h : s.Below t) : (s.close c).Below (t.close c) := by
  unfold Nesting.close
  rw [h.inBranch_eq]
  have hlevel := h.level
  split
  · exact ⟨by show s.level - 2 ≤ t.level - 2; omega, h.groups⟩
  · exact ⟨by show s.level - 1 ≤ t.level - 1; omega, h.groups⟩

theorem Below.leave (h : s.Below t) : (s.leave c).Below (t.leave c) := by
  have hlevel := h.level
  rw [leave_eq, leave_eq]
  exact ⟨by show s.level + (c.opens.toNat : Int) ≤ t.level + c.opens.toNat; omega, h.groups⟩

/-- A nesting and one below it settle by the same rules, and what is put outermost is put there in both. -/
theorem Below.settle (h : s.Below t) : (s.settle c final).Below (t.settle c final) := by
  have hlevel := h.level
  unfold Nesting.settle
  split
  · split
    · exact ⟨Int.le_refl 0, h.groups⟩
    next hs ht =>
      -- only the nesting below lies below zero
      obtain ⟨hk, -⟩ | hfinal := hs
      · exact ⟨by show 0 ≤ t.level; simp only [hk, true_and, not_or] at ht; omega, h.groups⟩
      · exact absurd (Or.inr hfinal) ht
  · split
    next hs ht =>
      obtain ⟨hk, hzero⟩ | hfinal := ht
      · exact absurd (Or.inl ⟨hk, by omega⟩) hs
      · exact absurd (Or.inr hfinal) hs
    · exact h

/-- Two ways to enter a line, the one below the other; or the same fault in both. -/
inductive EntersBelow : Except Fault Nesting → Except Fault Nesting → Prop
  | fault (e : Fault) : EntersBelow (.error e) (.error e)
  | ok {s t : Nesting} (h : s.Below t) : EntersBelow (.ok s) (.ok t)

theorem Below.trackCase (h : s.Below t) : EntersBelow (s.trackCase c) (t.trackCase c) := by
  unfold Nesting.trackCase
  rw [← h.groups]
  split
  · exact .ok ⟨h.level, rfl⟩
  · exact .ok ⟨h.level, rfl⟩
  · exact .fault _
  · exact .ok ⟨h.level, rfl⟩
  · exact .fault _
  · exact .ok h

theorem Below.enter (h : s.Below t) : EntersBelow (s.enter c) (t.enter c) := by
  unfold Nesting.enter
  rw [show s.step c = t.step c by rw [step, step, h.inBranch_eq]]
  split
  · exact h.close.trackCase
  · exact h.trackCase

/-! ### The next line -/

theorem enter_return (hk : c.keyword = some .returnJump) (s : Nesting) :
    s.enter c = .ok (if c.closes = true ∧ s.inBranch = false then ⟨s.level - 1, s.groups⟩ else s) := by
  cases hbranch : s.inBranch <;> cases hcloses : c.closes <;>
    simp [Nesting.enter, step, Nesting.close, Nesting.trackCase, hk, hbranch, hcloses]

theorem Below.enter_returning (h : s.Below t) :
    EntersBelow (s.enter (c.returning true)) (t.enter (c.returning false)) := by
  by_cases hk : c.keyword = some .returnJump
  · rw [enter_return (by simpa using hk), enter_return (by simpa using hk),
      Classification.returning_of_return hk, Classification.returning_of_return hk]
    refine .ok ?_
    have hlevel := h.level
    split
    · exact ⟨by show s.level - 1 ≤ t.level; omega, h.groups⟩
    · exact h
  · rw [Classification.returning_of_ne hk, Classification.returning_of_ne hk]
    exact h.enter

theorem settle_returning (closes : Bool) : s.settle (c.returning closes) final = s.settle c final := by
  simp only [Nesting.settle, Classification.returning_keyword]

theorem leave_returning (closes : Bool) : s.leave (c.returning closes) = s.leave c := by
  rw [leave_eq, leave_eq, Classification.returning_opens]

/-- What a line that finds its place below does to the nesting above. -/
theorem Below.visit_ok (h : s.Below t) {level : Int} {s' : Nesting}
    (hs : s.visit (c.returning true) final = .ok (level, s')) :
    ∃ level' t', t.visit (c.returning false) final = .ok (level', t') ∧ level ≤ level' ∧ s'.Below t' := by
  unfold visit at hs ⊢
  have henter := h.enter_returning (c := c)
  generalize s.enter (c.returning true) = a at hs henter
  generalize t.enter (c.returning false) = b at henter ⊢
  cases henter with
  | fault e => simp at hs
  | @ok m n hm =>
    have hsettle : (m.settle c final).Below (n.settle c final) := hm.settle
    have hlevel := hsettle.level
    simp only [settle_returning, leave_returning] at hs ⊢
    split at hs
    · simp at hs
    · obtain ⟨rfl, rfl⟩ := Prod.mk.inj (Except.ok.inj hs)
      rw [if_neg (by omega)]
      exact ⟨_, _, rfl, hlevel, hsettle.leave⟩

/-- A line that has no group below has none above. -/
theorem Below.visit_outside (h : s.Below t) {k : Keyword}
    (hs : s.visit (c.returning true) final = .error (.outsideCase k)) :
    t.visit (c.returning false) final = .error (.outsideCase k) := by
  unfold visit at hs ⊢
  have henter := h.enter_returning (c := c)
  generalize s.enter (c.returning true) = a at hs henter
  generalize t.enter (c.returning false) = b at henter ⊢
  cases henter with
  | fault e => exact hs
  | ok hm =>
    simp only at hs
    split at hs <;> simp at hs

/-- In a branch a `RETURN` does not close, whatever the dialect. -/
theorem visit_returning (h : c.keyword = some .returnJump → s.inBranch = true) :
    s.visit (c.returning true) final = s.visit (c.returning false) final := by
  by_cases hk : c.keyword = some .returnJump
  · have henter : s.enter (c.returning true) = s.enter (c.returning false) := by
      rw [enter_return (by simpa using hk), enter_return (by simpa using hk), h hk]
      simp
    simp only [visit, henter, settle_returning, leave_returning]
  · rw [Classification.returning_of_ne hk, Classification.returning_of_ne hk]

theorem settle_return (hk : c.keyword = some .returnJump) (s : Nesting) : 0 ≤ (s.settle c final).level := by
  unfold Nesting.settle
  split
  · exact Int.le_refl 0
  next h =>
    simp only [hk, true_and, not_or] at h
    omega

/-- **A `RETURN` never lies below zero.** -/
theorem keyword_ne_return_of_visit (h : s.visit c final = .error .belowZero) :
    c.keyword ≠ some .returnJump := by
  intro hk
  have hlevel : ∀ m : Nesting, 0 ≤ (m.settle c final).level := settle_return hk
  unfold visit at h
  rw [enter_return hk] at h
  simp only [if_neg (Int.not_lt.mpr (hlevel _))] at h
  simp at h

end Nesting

end PickIndent
