import PickIndent.Nesting
import PickIndent.Proofs.Classification.Lines

/-!
# Steps — what one line does to the nesting

Where `RETURN` ends no block there are four ways to enter a line (`enter_ok`): `BEGIN CASE` adds a group
without a branch, `CASE` and `END CASE` pay for the branch that is open in the innermost group, and any
other line leaves the groups alone.
-/

namespace PickIndent

/-- Whether a line begins with the keyword `k`. -/
def Classification.is (k : Keyword) (c : Classification) : Bool := c.keyword == some k

theorem Classification.is_iff {k : Keyword} {c : Classification} :
    c.is k = true ↔ c.keyword = some k := by
  rw [Classification.is, beq_iff_eq]

theorem Classification.is_of_keyword {k : Keyword} {c : Classification} (hk : c.keyword = some k)
    (k' : Keyword) : c.is k' = decide (k = k') := by
  rw [Bool.eq_iff_iff, is_iff, hk, decide_eq_true_iff, Option.some.injEq]

theorem Classification.is_of_ne {k : Keyword} {c : Classification} (hk : c.keyword ≠ some k) :
    c.is k = false := by
  rwa [← Bool.not_eq_true, is_iff]

namespace Nesting

variable {c : Classification}

/-! ### Entering -/

theorem inBranch_cons (level : Int) (b : Bool) (gs : List Bool) : inBranch ⟨level, b :: gs⟩ = b := by
  cases b <;> rfl

theorem enter_beginCase (hc : c.Regular) (hk : c.keyword = some .beginCase) (s : Nesting) :
    s.enter c = .ok ⟨s.level, false :: s.groups⟩ := by
  have hcloses : (s.step c).closes = false := by
    cases hb : s.inBranch <;> simp [step, hb, hk, (hc.begins hk).2]
  simp [enter, hcloses, trackCase, hk]

theorem enter_caseBranch (hc : c.Regular) (hk : c.keyword = some .caseBranch) (level : Int) (b : Bool)
    (gs : List Bool) : enter c ⟨level, b :: gs⟩ = .ok ⟨level - b.toNat, c.opens :: gs⟩ := by
  have hcloses : (step c ⟨level, b :: gs⟩).closes = b := by
    cases b <;> simp [step, inBranch_cons, hk, hc.branches hk]
  cases b <;> simp [enter, hcloses, close, trackCase, hk]

theorem enter_endCase (hc : c.Regular) (hk : c.keyword = some .endCase) (level : Int) (b : Bool)
    (gs : List Bool) : enter c ⟨level, b :: gs⟩ = .ok ⟨level - 1 - b.toNat, gs⟩ := by
  have hcloses : (step c ⟨level, b :: gs⟩).closes = true := by
    cases b <;> simp [step, inBranch_cons, hk, (hc.ends hk).2]
  cases b <;> simp [enter, hcloses, close, inBranch_cons, trackCase, hk]
  omega

/-- A `CASE` or an `END CASE` has no place outside a group. -/
theorem enter_nil {k : Keyword} (hk : c.keyword = some k) (hcase : k = .caseBranch ∨ k = .endCase)
    (level : Int) : enter c ⟨level, []⟩ = .error (.outsideCase k) := by
  rcases hcase with rfl | rfl <;> cases hcloses : (step c ⟨level, []⟩).closes <;>
    simp [enter, hcloses, close, trackCase, hk, inBranch]

theorem enter_other (hc : c.Regular) (hbegin : c.keyword ≠ some .beginCase)
    (hcase : c.keyword ≠ some .caseBranch) (hend : c.keyword ≠ some .endCase) (s : Nesting) :
    s.enter c = .ok ⟨s.level - c.closes.toNat, s.groups⟩ := by
  have hcloses : (s.step c).closes = c.closes := by
    by_cases hreturn : c.keyword = some .returnJump
    · cases hb : s.inBranch <;> simp [step, hb, hreturn, (hc.returns hreturn).2]
    · unfold step
      split <;> simp_all
  have htrack : ∀ t : Nesting, t.trackCase c = .ok t := by
    intro t
    unfold trackCase
    split <;> simp_all
  cases h : c.closes <;> simp [enter, hcloses, h, close, hend, htrack]

/-- The four ways to enter a line. -/
theorem enter_ok (hc : c.Regular) {s t : Nesting} (h : s.enter c = .ok t) :
    (c.keyword = some .beginCase ∧ t = ⟨s.level, false :: s.groups⟩) ∨
    (∃ b gs, c.keyword = some .caseBranch ∧ s.groups = b :: gs ∧ t = ⟨s.level - b.toNat, c.opens :: gs⟩) ∨
    (∃ b gs, c.keyword = some .endCase ∧ s.groups = b :: gs ∧ t = ⟨s.level - 1 - b.toNat, gs⟩) ∨
    (c.keyword ≠ some .beginCase ∧ c.keyword ≠ some .caseBranch ∧ c.keyword ≠ some .endCase ∧
      t = ⟨s.level - c.closes.toNat, s.groups⟩) := by
  obtain ⟨level, groups⟩ := s
  by_cases hbegin : c.keyword = some .beginCase
  · rw [enter_beginCase hc hbegin] at h
    exact Or.inl ⟨hbegin, (Except.ok.inj h).symm⟩
  by_cases hcase : c.keyword = some .caseBranch
  · cases groups with
    | nil => simp [enter_nil hcase (Or.inl rfl)] at h
    | cons b gs =>
      rw [enter_caseBranch hc hcase] at h
      exact Or.inr (Or.inl ⟨b, gs, hcase, rfl, (Except.ok.inj h).symm⟩)
  by_cases hend : c.keyword = some .endCase
  · cases groups with
    | nil => simp [enter_nil hend (Or.inr rfl)] at h
    | cons b gs =>
      rw [enter_endCase hc hend] at h
      exact Or.inr (Or.inr (Or.inl ⟨b, gs, hend, rfl, (Except.ok.inj h).symm⟩))
  rw [enter_other hc hbegin hcase hend] at h
  exact Or.inr (Or.inr (Or.inr ⟨hbegin, hcase, hend, (Except.ok.inj h).symm⟩))

/-- A line finds a way in unless it belongs to a group and none is open. -/
theorem exists_enter (hc : c.Regular) {s : Nesting}
    (h : c.keyword = some .caseBranch ∨ c.keyword = some .endCase → s.groups ≠ []) :
    ∃ m, s.enter c = .ok m := by
  obtain ⟨level, groups⟩ := s
  by_cases hbegin : c.keyword = some .beginCase
  · exact ⟨_, enter_beginCase hc hbegin _⟩
  by_cases hcase : c.keyword = some .caseBranch
  · obtain ⟨b, gs, rfl⟩ := List.exists_cons_of_ne_nil (h (Or.inl hcase))
    exact ⟨_, enter_caseBranch hc hcase level b gs⟩
  by_cases hend : c.keyword = some .endCase
  · obtain ⟨b, gs, rfl⟩ := List.exists_cons_of_ne_nil (h (Or.inr hend))
    exact ⟨_, enter_endCase hc hend level b gs⟩
  exact ⟨_, enter_other hc hbegin hcase hend _⟩

/-! ### Leaving -/

theorem leave_eq (c : Classification) (s : Nesting) : s.leave c = ⟨s.level + c.opens.toNat, s.groups⟩ := by
  cases h : c.opens <;> simp [leave, h, openBlock]

/-- Only the `END` that ends a program is moved, where no `RETURN` lies below zero. -/
theorem visit_eq {s m : Nesting} (h : s.enter c = .ok m)
    (hreturn : c.keyword = some .returnJump → 0 ≤ m.level) (final : Bool) :
    s.visit c final =
      if c.keyword = some .blockEnd ∧ final = true then .ok (0, leave c ⟨0, m.groups⟩)
      else if m.level < 0 then .error .belowZero else .ok (m.level, m.leave c) := by
  simp only [visit, h]
  by_cases hend : c.keyword = some .blockEnd ∧ final = true
  · rw [if_pos hend, settle, if_pos (Or.inr hend)]
    rfl
  · have hsettle : m.settle c final = m := by
      rw [settle, if_neg]
      rintro (⟨hk, hlevel⟩ | hfinal)
      · exact absurd (hreturn hk) (by omega)
      · exact hend hfinal
    rw [if_neg hend, hsettle]

/-- The nesting after a line, whatever its level. -/
def advance (s : Nesting) (c : Classification) : Except Fault Nesting := (s.enter c).map (leave c)

theorem advance_ok {s t : Nesting} : s.advance c = .ok t ↔ ∃ m, s.enter c = .ok m ∧ t = m.leave c := by
  rw [advance]
  cases s.enter c <;> simp [Except.map, eq_comm]

/-- The nesting after all lines of a program, whatever their levels. -/
def run (s : Nesting) (cs : List Classification) : Except Fault Nesting := cs.foldlM advance s

theorem run_append_ok {s t : Nesting} {as bs : List Classification} :
    s.run (as ++ bs) = .ok t ↔ ∃ m, s.run as = .ok m ∧ m.run bs = .ok t := by
  simp only [run, List.foldlM_append]
  cases List.foldlM advance s as <;> simp [bind, Except.bind]

theorem run_concat_ok {s t : Nesting} {cs : List Classification} :
    s.run (cs ++ [c]) = .ok t ↔ ∃ m, s.run cs = .ok m ∧ m.advance c = .ok t := by
  have hone : ∀ m : Nesting, m.run [c] = m.advance c := fun m => by simp [run]
  simp only [run_append_ok, hone]

/-- What holds outermost and is kept by every line holds after a run. -/
theorem run_induction {P : List Classification → Nesting → Prop} (hnil : P [] outermost)
    (hstep : ∀ cs c s t, c.Regular → P cs s → s.advance c = .ok t → P (cs ++ [c]) t)
    {cs : List Classification} (hregular : ∀ c ∈ cs, c.Regular) {s : Nesting}
    (h : outermost.run cs = .ok s) : P cs s := by
  induction cs using List.reverseRecOn generalizing s with
  | nil =>
    obtain rfl : outermost = s := Except.ok.inj h
    exact hnil
  | append_singleton cs c ih =>
    obtain ⟨m, hm, hadvance⟩ := run_concat_ok.mp h
    have hcs := ih (fun c hc => hregular c (List.mem_append_left _ hc)) hm
    exact hstep cs c m s (hregular c (by simp)) hcs hadvance

end Nesting

end PickIndent
