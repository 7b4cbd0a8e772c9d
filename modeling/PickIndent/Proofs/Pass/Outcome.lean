import Mathlib.Data.Nat.Find
import PickIndent.Proofs.Nesting.Groups
import PickIndent.Proofs.Pass.Levels

/-!
# Outcome — what a pass comes to, line by line

A pass keeps a level and the open groups.  Both can be had without it: from the lines before a line alone it
is known at which level the line stands (`levelAt`) and whether it has a place at all (`faultAt`).  The pass
gives every line its level, or stops at the first line that has none (`formatLines_outcome`).
-/

namespace PickIndent

/-! ### One line -/

/-- What is wrong with a line after the lines `before`. The `END` that ends a program is never wrong. -/
def faultOf (before : List Classification) (c : Classification) (final : Bool) : Option Fault :=
  if (c.keyword = some .caseBranch ∨ c.keyword = some .endCase) ∧ balance before = 0 then
    c.keyword.map .outsideCase
  else if depth before c < 0 ∧ ¬(c.keyword = some .blockEnd ∧ final = true) then some .belowZero
  else none

/-- The level of a line after the lines `before`, if nothing is wrong with it. -/
def levelOf (before : List Classification) (c : Classification) (final : Bool) : Int :=
  if c.keyword = some .blockEnd ∧ final = true then 0 else depth before c

/-- The classification of a line that is not blank. -/
def token? (d : Dialect) (line : Text) : Option Classification :=
  if isBlankText line then none else (classify d line).toOption

def tokens (d : Dialect) (lines : List Text) : List Classification := lines.filterMap (token? d)

/-- What is wrong with the `i`-th of the lines that stand after the lines `before`. -/
def faultAt (d : Dialect) (before : List Classification) (lines : List Text) (i : Nat) : Option Fault :=
  (lines[i]?.bind (token? d)).bind fun c =>
    faultOf (before ++ tokens d (lines.take i)) c ((lines.drop (i + 1)).all isBlankText)

/-- The level of the `i`-th of the lines that stand after the lines `before`; a blank line has none. -/
def levelAt (d : Dialect) (before : List Classification) (lines : List Text) (i : Nat) : Option Int :=
  (lines[i]?.bind (token? d)).map fun c =>
    levelOf (before ++ tokens d (lines.take i)) c ((lines.drop (i + 1)).all isBlankText)

variable {d : Dialect} {n : Nat} {before : List Classification} {c : Classification} {s : Nesting}
  {line : Text} {later : List Text}

/-- A nesting that the lines `before` have led to. -/
structure Reached (before : List Classification) (s : Nesting) : Prop where
  conserved : Conserved before s
  tracked : Tracked before s
  nonneg : 0 ≤ s.level

theorem reached_outermost : Reached [] .outermost := ⟨⟨rfl, rfl⟩, ⟨rfl, trivial⟩, Int.le_refl 0⟩

theorem Reached.visit_outside {k : Keyword} (h : Reached before s) (hk : c.keyword = some k)
    (hcase : k = .caseBranch ∨ k = .endCase) (hbalance : balance before = 0) (final : Bool) :
    s.visit c final = .error (.outsideCase k) := by
  obtain ⟨level, groups⟩ := s
  obtain rfl : groups = [] := (groups_eq_nil_iff h.conserved).mpr hbalance
  simp only [Nesting.visit, Nesting.enter_nil hk hcase]

theorem Reached.exists_enter (h : Reached before s) (hc : c.Regular)
    (hinside : ¬((c.keyword = some .caseBranch ∨ c.keyword = some .endCase) ∧ balance before = 0)) :
    ∃ m, s.enter c = .ok m ∧ m.level = depth before c ∧ (c.keyword = some .returnJump → 0 ≤ m.level) := by
  obtain ⟨m, hm⟩ := Nesting.exists_enter hc (s := s) fun hcase hgroups =>
    hinside ⟨hcase, (groups_eq_nil_iff h.conserved).mp hgroups⟩
  refine ⟨m, hm, level_of_enter hc h.conserved h.tracked hm, fun hk => ?_⟩
  rw [Nesting.enter_other hc (by simp [hk]) (by simp [hk]) (by simp [hk]), (hc.returns hk).2] at hm
  obtain rfl := Except.ok.inj hm
  have := h.nonneg
  simpa using this

theorem Reached.visit_fault (h : Reached before s) (hc : c.Regular) {final : Bool} {fault : Fault}
    (hfault : faultOf before c final = some fault) : s.visit c final = .error fault := by
  by_cases hout : (c.keyword = some .caseBranch ∨ c.keyword = some .endCase) ∧ balance before = 0
  · rw [faultOf, if_pos hout] at hfault
    obtain ⟨k, hk, rfl⟩ := Option.map_eq_some_iff.mp hfault
    exact h.visit_outside hk (by simpa [hk] using hout.1) hout.2 final
  · obtain ⟨m, hm, hlevel, hreturn⟩ := h.exists_enter hc hout
    rw [faultOf, if_neg hout] at hfault
    split at hfault
    next hbelow =>
      obtain rfl := Option.some.inj hfault
      rw [Nesting.visit_eq hm hreturn, if_neg hbelow.2, if_pos (hlevel ▸ hbelow.1)]
    next => simp at hfault

theorem Reached.visit_ok (h : Reached before s) (hc : c.Regular) {final : Bool}
    (hfault : faultOf before c final = none) :
    ∃ t, s.visit c final = .ok (levelOf before c final, t) ∧ (final = false → Reached (before ++ [c]) t) := by
  by_cases hout : (c.keyword = some .caseBranch ∨ c.keyword = some .endCase) ∧ balance before = 0
  · rw [faultOf, if_pos hout, Option.map_eq_none_iff] at hfault
    simp [hfault] at hout
  · obtain ⟨m, hm, hlevel, hreturn⟩ := h.exists_enter hc hout
    rw [Nesting.visit_eq hm hreturn, levelOf]
    by_cases hend : c.keyword = some .blockEnd ∧ final = true
    · refine ⟨Nesting.leave c ⟨0, m.groups⟩, by rw [if_pos hend, if_pos hend], fun hfinal => ?_⟩
      exact absurd (hfinal.symm.trans hend.2) (by decide)
    · -- a line below zero would be at fault
      have hnonneg : 0 ≤ m.level := by
        rw [faultOf, if_neg hout] at hfault
        by_contra hbelow
        rw [if_pos ⟨by omega, hend⟩] at hfault
        simp at hfault
      refine ⟨m.leave c, by rw [if_neg hend, if_neg (by omega), if_neg hend, hlevel], fun _ => ?_⟩
      have hadvance := Nesting.advance_ok.mpr ⟨m, hm, rfl⟩
      refine ⟨h.conserved.advance hc hadvance, h.tracked.advance hc hadvance, ?_⟩
      rw [Nesting.leave_eq]
      exact Int.add_nonneg hnonneg (Int.natCast_nonneg _)

/-! ### All lines -/

/-- What the levels of the lines numbered from `n` on come to. -/
structure Outcome (d : Dialect) (before : List Classification) (lines : List Text) (n : Nat)
    (r : Except PassError (List (Option Int))) : Prop where
  ok : (∀ i, faultAt d before lines i = none) → r = .ok (lines.mapIdx fun i _ => levelAt d before lines i)
  error : ∀ {i fault}, faultAt d before lines i = some fault → (∀ j < i, faultAt d before lines j = none) →
    r = .error (.structural ⟨(n + i : Nat), fault⟩)

theorem tokens_cons (d : Dialect) (line : Text) (lines : List Text) :
    tokens d (line :: lines) = (token? d line).toList ++ tokens d lines := by
  rw [tokens, tokens]
  cases h : token? d line <;> simp [h]

theorem faultAt_succ (i : Nat) :
    faultAt d before (line :: later) (i + 1) = faultAt d (before ++ (token? d line).toList) later i := by
  simp only [faultAt, List.getElem?_cons_succ, List.take_succ_cons, List.drop_succ_cons, tokens_cons,
    List.append_assoc]

theorem levelAt_succ (i : Nat) :
    levelAt d before (line :: later) (i + 1) = levelAt d (before ++ (token? d line).toList) later i := by
  simp only [levelAt, List.getElem?_cons_succ, List.take_succ_cons, List.drop_succ_cons, tokens_cons,
    List.append_assoc]

theorem faultAt_zero_of_blank (h : isBlankText line = true) : faultAt d before (line :: later) 0 = none := by
  simp [faultAt, token?, h]

theorem levelAt_zero_of_blank (h : isBlankText line = true) : levelAt d before (line :: later) 0 = none := by
  simp [levelAt, token?, h]

theorem token?_of_classify (h : isBlankText line = false) (hc : classify d line = .ok c) :
    token? d line = some c := by
  rw [token?, if_neg (by simp [h]), hc]
  rfl

theorem faultAt_zero (h : token? d line = some c) :
    faultAt d before (line :: later) 0 = faultOf before c (later.all isBlankText) := by
  simp [faultAt, h, tokens]

theorem levelAt_zero (h : token? d line = some c) :
    levelAt d before (line :: later) 0 = some (levelOf before c (later.all isBlankText)) := by
  simp [levelAt, h, tokens]

theorem Outcome.cons (hfault : faultAt d before (line :: later) 0 = none)
    {r : Except PassError (List (Option Int))}
    (h : Outcome d (before ++ (token? d line).toList) later (n + 1) r) :
    Outcome d before (line :: later) n (r.map (levelAt d before (line :: later) 0 :: ·)) where
  ok hall := by
    rw [h.ok fun i => (faultAt_succ i).symm.trans (hall (i + 1)), List.mapIdx_cons]
    simp only [levelAt_succ]
    rfl
  error := by
    rintro (_ | i) fault hi hfirst
    · simp [hfault] at hi
    · rw [faultAt_succ] at hi
      rw [h.error hi fun j hj => (faultAt_succ j).symm.trans (hfirst (j + 1) (by omega)), Nat.add_right_comm]
      rfl

theorem Outcome.fault {fault : Fault} (hfault : faultAt d before (line :: later) 0 = some fault) :
    Outcome d before (line :: later) n (.error (.structural ⟨n, fault⟩)) where
  ok hall := by simp [hall 0] at hfault
  error := by
    rintro (_ | i) fault' hi hfirst
    · rw [hfault, Option.some.injEq] at hi
      rw [hi]
      rfl
    · simp [hfirst 0 (by omega)] at hfault

theorem levelsFrom_outcome (hreturn : d.returnCloses = false) {lines : List Text}
    (hfeed : ∀ line ∈ lines, '\n' ∉ line) (h : lines.all isBlankText = false → Reached before s) :
    Outcome d before lines n (levelsFrom d n s lines) := by
  induction lines generalizing before s n with
  | nil => exact ⟨fun _ => rfl, fun hi => by simp [faultAt] at hi⟩
  | cons line later ih =>
    have ih := fun before s n => @ih n before s fun l hl => hfeed l (List.mem_cons_of_mem _ hl)
    cases hb : isBlankText line with
    | true =>
      have hstart : later.all isBlankText = false → Reached (before ++ (token? d line).toList) s := by
        intro hlater
        have htoken : token? d line = none := by rw [token?, if_pos hb]
        rw [htoken, Option.toList_none, List.append_nil]
        exact h (by rw [List.all_cons, hlater, Bool.and_false])
      have hlater := (ih _ s (n + 1) hstart).cons (faultAt_zero_of_blank hb)
      rwa [levelAt_zero_of_blank hb, ← levelsFrom_blank hb] at hlater
    | false =>
      obtain ⟨c, hclassify⟩ := exists_classify d (hfeed line (by simp))
      have htoken := token?_of_classify hb hclassify
      have hc := classify_regular hreturn hclassify
      have hreached := h (by rw [List.all_cons, hb, Bool.false_and])
      cases hfault : faultOf before c (later.all isBlankText) with
      | some fault =>
        rw [levelsFrom_fault hb hclassify (hreached.visit_fault hc hfault)]
        exact .fault ((faultAt_zero htoken).trans hfault)
      | none =>
        obtain ⟨t, hvisit, ht⟩ := hreached.visit_ok hc hfault
        have hstart : later.all isBlankText = false → Reached (before ++ (token? d line).toList) t := by
          intro hlater
          rw [htoken]
          exact ht hlater
        have hlater := (ih _ t (n + 1) hstart).cons ((faultAt_zero htoken).trans hfault)
        rwa [levelAt_zero htoken, ← levelsFrom_visit hb hclassify hvisit] at hlater

theorem zipWith_mapIdx {α β γ : Type} (f : α → β → γ) (g : Nat → β) (as : List α) :
    List.zipWith f as (as.mapIdx fun i _ => g i) = as.mapIdx fun i a => f a (g i) :=
  List.ext_getElem (by simp) (by simp)

/-- Something is wrong with some line only if something is wrong with a first one. -/
theorem exists_first_fault {lines : List Text} (h : ¬∀ i, faultAt d before lines i = none) :
    ∃ i fault, faultAt d before lines i = some fault ∧ ∀ j < i, faultAt d before lines j = none := by
  rw [not_forall] at h
  obtain ⟨fault, hfault⟩ := Option.ne_none_iff_exists'.mp (Nat.find_spec h)
  exact ⟨Nat.find h, fault, hfault, fun j hj => not_not.mp (Nat.find_min h hj)⟩

/-- **The outcome of a pass, told from the lines alone.**  A pass succeeds if and only if nothing is wrong
with any line, and then every line is written at the level that the lines before it give it.  Otherwise it
reports what is wrong with the first line that something is wrong with. -/
theorem formatLines_outcome {o : Options} (hreturn : o.returnCloses = false) {lines : List Text}
    (hfeed : ∀ line ∈ lines, '\n' ∉ line) :
    ((∃ out, formatLines o lines = .ok out) ↔ ∀ i, faultAt o.toDialect [] lines i = none) ∧
    ((∀ i, faultAt o.toDialect [] lines i = none) →
      formatLines o lines =
        .ok (lines.mapIdx fun i line =>
          (levelAt o.toDialect [] lines i).elim [] (renderLine o.toStyle · line))) ∧
    (∀ (i : Nat) (fault : Fault), faultAt o.toDialect [] lines i = some fault →
      (∀ j < i, faultAt o.toDialect [] lines j = none) →
        formatLines o lines = .error (.structural ⟨i + 1, fault⟩)) := by
  have houtcome := levelsFrom_outcome (n := 1) hreturn hfeed fun _ => reached_outermost
  have hok : (∀ i, faultAt o.toDialect [] lines i = none) → formatLines o lines =
      .ok (lines.mapIdx fun i line =>
        (levelAt o.toDialect [] lines i).elim [] (renderLine o.toStyle · line)) := by
    intro hall
    refine formatLines_eq_ok_iff.mpr ⟨_, houtcome.ok hall, ?_⟩
    rw [zipWith_mapIdx]
    simp only [place_eq]
  have herror : ∀ (i : Nat) (fault : Fault), faultAt o.toDialect [] lines i = some fault →
      (∀ j < i, faultAt o.toDialect [] lines j = none) →
        formatLines o lines = .error (.structural ⟨i + 1, fault⟩) := by
    intro i fault hi hfirst
    rw [formatLines, levels, houtcome.error hi hfirst, Nat.add_comm]
    rfl
  refine ⟨⟨?_, fun hall => ⟨_, hok hall⟩⟩, hok, herror⟩
  rintro ⟨out, hout⟩
  by_contra hbad
  obtain ⟨i, fault, hi, hfirst⟩ := exists_first_fault hbad
  simp [herror i fault hi hfirst] at hout

theorem formatLines_outcome_group :
    let group := ["BEGIN CASE".toList, "CASE A".toList, "END CASE".toList]
    let good := group ++ ["END".toList, []]
    let bad := group ++ [[], "END CASE".toList, "END".toList]
    (∀ line ∈ good ++ bad, '\n' ∉ line) ∧ (∀ i, faultAt {} [] good i = none) ∧
      formatLines {} good =
        .ok (good.mapIdx fun i line => (levelAt {} [] good i).elim [] (renderLine {} · line)) ∧
      faultAt {} [] bad 4 = some (.outsideCase .endCase) ∧ (∀ j < 4, faultAt {} [] bad j = none) ∧
      formatLines {} bad = .error (.structural ⟨5, .outsideCase .endCase⟩) := by
  intro group good bad
  have hfeed : ∀ line ∈ good ++ bad, '\n' ∉ line := by decide
  have hgood : ∀ i, faultAt {} [] good i = none := by
    intro i
    by_cases hi : i < 5
    · revert i
      decide +kernel
    · rw [faultAt, List.getElem?_eq_none (Nat.le_of_not_lt hi)]
      rfl
  have hbad : faultAt {} [] bad 4 = some (.outsideCase .endCase) := by decide +kernel
  have hfirst : ∀ j < 4, faultAt {} [] bad j = none := by decide +kernel
  obtain ⟨-, hok, -⟩ := formatLines_outcome (o := {}) rfl fun l hl => hfeed l (List.mem_append_left bad hl)
  obtain ⟨-, -, herror⟩ :=
    formatLines_outcome (o := {}) rfl fun l hl => hfeed l (List.mem_append_right good hl)
  exact ⟨hfeed, hgood, hok hgood, hbad, hfirst, herror 4 _ hbad hfirst⟩

end PickIndent
