import Mathlib.Data.List.InsertIdx
import PickIndent.Proofs.Classification.Lines
import PickIndent.Proofs.Pass.Faults
import PickIndent.Proofs.Pass.Levels

/-!
# Insertion — lines that change nothing

A blank line has no level, and a neutral line, which neither opens nor closes and is no `CASE`, leaves the nesting
as it is (`Nesting.visit_neutral`).  Put between other lines, either of them is one level more in the list of
levels (`levelsFrom_insert`): the other lines keep their levels, and the reports for those behind it move down by
one line (`formatLines_insert`).
-/

namespace PickIndent

variable {d : Dialect} {n : Nat} {s t : Nesting} {c : Classification} {line : Text} {front back lines : List Text}

/-! ### Neutral lines -/

/-- The line neither opens nor closes a block and is no `CASE`. -/
structure Classification.Neutral (c : Classification) : Prop where
  opens : c.opens = false
  closes : c.closes = false
  not_case : c.keyword ≠ some .caseBranch

/-- The keywords of groups and of the end of a program are those of no neutral line. -/
theorem Classification.Neutral.keyword (h : c.Neutral) (hc : classify d line = .ok c) :
    c.keyword ≠ some .beginCase ∧ c.keyword ≠ some .endCase ∧ c.keyword ≠ some .blockEnd := by
  have hcloses : ∀ {k : Keyword}, c.keyword = some k → k.closes d = false ∧ opensBlock d c.code k = false := by
    intro k hk
    obtain ⟨-, hopens', hcloses'⟩ := classify_of_keyword hc hk
    exact ⟨hcloses'.symm.trans h.closes, hopens'.symm.trans h.opens⟩
  refine ⟨fun hk => ?_, fun hk => ?_, fun hk => ?_⟩
  · have hopens : opensBlock d c.code .beginCase = true := opensBlock_of_opens rfl rfl rfl (by decide)
    exact Bool.noConfusion (hopens.symm.trans (hcloses hk).2)
  · exact Bool.noConfusion (hcloses hk).1
  · exact Bool.noConfusion (hcloses hk).1

namespace Nesting

/-- **A neutral line leaves the nesting as it is** and stands at its level. -/
theorem visit_neutral (h : c.Neutral) (hc : classify d line = .ok c) (hs : 0 ≤ s.level) (final : Bool) :
    s.visit c final = .ok (s.level, s) := by
  obtain ⟨hbegin, hgroup, hend⟩ := h.keyword hc
  have hcloses : (s.step c).closes = false := by
    unfold step
    split
    next hk => exact absurd hk h.not_case
    next => rfl
    next => exact h.closes
  have henter : s.enter c = .ok s := by
    rw [enter, if_neg (by simp [hcloses])]
    unfold trackCase
    split <;> simp_all [h.not_case]
  have hsettle : s.settle c final = s := by
    rw [settle, if_neg]
    rintro (⟨-, hlevel⟩ | ⟨hk, -⟩)
    · omega
    · exact hend hk
  have hleave : s.leave c = s := by rw [leave, if_neg (by simp [h.opens])]
  simp only [visit, henter, hsettle, hleave]
  rw [if_neg (by omega)]

/-- The nesting behind a line that has its place is not below zero. -/
theorem visit_nonneg {level : Int} {final : Bool} (h : s.visit c final = .ok (level, t)) : 0 ≤ t.level := by
  unfold visit at h
  cases henter : s.enter c with
  | error fault => simp [henter] at h
  | ok m =>
    simp only [henter] at h
    split at h
    next => simp at h
    next hlevel =>
      obtain ⟨-, rfl⟩ := Prod.mk.inj (Except.ok.inj h)
      unfold leave openBlock
      split
      · show 0 ≤ (m.settle c final).level + 1
        omega
      · omega

end Nesting

/-! ### Reports further down -/

/-- A report for the line numbered `k` or a later one, moved down by one line. -/
def PassError.moveDown (k : Int) : PassError → PassError
  | .lexical e => .lexical e
  | .structural e => .structural ⟨if e.line < k then e.line else e.line + 1, e.fault⟩

theorem PassError.moveDown_of_lt {k m : Int} (h : m < k) (fault : Fault) :
    moveDown k (.structural ⟨m, fault⟩) = .structural ⟨m, fault⟩ := by
  rw [moveDown, if_pos h]

theorem PassError.moveDown_of_le {k m : Int} (h : k ≤ m) (fault : Fault) :
    moveDown k (.structural ⟨m, fault⟩) = .structural ⟨m + 1, fault⟩ := by
  rw [moveDown, if_neg (Int.not_lt.mpr h)]

/-- Lines that begin one line further down have the same levels, and their reports move down. -/
theorem levelsFrom_succ {k : Int} (hk : k ≤ n) :
    levelsFrom d (n + 1) s lines = (levelsFrom d n s lines).mapError (PassError.moveDown k) := by
  induction lines generalizing n s with
  | nil => rfl
  | cons line later ih =>
    have hk' : k ≤ (n + 1 : Nat) := by omega
    cases hb : isBlankText line with
    | true =>
      rw [levelsFrom_blank hb, levelsFrom_blank hb, ih hk', mapError_map]
    | false =>
      cases hc : classify d line with
      | error e =>
        rw [levelsFrom_lexical hb hc, levelsFrom_lexical hb hc]
        rfl
      | ok c =>
        cases hv : s.visit c (later.all isBlankText) with
        | error fault =>
          rw [levelsFrom_fault hb hc hv, levelsFrom_fault hb hc hv, Except.mapError, PassError.moveDown_of_le hk]
          rfl
        | ok placed => rw [levelsFrom_visit hb hc hv, levelsFrom_visit hb hc hv, ih hk', mapError_map]

/-! ### One line more -/

/-- A line that is blank, or neutral with code behind it. -/
def Transparent (d : Dialect) (line : Text) (back : List Text) : Prop :=
  isBlankText line = true ∨ back.all isBlankText = false ∧ ∃ c, classify d line = .ok c ∧ c.Neutral

/-- Whether code follows is not a matter of such a line. -/
theorem Transparent.all_isBlankText (h : Transparent d line back) (front : List Text) :
    (front ++ line :: back).all isBlankText = (front ++ back).all isBlankText := by
  rcases h with hb | ⟨hback, -⟩
  · simp [hb]
  · simp [hback]

/-- **A transparent line is one level more among the levels**, and the reports for the lines behind it move
down. -/
theorem levelsFrom_insert (h : Transparent d line back) (front : List Text) (hs : 0 ≤ s.level) :
    ∃ level, levelsFrom d n s (front ++ line :: back) =
      ((levelsFrom d n s (front ++ back)).map (·.insertIdx front.length level)).mapError
        (PassError.moveDown (n + front.length : Nat)) := by
  induction front generalizing n s with
  | nil =>
    have hback : levelsFrom d (n + 1) s back = (levelsFrom d n s back).mapError (PassError.moveDown n) :=
      levelsFrom_succ (Int.le_refl n)
    rcases h with hb | ⟨hcode, c, hc, hneutral⟩
    · refine ⟨none, ?_⟩
      rw [List.nil_append, levelsFrom_blank hb, hback, mapError_map]
      rfl
    · cases hb : isBlankText line with
      | true =>
        refine ⟨none, ?_⟩
        rw [List.nil_append, levelsFrom_blank hb, hback, mapError_map]
        rfl
      | false =>
        refine ⟨some s.level, ?_⟩
        rw [List.nil_append, levelsFrom_visit hb hc (Nesting.visit_neutral hneutral hc hs _), hback, mapError_map]
        rfl
  | cons head later ih =>
    have hlength : n + (head :: later).length = n + 1 + later.length := by rw [List.length_cons]; omega
    rw [List.cons_append, List.cons_append, hlength]
    cases hb : isBlankText head with
    | true =>
      obtain ⟨level, hlater⟩ := ih (n := n + 1) hs
      refine ⟨level, ?_⟩
      rw [levelsFrom_blank hb, levelsFrom_blank hb, hlater]
      simp only [mapError_map, map_map, List.length_cons, List.insertIdx_succ_cons]
    | false =>
      cases hc : classify d head with
      | error e =>
        refine ⟨none, ?_⟩
        rw [levelsFrom_lexical hb hc, levelsFrom_lexical hb hc]
        rfl
      | ok c =>
        have hfinal := h.all_isBlankText later
        cases hv : s.visit c ((later ++ back).all isBlankText) with
        | error fault =>
          refine ⟨none, ?_⟩
          rw [levelsFrom_fault hb hc (hfinal ▸ hv), levelsFrom_fault hb hc hv, Except.map, Except.mapError,
            PassError.moveDown_of_lt (by omega)]
        | ok placed =>
          obtain ⟨level', m⟩ := placed
          obtain ⟨level, hlater⟩ := ih (n := n + 1) (Nesting.visit_nonneg hv)
          refine ⟨level, ?_⟩
          rw [levelsFrom_visit hb hc (hfinal ▸ hv), levelsFrom_visit hb hc hv, hlater]
          simp only [mapError_map, map_map, List.length_cons, List.insertIdx_succ_cons]

/-! ### Formatting -/

theorem zipWith_insertIdx {α β γ : Type} (f : α → β → γ) {as as' : List α} {bs : List β} (a : α) (b : β)
    (h : as.length ≤ bs.length) :
    List.zipWith f (as ++ a :: as') (bs.insertIdx as.length b) =
      (List.zipWith f (as ++ as') bs).insertIdx as.length (f a b) := by
  induction as generalizing bs with
  | nil => rfl
  | cons x as ih =>
    cases bs with
    | nil => simp at h
    | cons y bs =>
      rw [List.length_cons, List.cons_append, List.cons_append, List.insertIdx_succ_cons, List.zipWith_cons_cons,
        List.zipWith_cons_cons, List.insertIdx_succ_cons, ih (Nat.le_of_succ_le_succ h)]

/-- A transparent line is one line more in the result. -/
theorem exists_formatLines_insert {o : Options} (h : Transparent o.toDialect line back) (front : List Text) :
    ∃ placed, formatLines o (front ++ line :: back) =
      ((formatLines o (front ++ back)).map (·.insertIdx front.length placed)).mapError
        (PassError.moveDown (1 + front.length : Nat)) := by
  obtain ⟨level, hlevels⟩ := levelsFrom_insert (n := 1) (s := .outermost) h front (Int.le_refl 0)
  refine ⟨place o.toStyle line level, ?_⟩
  rw [formatLines, levels, hlevels, formatLines, levels]
  cases hrest : levelsFrom o.toDialect 1 .outermost (front ++ back) with
  | error e => rfl
  | ok ls =>
    have hlength := (levelsFrom_forall₂ hrest).length_eq
    rw [List.length_append] at hlength
    exact congrArg Except.ok (zipWith_insertIdx (place o.toStyle) line level (by omega))

/-- **Blank and neutral lines are transparent.**  A program with such a line is formatted if and only if it is
without, and the results differ in this line alone.  Otherwise both have the same report, for the same line or, if
it stands behind the one that was inserted, for the line one further down. -/
theorem formatLines_insert {o : Options} (hfeed : ∀ l ∈ front ++ back, '\n' ∉ l)
    (h : Transparent o.toDialect line back) :
    ((∃ out, formatLines o (front ++ line :: back) = .ok out) ↔ ∃ out, formatLines o (front ++ back) = .ok out) ∧
    (∀ out, formatLines o (front ++ line :: back) = .ok out →
      formatLines o (front ++ back) = .ok (out.eraseIdx front.length)) ∧
    ∀ e, formatLines o (front ++ back) = .error e → ∃ (m : Int) (fault : Fault),
      e = .structural ⟨m, fault⟩ ∧ formatLines o (front ++ line :: back) =
        .error (.structural ⟨if m ≤ front.length then m else m + 1, fault⟩) := by
  obtain ⟨placed, hinsert⟩ := exists_formatLines_insert h front
  cases hrest : formatLines o (front ++ back) with
  | ok rest =>
    have hwhole : formatLines o (front ++ line :: back) = .ok (rest.insertIdx front.length placed) := by
      rw [hinsert, hrest]
      rfl
    refine ⟨iff_of_true ⟨_, hwhole⟩ ⟨_, rfl⟩, fun out hout => ?_, fun e he => by simp at he⟩
    obtain rfl := Except.ok.inj (hwhole.symm.trans hout)
    rw [List.eraseIdx_insertIdx_self]
  | error e =>
    obtain ⟨i, fault, -, rfl, -⟩ := formatLines_error hfeed hrest
    have hwhole : formatLines o (front ++ line :: back) =
        .error (.structural ⟨if (i + 1 : Nat) ≤ (front.length : Int) then (i + 1 : Nat) else (i + 1 : Nat) + 1,
          fault⟩) := by
      rw [hinsert, hrest, Except.map, Except.mapError]
      by_cases hi : i + 1 ≤ front.length
      · rw [PassError.moveDown_of_lt (by omega), if_pos (by omega)]
      · rw [PassError.moveDown_of_le (by omega), if_neg (by omega)]
    refine ⟨iff_of_false (by simp [hwhole]) (by simp), fun out hout => ?_, fun e he => ?_⟩
    · simp [hwhole] at hout
    · exact ⟨_, fault, (Except.error.inj he).symm, hwhole⟩

theorem formatLines_insert_loop :
    let loop := ["BEGIN CASE".toList, "CASE A".toList]
    let back := ["PRINT 1".toList, "END CASE".toList]
    let stray := ["NEXT I".toList, "END".toList]
    let remark := "100 FOR I = 1 TO 3; NEXT I ;* END".toList
    let placed := ["     BEGIN CASE".toList, "        CASE A".toList, "100        FOR I = 1 TO 3; NEXT I ;* END".toList,
      "           PRINT 1".toList, "     END CASE".toList]
    Transparent {} remark back ∧ formatLines {} (loop ++ remark :: back) = .ok placed ∧
      formatLines {} (loop ++ back) = .ok (placed.eraseIdx 2) ∧
      Transparent {} [' '] stray ∧
      (∃ (m : Int) (fault : Fault), PassError.structural ⟨3, .belowZero⟩ = .structural ⟨m, fault⟩ ∧
        formatLines {} (["LOOP".toList, "REPEAT".toList] ++ [' '] :: stray) =
          .error (.structural ⟨if m ≤ 2 then m else m + 1, fault⟩)) ∧
      ¬∃ out, formatLines {} (["LOOP".toList, "REPEAT".toList] ++ [' '] :: stray) = .ok out := by
  intro loop back stray remark placed
  have hfeed : '\n' ∉ remark := by decide
  obtain ⟨c, hc⟩ := exists_classify {} hfeed
  have hneutral : c.Neutral := by
    have heffect : (classify {} remark).map (fun c => (c.keyword, c.opens, c.closes)) =
        .ok (some .forLoop, false, false) := by decide +kernel
    rw [hc] at heffect
    obtain ⟨hk, hopens, hcloses⟩ : c.keyword = some .forLoop ∧ c.opens = false ∧ c.closes = false := by
      simpa [Except.map] using heffect
    exact ⟨hopens, hcloses, by simp [hk]⟩
  have hremark : Transparent {} remark back := Or.inr ⟨by decide, c, hc, hneutral⟩
  have hblank : Transparent {} [' '] stray := Or.inl (by decide)
  have hplaced : formatLines {} (loop ++ remark :: back) = .ok placed := by decide +kernel
  have hfails : formatLines {} (["LOOP".toList, "REPEAT".toList] ++ stray) =
      .error (.structural ⟨3, .belowZero⟩) := by decide +kernel
  have hloop : ∀ l ∈ loop ++ back, '\n' ∉ l := by decide
  have hrepeat : ∀ l ∈ ["LOOP".toList, "REPEAT".toList] ++ stray, '\n' ∉ l := by decide
  obtain ⟨-, herase, -⟩ := formatLines_insert (o := {}) hloop hremark
  obtain ⟨hiff, -, herror⟩ := formatLines_insert (o := {}) hrepeat hblank
  refine ⟨hremark, hplaced, herase _ hplaced, hblank, herror _ hfails, ?_⟩
  rw [hiff, hfails]
  simp

end PickIndent
