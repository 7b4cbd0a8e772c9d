import PickIndent.Proofs.Nesting.Comparison
import PickIndent.Proofs.Pass.Walk

/-!
# Returns — the levels if `RETURN` ends a block

Where `RETURN` ends a block the levels of a program lie no deeper than where it does not, and its groups are the
same.  So a program that finds its levels with `RETURN` as an end finds them without, and a `CASE` without a
group is reported in both (`formatLines_returning`).  Only the `RETURN`s outside every branch make a
difference.
-/

namespace PickIndent

variable {d : Dialect} {n : Nat} {s t : Nesting} {lines : List Text} {line : Text}

theorem classify_returning_ok {closes : Bool} {c : Classification}
    (h : classify { d with returnCloses := closes } line = .ok c) :
    ∃ c', classify d line = .ok c' ∧ c = c'.returning closes := by
  rw [classify_returning] at h
  obtain ⟨c', hc, rfl⟩ := map_eq_ok_iff.mp h
  exact ⟨c', hc, rfl⟩

theorem classify_returning_of_ok {c : Classification} (h : classify d line = .ok c) (closes : Bool) :
    classify { d with returnCloses := closes } line = .ok (c.returning closes) := by
  rw [classify_returning, h]
  rfl

/-! ### Two passes, one below the other -/

/-- **The levels with `RETURN` as an end are no deeper than those without**, line by line. -/
theorem levelsFrom_below {ls : List (Option Int)} (h : s.Below t)
    (hls : levelsFrom { d with returnCloses := true } n s lines = .ok ls) :
    ∃ ls', levelsFrom { d with returnCloses := false } n t lines = .ok ls' ∧
      List.Forall₂ (Option.Rel (· ≤ ·)) ls ls' := by
  induction lines generalizing n s t ls with
  | nil =>
    obtain rfl : [] = ls := by simpa [levelsFrom] using hls
    exact ⟨[], rfl, .nil⟩
  | cons line later ih =>
    rcases levelsFrom_cons_ok hls with ⟨hb, ls, hlater, rfl⟩ | ⟨hb, c, level, s', ls, hc, hv, hlater, rfl⟩
    · obtain ⟨ls', hls', hle⟩ := ih h hlater
      exact ⟨none :: ls', by rw [levelsFrom_blank hb, hls']; rfl, .cons .none hle⟩
    · obtain ⟨c, hclassify, rfl⟩ := classify_returning_ok hc
      obtain ⟨level', t', hv', hlevel, hbelow⟩ := h.visit_ok hv
      obtain ⟨ls', hls', hle⟩ := ih hbelow hlater
      refine ⟨some level' :: ls', ?_, .cons (.some hlevel) hle⟩
      rw [levelsFrom_visit hb (classify_returning_of_ok hclassify false) hv', hls']
      rfl

/-- A line that has no group with `RETURN` as an end has none without. -/
theorem levelsFrom_outside {m : Int} {k : Keyword} (h : s.Below t)
    (hls : levelsFrom { d with returnCloses := true } n s lines = .error (.structural ⟨m, .outsideCase k⟩)) :
    levelsFrom { d with returnCloses := false } n t lines = .error (.structural ⟨m, .outsideCase k⟩) := by
  induction lines generalizing n s t with
  | nil => simp [levelsFrom] at hls
  | cons line later ih =>
    rcases levelsFrom_cons_error hls with ⟨hb, hlater⟩ | ⟨hb, ⟨e, -, he⟩ | ⟨c, hc, hvisit⟩⟩
    · rw [levelsFrom_blank hb, ih h hlater]
      rfl
    · simp at he
    · obtain ⟨c, hclassify, rfl⟩ := classify_returning_ok hc
      have hc' := classify_returning_of_ok hclassify false
      rcases hvisit with ⟨fault, hv, he⟩ | ⟨level, s', hv, hlater⟩
      · obtain ⟨rfl, rfl⟩ : m = n ∧ .outsideCase k = fault := by simpa using he
        exact levelsFrom_fault hb hc' (h.visit_outside hv)
      · obtain ⟨level', t', hv', -, hbelow⟩ := h.visit_ok hv
        rw [levelsFrom_visit hb hc' hv', ih hbelow hlater]
        rfl

/-- A line that is reported to lie below zero is no `RETURN`. -/
theorem exists_of_belowZero {m : Int} (h : levelsFrom d n s lines = .error (.structural ⟨m, .belowZero⟩)) :
    ∃ i line c, m = (n + i : Nat) ∧ lines[i]? = some line ∧ isBlankText line = false ∧
      classify d line = .ok c ∧ c.keyword ≠ some .returnJump := by
  induction lines generalizing n s with
  | nil => simp [levelsFrom] at h
  | cons line later ih =>
    have of_later : ∀ {t : Nesting}, levelsFrom d (n + 1) t later = .error (.structural ⟨m, .belowZero⟩) →
        ∃ i line' c, m = (n + i : Nat) ∧ (line :: later)[i]? = some line' ∧ isBlankText line' = false ∧
          classify d line' = .ok c ∧ c.keyword ≠ some .returnJump := by
      intro t ht
      obtain ⟨i, line', c, rfl, hi, hline'⟩ := ih ht
      exact ⟨i + 1, line', c, by omega, hi, hline'⟩
    rcases levelsFrom_cons_error h with ⟨-, hlater⟩ | ⟨hb, ⟨e, -, he⟩ | ⟨c, hc, hvisit⟩⟩
    · exact of_later hlater
    · simp at he
    · rcases hvisit with ⟨fault, hv, he⟩ | ⟨level, s', -, hlater⟩
      · obtain ⟨rfl, rfl⟩ : m = n ∧ .belowZero = fault := by simpa using he
        exact ⟨0, line, c, rfl, rfl, hb, hc, Nesting.keyword_ne_return_of_visit hv⟩
      · exact of_later hlater

/-! ### Returns in branches -/

/-- The pass that begins at `s` meets every `RETURN` in a branch. -/
def ReturnsInBranches (d : Dialect) (n : Nat) (s : Nesting) (lines : List Text) : Prop :=
  ∀ i line c ls t, lines[i]? = some line → isBlankText line = false → classify d line = .ok c →
    c.keyword = some .returnJump → walk d n s (lines.take i) = .ok (ls, t) → t.inBranch = true

theorem ReturnsInBranches.of_blank {later : List Text} (h : ReturnsInBranches d n s (line :: later))
    (hb : isBlankText line = true) : ReturnsInBranches d (n + 1) s later :=
  fun i l c _ t hi hl hc hk hwalk => h (i + 1) l c _ t hi hl hc hk (walk_blank hb hwalk)

theorem ReturnsInBranches.of_visit {later : List Text} {c : Classification} {level : Int}
    (h : ReturnsInBranches d n s (line :: later)) (hb : isBlankText line = false) (hc : classify d line = .ok c)
    (hv : s.visit c (later.all isBlankText) = .ok (level, t)) : ReturnsInBranches d (n + 1) t later := by
  intro i l c' ls t' hi hl hc' hk hwalk
  have hnot : later.all isBlankText = false := List.all_eq_false.mpr ⟨l, List.mem_of_getElem? hi, by simp [hl]⟩
  rw [hnot] at hv
  exact h (i + 1) l c' _ t' hi hl hc' hk (walk_visit hb hc hv hwalk)

/-- **A `RETURN` in a branch makes no difference.** -/
theorem levelsFrom_returning (h : ReturnsInBranches { d with returnCloses := true } n s lines) :
    levelsFrom { d with returnCloses := true } n s lines =
      levelsFrom { d with returnCloses := false } n s lines := by
  induction lines generalizing n s with
  | nil => rfl
  | cons line later ih =>
    cases hb : isBlankText line with
    | true => rw [levelsFrom_blank hb, levelsFrom_blank hb, ih (h.of_blank hb)]
    | false =>
      cases hclassify : classify d line with
      | error e =>
        have herror : ∀ closes, classify { d with returnCloses := closes } line = .error e := fun closes => by
          rw [classify_returning, hclassify]
          rfl
        rw [levelsFrom_lexical hb (herror true), levelsFrom_lexical hb (herror false)]
      | ok c =>
        have hc := classify_returning_of_ok hclassify
        have hsame : s.visit (c.returning true) (later.all isBlankText) =
            s.visit (c.returning false) (later.all isBlankText) :=
          Nesting.visit_returning fun hk => h 0 line _ [] s rfl hb (hc true) (by simpa using hk) rfl
        cases hv : s.visit (c.returning true) (later.all isBlankText) with
        | error fault => rw [levelsFrom_fault hb (hc true) hv, levelsFrom_fault hb (hc false) (hsame ▸ hv)]
        | ok placed =>
          rw [levelsFrom_visit hb (hc true) hv, levelsFrom_visit hb (hc false) (hsame ▸ hv),
            ih (h.of_visit hb (hc true) hv)]

/-! ### Formatting -/

/-- **With `RETURN` as an end a program lies no deeper.**  If it is formatted so, it is formatted without as
well, and no line that is not blank stands deeper with than without.  A `CASE` or `END CASE` that has no group
with has none without and is reported on the same line.  A `RETURN` is never reported to lie below zero.  If the
pass meets every `RETURN` in a branch, then with and without it ends alike. -/
theorem formatLines_returning (o : Options) (lines : List Text) :
    let strict : Options := { o with returnCloses := true }
    let free : Options := { o with returnCloses := false }
    (∀ out, formatLines strict lines = .ok out →
      ∃ ls ls', levels strict.toDialect lines = .ok ls ∧ levels free.toDialect lines = .ok ls' ∧
        List.Forall₂ (Option.Rel (· ≤ ·)) ls ls' ∧
        out = List.zipWith (fun line level? => level?.elim [] (renderLine o.toStyle · line)) lines ls ∧
        formatLines free lines =
          .ok (List.zipWith (fun line level? => level?.elim [] (renderLine o.toStyle · line)) lines ls')) ∧
    (∀ (m : Int) (k : Keyword), formatLines strict lines = .error (.structural ⟨m, .outsideCase k⟩) →
      formatLines free lines = .error (.structural ⟨m, .outsideCase k⟩)) ∧
    (∀ (closes : Bool) (m : Int),
      formatLines { o with returnCloses := closes } lines = .error (.structural ⟨m, .belowZero⟩) →
        ∃ i line c, m = (i + 1 : Nat) ∧ lines[i]? = some line ∧ isBlankText line = false ∧
          classify { o.toDialect with returnCloses := closes } line = .ok c ∧
          c.keyword ≠ some .returnJump) ∧
    (ReturnsInBranches strict.toDialect 1 .outermost lines → formatLines strict lines = formatLines free lines) := by
  intro strict free
  refine ⟨fun out hout => ?_, fun m k herror => ?_, fun closes m herror => ?_, fun hbranches => ?_⟩
  · obtain ⟨ls, hls, rfl⟩ := formatLines_eq_ok_iff.mp hout
    obtain ⟨ls', hls', hle⟩ := levelsFrom_below (.refl .outermost) hls
    rw [← place_eq]
    exact ⟨ls, ls', hls, hls', hle, rfl, formatLines_eq_ok_iff.mpr ⟨ls', hls', rfl⟩⟩
  · rw [formatLines_eq_error_iff] at herror ⊢
    exact levelsFrom_outside (.refl .outermost) herror
  · rw [formatLines_eq_error_iff] at herror
    obtain ⟨i, line, c, rfl, hline⟩ := exists_of_belowZero herror
    exact ⟨i, line, c, by omega, hline⟩
  · have hlevels : levels strict.toDialect lines = levels free.toDialect lines := levelsFrom_returning hbranches
    rw [formatLines, formatLines, hlevels]

theorem formatLines_returning_clamped :
    let strict : Options := { returnCloses := true }
    let clamped := ["RETURN".toList, "LOOP".toList, "RETURN".toList, "X = 1".toList]
    let stray := ["LOOP".toList, "RETURN".toList, "END CASE".toList]
    let below := ["RETURN".toList, "NEXT I".toList, "X = 1".toList]
    let branch := ["BEGIN CASE".toList, "CASE A".toList, "RETURN".toList, "END CASE".toList]
    (∃ ls ls', levels strict.toDialect clamped = .ok ls ∧ levels {} clamped = .ok ls' ∧
      List.Forall₂ (Option.Rel (· ≤ ·)) ls ls' ∧ ls = [some 0, some 0, some 0, some 0] ∧
      ls' = [some 0, some 0, some 1, some 1]) ∧
    formatLines strict stray = .error (.structural ⟨3, .outsideCase .endCase⟩) ∧
    formatLines {} stray = .error (.structural ⟨3, .outsideCase .endCase⟩) ∧
    (∃ i line c, (2 : Int) = (i + 1 : Nat) ∧ below[i]? = some line ∧ isBlankText line = false ∧
      classify strict.toDialect line = .ok c ∧ c.keyword ≠ some .returnJump) ∧
    formatLines strict branch = formatLines {} branch := by
  intro strict clamped stray below branch
  obtain ⟨hlower, -, -, -⟩ := formatLines_returning {} clamped
  obtain ⟨-, houtside, -, -⟩ := formatLines_returning {} stray
  obtain ⟨-, -, hbelow, -⟩ := formatLines_returning {} below
  obtain ⟨-, -, -, hbranches⟩ := formatLines_returning {} branch
  have hclamped : formatLines strict clamped =
      .ok ["     RETURN".toList, "     LOOP".toList, "     RETURN".toList, "     X = 1".toList] := by
    decide +kernel
  have hstray : formatLines strict stray = .error (.structural ⟨3, .outsideCase .endCase⟩) := by decide +kernel
  have hzero : formatLines strict below = .error (.structural ⟨2, .belowZero⟩) := by decide +kernel
  have hmet : ReturnsInBranches strict.toDialect 1 .outermost branch := by
    intro i line c ls t hi _ hc hk hwalk
    have hreturn : (classify strict.toDialect line).map Classification.keyword = .ok (some .returnJump) := by
      rw [hc]
      exact congrArg Except.ok hk
    -- of the four lines only the third one is a `RETURN`
    match i with
    | 0 =>
      obtain rfl := Option.some.inj hi
      exact absurd hreturn (by decide +kernel)
    | 1 =>
      obtain rfl := Option.some.inj hi
      exact absurd hreturn (by decide +kernel)
    | 2 =>
      have hopen : walk strict.toDialect 1 .outermost (branch.take 2) = .ok ([some 0, some 1], ⟨2, [true]⟩) := by
        decide +kernel
      obtain ⟨-, rfl⟩ := Prod.mk.inj (Except.ok.inj (hwalk.symm.trans hopen))
      rfl
    | 3 =>
      obtain rfl := Option.some.inj hi
      exact absurd hreturn (by decide +kernel)
  obtain ⟨ls, ls', hls, hls', hle, -⟩ := hlower _ hclamped
  have hdeep : levels strict.toDialect clamped = .ok [some 0, some 0, some 0, some 0] := by decide +kernel
  have hfree : levels {} clamped = .ok [some 0, some 0, some 1, some 1] := by decide +kernel
  obtain rfl := Except.ok.inj (hls.symm.trans hdeep)
  obtain rfl := Except.ok.inj (hls'.symm.trans hfree)
  exact ⟨⟨_, _, hls, hls', hle, rfl, rfl⟩, hstray, houtside _ _ hstray, hbelow true 2 hzero, hbranches hmet⟩

end PickIndent
