import PickIndent.Proofs.Classification.Bare
import PickIndent.Proofs.Layout.Content
import PickIndent.Proofs.Pass.Faults
import PickIndent.Proofs.Pass.Outcome
import PickIndent.Proofs.Pass.Walk

/-!
# Fronts — a pass is decided from the front

The pass looks ahead for one reason: the `END` behind which no code follows stands outermost.  Where the last line
with code is no `END` (`Unfinished`), the levels of some lines are those of a walk, whatever stands behind them
(`levelsFrom_append_of_unfinished`).  So an unfinished front comes to the same alone and as a part of a longer
program, and an `END` behind it always finds its place (`formatLines_front`).
-/

namespace PickIndent

/-- The last line with code, if there is one, is no `END`. -/
def Unfinished (d : Dialect) (lines : List Text) : Prop :=
  ∀ c ∈ (tokens d lines).getLast?, c.keyword ≠ some .blockEnd

instance (d : Dialect) (lines : List Text) : Decidable (Unfinished d lines) :=
  inferInstanceAs (Decidable (∀ c ∈ (tokens d lines).getLast?, c.keyword ≠ some .blockEnd))

variable {d : Dialect} {n : Nat} {s t : Nesting} {c : Classification} {line : Text} {later front back : List Text}
  {ls : List (Option Int)}

/-! ### The last line with code -/

theorem tokens_of_blank (h : later.all isBlankText = true) : tokens d later = [] := by
  rw [List.all_eq_true] at h
  refine List.filterMap_eq_nil_iff.mpr fun line hline => ?_
  rw [token?, if_pos (h line hline)]

theorem Unfinished.of_cons (h : Unfinished d (line :: later)) : Unfinished d later := by
  intro c hc
  refine h c ?_
  rw [tokens_cons, List.getLast?_append, Option.mem_def.mp hc]
  rfl

/-- A line with nothing but blank lines behind it is the last one with code. -/
theorem Unfinished.not_end (h : Unfinished d (line :: later)) (hb : isBlankText line = false)
    (hc : classify d line = .ok c) (hlater : later.all isBlankText = true) : c.keyword ≠ some .blockEnd := by
  refine h c ?_
  rw [tokens_cons, tokens_of_blank hlater, token?_of_classify hb hc]
  rfl

/-- For a line that is no `END` it makes no difference what follows. -/
theorem Nesting.visit_of_ne_end (h : c.keyword ≠ some .blockEnd) (s : Nesting) (final : Bool) :
    s.visit c final = s.visit c false := by
  simp [visit, settle, h]

theorem Unfinished.visit_eq (h : Unfinished d (line :: later)) (hb : isBlankText line = false)
    (hc : classify d line = .ok c) (s : Nesting) (back : List Text) :
    s.visit c ((later ++ back).all isBlankText) = s.visit c false := by
  cases hlater : later.all isBlankText with
  | false => rw [List.all_append, hlater, Bool.false_and]
  | true => exact Nesting.visit_of_ne_end (h.not_end hb hc hlater) s _

/-! ### The levels of a front -/

theorem walk_lexical {e : StrayNewline} (h : isBlankText line = false) (hc : classify d line = .error e)
    (later : List Text) : walk d n s (line :: later) = .error (.lexical e) := by
  rw [walk, if_neg (by simp [h]), hc]

theorem walk_fault {fault : Fault} (h : isBlankText line = false) (hc : classify d line = .ok c)
    (hv : s.visit c false = .error fault) (later : List Text) :
    walk d n s (line :: later) = .error (.structural ⟨n, fault⟩) := by
  rw [walk, if_neg (by simp [h]), hc]
  simp only [hv]

/-- **The levels of an unfinished front are those of a walk**, and the lines behind it go on where the walk has
led to. -/
theorem levelsFrom_append_of_unfinished (h : Unfinished d front) (back : List Text) :
    levelsFrom d n s (front ++ back) =
      match walk d n s front with
      | .error e => .error e
      | .ok (ls, t) => (levelsFrom d (n + front.length) t back).map (ls ++ ·) := by
  induction front generalizing n s with
  | nil =>
    show levelsFrom d n s back = (levelsFrom d n s back).map ([] ++ ·)
    cases levelsFrom d n s back <;> rfl
  | cons line later ih =>
    have hlength : n + (line :: later).length = n + 1 + later.length := by rw [List.length_cons]; omega
    rw [List.cons_append, hlength]
    cases hb : isBlankText line with
    | true =>
      rw [levelsFrom_blank hb, ih h.of_cons, walk, if_pos hb]
      cases walk d (n + 1) s later with
      | error e => rfl
      | ok r => exact map_map _
    | false =>
      cases hc : classify d line with
      | error e => rw [levelsFrom_lexical hb hc, walk_lexical hb hc]
      | ok c =>
        have hvisit := h.visit_eq hb hc s back
        cases hv : s.visit c false with
        | error fault => rw [levelsFrom_fault hb hc (hvisit.trans hv), walk_fault hb hc hv]
        | ok placed =>
          obtain ⟨level, m⟩ := placed
          rw [levelsFrom_visit hb hc (hvisit.trans hv), ih h.of_cons, walk, if_neg (by simp [hb]), hc]
          simp only [hv]
          cases walk d (n + 1) m later with
          | error e => rfl
          | ok r => exact map_map _

/-- The levels of an unfinished program are those of a walk. -/
theorem levelsFrom_of_unfinished (h : Unfinished d front) :
    levelsFrom d n s front = (walk d n s front).map Prod.fst := by
  have hnil := levelsFrom_append_of_unfinished (n := n) (s := s) h []
  rw [List.append_nil] at hnil
  rw [hnil]
  cases walk d n s front with
  | error e => rfl
  | ok r => exact congrArg Except.ok (List.append_nil r.1)

/-! ### The `END` of a program -/

/-- A line that begins with a keyword is not blank. -/
theorem isBlankText_of_keyword {k : Keyword} (hc : classify d line = .ok c) (hk : c.keyword = some k) :
    isBlankText line = false := by
  by_contra hblank
  obtain ⟨hlabel, hcode⟩ := isBlankText_iff_content.mp (Bool.not_eq_false _ ▸ hblank)
  have hdirective : isDirective line = false := by
    rw [isDirective, ← dropLabel_of_label?_eq_none hlabel, hcode]
    rfl
  have hnil : codeText [] = .ok [] := by
    rw [codeText, lex, scan]
    rfl
  rw [classify, hdirective, codeOf, hcode, hnil] at hc
  obtain rfl := Except.ok.inj hc
  exact absurd hk (by simp [classifyCode, Keyword.find?_nil])

/-- **The `END` of a program stands outermost**, whatever is still open. -/
theorem levelsFrom_end (hc : classify d line = .ok c) (hk : c.keyword = some .blockEnd) (n : Nat) (s : Nesting) :
    levelsFrom d n s [line] = .ok [some 0] := by
  have hb := isBlankText_of_keyword hc hk
  have henter : ∃ m, s.enter c = .ok m := by
    simp only [Nesting.enter, Nesting.trackCase, hk]
    exact ⟨_, rfl⟩
  obtain ⟨m, hm⟩ := henter
  have hvisit : s.visit c (([] : List Text).all isBlankText) = .ok (0, Nesting.leave c ⟨0, m.groups⟩) := by
    simp [Nesting.visit, hm, Nesting.settle, hk]
  rw [levelsFrom_visit hb hc hvisit]
  rfl

/-! ### Formatting -/

/-- **A pass is decided from the front.**  If an unfinished front has no place for a line, the whole program fails
with the same report.  If the front is formatted, the program begins with its lines as they are formatted alone,
or fails at a line behind the front.  An `END` right behind the front, and nothing else, is always formatted: it
stands outermost. -/
theorem formatLines_front {o : Options} (hfront : Unfinished o.toDialect front) (hfeed : ∀ line ∈ back, '\n' ∉ line) :
    (∀ e, formatLines o front = .error e → formatLines o (front ++ back) = .error e) ∧
    ∀ out, formatLines o front = .ok out →
      ((∃ whole, formatLines o (front ++ back) = .ok whole ∧ whole.take front.length = out) ∨
        ∃ (m : Int) (fault : Fault), front.length < m ∧
          formatLines o (front ++ back) = .error (.structural ⟨m, fault⟩)) ∧
      ∀ line c, back = [line] → classify o.toDialect line = .ok c → c.keyword = some .blockEnd →
        formatLines o (front ++ back) = .ok (out ++ [renderLine o.toStyle 0 line]) := by
  have hlevels : levels o.toDialect front = (walk o.toDialect 1 .outermost front).map Prod.fst :=
    levelsFrom_of_unfinished hfront
  have happend := levelsFrom_append_of_unfinished (n := 1) (s := .outermost) hfront back
  refine ⟨fun e he => ?_, fun out hout => ?_⟩
  · rw [formatLines_eq_error_iff, hlevels, map_eq_error_iff] at he
    rw [formatLines_eq_error_iff, levels, happend, he]
  obtain ⟨ls, hls, rfl⟩ := formatLines_eq_ok_iff.mp hout
  obtain ⟨⟨_, t⟩, hwalk, rfl⟩ := map_eq_ok_iff.mp (hlevels.symm.trans hls)
  rename_i ls
  have hlength : front.length = ls.length := (levelsFrom_forall₂ hls).length_eq
  -- the lines behind the front go on at the nesting that the front has led to
  have hwhole : levels o.toDialect (front ++ back) =
      (levelsFrom o.toDialect (1 + front.length) t back).map (ls ++ ·) := by
    rw [levels, happend, hwalk]
  have hformat : ∀ {ls'}, levelsFrom o.toDialect (1 + front.length) t back = .ok ls' →
      formatLines o (front ++ back) = .ok
        (List.zipWith (place o.toStyle) front ls ++ List.zipWith (place o.toStyle) back ls') := by
    intro ls' hls'
    refine formatLines_eq_ok_iff.mpr ⟨ls ++ ls', by rw [hwhole, hls']; rfl, ?_⟩
    rw [List.zipWith_append hlength]
  constructor
  · cases hback : levelsFrom o.toDialect (1 + front.length) t back with
    | ok ls' =>
      refine Or.inl ⟨_, hformat hback, ?_⟩
      exact List.take_left' (by rw [List.length_zipWith, ← hlength, Nat.min_self])
    | error e =>
      obtain ⟨i, fault, -, rfl, -⟩ := levelsFrom_error hfeed hback
      refine Or.inr ⟨(1 + front.length + i : Nat), fault, by omega, ?_⟩
      rw [formatLines_eq_error_iff, hwhole, hback]
      rfl
  · rintro line c rfl hc hk
    exact hformat (levelsFrom_end hc hk _ t)

theorem formatLines_front_loop :
    let front := ["IF A THEN".toList, "END".toList, "LOOP".toList, []]
    let out := ["     IF A THEN".toList, "     END".toList, "     LOOP".toList, []]
    let stray := ["NEXT I".toList, "LOOP".toList]
    let last := "END".toList
    Unfinished {} front ∧ formatLines {} front = .ok out ∧
      (∃ whole, formatLines {} (front ++ ["REPEAT".toList]) = .ok whole ∧ whole.take front.length = out) ∧
      (∃ (m : Int) (fault : Fault), 4 < m ∧
        formatLines {} (front ++ ["REPEAT".toList, "NEXT I".toList]) = .error (.structural ⟨m, fault⟩)) ∧
      formatLines {} (front ++ [last]) = .ok (out ++ [renderLine {} 0 last]) ∧
      Unfinished {} stray ∧ formatLines {} stray = .error (.structural ⟨1, .belowZero⟩) ∧
      formatLines {} (stray ++ [last]) = .error (.structural ⟨1, .belowZero⟩) := by
  intro front out stray last
  have hfront : Unfinished {} front := by decide +kernel
  have hstray : Unfinished {} stray := by decide +kernel
  have hout : formatLines {} front = .ok out := by decide +kernel
  have hfails : formatLines {} stray = .error (.structural ⟨1, .belowZero⟩) := by decide +kernel
  have hrepeat : ∀ line ∈ ["REPEAT".toList], '\n' ∉ line := by decide
  have hnext : ∀ line ∈ ["REPEAT".toList, "NEXT I".toList], '\n' ∉ line := by decide
  have hend : ∀ line ∈ [last], '\n' ∉ line := by decide
  obtain ⟨-, hclosed⟩ := formatLines_front (o := {}) hfront hrepeat
  obtain ⟨-, hbad⟩ := formatLines_front (o := {}) hfront hnext
  obtain ⟨-, hlast⟩ := formatLines_front (o := {}) hfront hend
  obtain ⟨herror, -⟩ := formatLines_front (o := {}) hstray hend
  obtain ⟨c, hc⟩ := exists_classify {} (hend last (by simp))
  have hk : c.keyword = some .blockEnd := by
    have hkeyword : (classify {} last).map Classification.keyword = .ok (some .blockEnd) := by decide +kernel
    rw [hc] at hkeyword
    exact Except.ok.inj hkeyword
  refine ⟨hfront, hout, ?_, ?_, (hlast out hout).2 last c rfl hc hk, hstray, hfails, herror _ hfails⟩
  · refine (hclosed out hout).1.resolve_right ?_
    rintro ⟨m, fault, -, hm⟩
    have hsuccess : (formatLines {} (front ++ ["REPEAT".toList])).toBool = true := by decide +kernel
    rw [hm] at hsuccess
    exact Bool.noConfusion hsuccess
  · refine (hbad out hout).1.resolve_left ?_
    rintro ⟨whole, hwhole, -⟩
    have hfailure : (formatLines {} (front ++ ["REPEAT".toList, "NEXT I".toList])).toBool = false := by
      decide +kernel
    rw [hwhole] at hfailure
    exact Bool.noConfusion hfailure

end PickIndent
