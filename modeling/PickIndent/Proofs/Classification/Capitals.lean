import PickIndent.Proofs.Classification.Bare
import PickIndent.Proofs.Lexeme.Capitals
import PickIndent.Proofs.Text.Pieces

/-!
# Capitals of a line — what it does to the nesting

Keywords are spelled in capitals, so a line without variants does to the nesting when case is ignored what its
capitals do when it is not (`classify_capitals`).
-/

namespace PickIndent

variable {code : Text}

/-! ### Keywords -/

theorem caseless_endsKeyword : Caseless Keyword.endsKeyword := caseless_isBlank.or (caseless_beq (by decide))

theorem caseless_isWordChar : Caseless isWordChar := caseless_of_letters (by decide +kernel)

theorem mem_of_dropFront?_eq_some {fold : Char → Char} {w t r : Text} (h : dropFront? fold w t = some r) {c : Char}
    (hc : c ∈ r) : c ∈ t := by
  obtain ⟨u, rfl, -⟩ := exists_of_dropFront?_eq_some h
  exact List.mem_append_right u hc

theorem dropWords?_capitals (ws : List Text) (h : NoVariants code) :
    dropWords? (letter false) ws (capitals code) = (dropWords? (letter true) ws code).map capitals := by
  induction ws generalizing code with
  | nil => rfl
  | cons w ws ih =>
    cases ws with
    | nil => exact dropFront?_capitals w h
    | cons w' ws =>
      rw [dropWords?, dropWords?, dropFront?_capitals w h]
      · cases hdrop : dropFront? (letter true) w code with
        | none => rfl
        | some later =>
          cases later with
          | nil => rfl
          | cons c rest =>
            have hrest : NoVariants (trimStart rest) := h.mono fun a ha =>
              mem_of_dropFront?_eq_some hdrop (List.mem_cons_of_mem c ((trimStart_isSuffix rest).subset ha))
            simp only [Option.map_some, capitals_cons, caseless_isBlank c, trimStart_capitals, ih hrest]
            split <;> rfl
      · exact List.cons_ne_nil w' ws
      · exact List.cons_ne_nil w' ws

variable (d : Dialect)

theorem fits_capitals (k : Keyword) (h : NoVariants code) :
    Keyword.fits { d with ignoreCase := false } (capitals code) k =
      Keyword.fits { d with ignoreCase := true } code k := by
  simp only [Keyword.fits, dropWords?_capitals k.words h]
  cases dropWords? (letter true) k.words code with
  | none => rfl
  | some rest => exact startsWithOrEnds_capitals caseless_endsKeyword rest

theorem find?_capitals (h : NoVariants code) :
    Keyword.find? { d with ignoreCase := false } (capitals code) =
      Keyword.find? { d with ignoreCase := true } code := by
  rw [Keyword.find?, Keyword.find?]
  congr 1
  funext k
  exact fits_capitals d k h

/-! ### Clauses and statements -/

theorem dropSemicolon_capitals (t : Text) : dropSemicolon (capitals t) = capitals (dropSemicolon t) := by
  have hlast := getLast?_capitals (a := ';') (by decide) t
  rw [dropSemicolon, dropSemicolon]
  split
  next h => rw [if_pos (hlast.mp h), capitals, capitals, List.map_dropLast]
  next h => rw [if_neg (hlast.not.mp h)]

theorem mem_of_mem_dropSemicolon {t : Text} {c : Char} (h : c ∈ dropSemicolon t) : c ∈ t := by
  unfold dropSemicolon at h
  split at h
  · exact (List.dropLast_prefix t).subset h
  · exact h

theorem endsOpen_capitals (h : NoVariants code) :
    endsOpen { d with ignoreCase := false } (capitals code) = endsOpen { d with ignoreCase := true } code := by
  have hend : NoVariants (trimEnd (dropSemicolon code)) :=
    h.mono fun c hc => mem_of_mem_dropSemicolon ((trimEnd_isPrefix _).subset hc)
  rw [endsOpen, endsOpen, dropSemicolon_capitals, trimEnd_capitals]
  congr 1
  funext w
  exact endsInWord_capitals caseless_isWordChar.not w hend

theorem statements_capitals (code : Text) : statements (capitals code) = (statements code).map capitals := by
  have htrim : trim ∘ capitals = capitals ∘ trim := funext trim_capitals
  have hempty : ((· != []) : Text → Bool) ∘ capitals = (· != []) := by
    funext t
    cases t <;> rfl
  rw [statements, statements, splitOn_capitals (by decide), List.map_map, htrim, ← List.map_map, List.filter_map,
    hempty]

theorem mem_of_mem_statements {statement : Text} (h : statement ∈ statements code) {c : Char} (hc : c ∈ statement) :
    c ∈ code := by
  obtain ⟨piece, hpiece, rfl⟩ := List.mem_map.mp (List.mem_of_mem_filter h)
  exact mem_of_mem_splitOn hpiece (mem_of_mem_trim hc)

theorem closesItself_capitals (k : Keyword) (h : NoVariants code) :
    closesItself { d with ignoreCase := false } (capitals code) k =
      closesItself { d with ignoreCase := true } code k := by
  rw [closesItself, closesItself, statements_capitals, List.getLast?_map, List.length_map]
  cases k.closer? with
  | none => rfl
  | some closer =>
    cases hlast : (statements code).getLast? with
    | none => rfl
    | some last =>
      have hvariants : NoVariants last := h.mono fun c hc => mem_of_mem_statements (List.mem_of_getLast? hlast) hc
      simp only [Option.map_some, fits_capitals d closer hvariants, endsInWord_capitals caseless_isBlank _ hvariants]

theorem holdsStatements_capitals (code : Text) : holdsStatements (capitals code) = holdsStatements code := by
  rw [holdsStatements, holdsStatements, dropSemicolon_capitals, Bool.eq_iff_iff, List.contains_iff_mem,
    List.contains_iff_mem, mem_capitals (by decide)]

theorem opensBlock_capitals (k : Keyword) (h : NoVariants code) :
    opensBlock { d with ignoreCase := false } (capitals code) k = opensBlock { d with ignoreCase := true } code k := by
  rw [opensBlock, opensBlock, closesItself_capitals d k h, endsOpen_capitals d h, holdsStatements_capitals]

/-! ### Lines -/

/-- The same classification of a code in capitals. -/
def Classification.inCapitals (c : Classification) : Classification := { c with code := capitals c.code }

theorem classifyCode_capitals (h : NoVariants code) :
    classifyCode { d with ignoreCase := false } (capitals code) =
      (classifyCode { d with ignoreCase := true } code).inCapitals := by
  rw [classifyCode, classifyCode, find?_capitals d h]
  split
  next => rfl
  next k _ =>
    rw [opensBlock_capitals d k h, closesItself_capitals d k h]
    rfl

/-- **Capitals do without regard to case what the line does regardless of case.** -/
theorem classify_capitals {line : Text} (hfeed : '\n' ∉ line) (h : NoVariants line) :
    classify { d with ignoreCase := false } (capitals line) =
      (classify { d with ignoreCase := true } line).map Classification.inCapitals := by
  rw [classify, classify, isDirective_capitals, codeOf_capitals hfeed]
  split
  · rw [trim_capitals]
    rfl
  · cases hcode : codeOf line with
    | error e => rfl
    | ok code => exact congrArg Except.ok (classifyCode_capitals d (h.mono fun c hc => mem_of_mem_codeOf hfeed hcode hc))

end PickIndent
