import PickIndent.Proofs.Document.Endings
import PickIndent.Proofs.Pass.Faults

/-!
# Lexing documents — every line has its lexemes

Lexing loses nothing and stops at nothing but a line feed outside a string literal (`lex_lossless`).  The lines
of a document have no line feeds, so all of them have lexemes and a document is formatted or has a line at
fault.
-/

namespace PickIndent

/-! ### The lexemes of a text -/

/-- Lexemes as they come from a text: none is empty, a line feed lies only in a string literal, and a comment
is only the last of them. -/
structure WellCut (xs : List Lexeme) : Prop where
  text_ne_nil : ∀ x ∈ xs, x.text ≠ []
  isString : ∀ x ∈ xs, '\n' ∈ x.text → x.kind.isString = true
  comment_last : ∀ x ∈ xs.dropLast, x.kind ≠ .comment

theorem Lexed.wellCut {xs : List Lexeme} {rest : Text} (h : Lexed rest xs) : WellCut xs :=
  ⟨h.text_ne_nil, h.isString_of_feed, h.not_comment_of_mem_dropLast⟩

/-- A text is cut as a whole, or up to a line feed. -/
theorem lex_cases (t : Text) :
    (∃ xs, lex t = .ok xs ∧ spell xs = t ∧ WellCut xs) ∨
    ∃ xs later, scan t = (xs, '\n' :: later) ∧ lex t = .error ⟨spell xs⟩ ∧ t = spell xs ++ '\n' :: later ∧
      WellCut xs := by
  obtain ⟨hlexed, hspell⟩ := lexed_scan t
  rcases hscan : scan t with ⟨xs, rest⟩
  rw [hscan] at hlexed hspell
  cases rest with
  | nil => exact Or.inl ⟨xs, by rw [lex, hscan], by simpa using hspell, hlexed.wellCut⟩
  | cons c later =>
    obtain rfl : c = '\n' := by simpa [startsWithOrEnds] using hlexed.stops
    exact Or.inr ⟨xs, later, rfl, by rw [lex, hscan], hspell.symm, hlexed.wellCut⟩

/-! ### The lines of a document -/

theorem formatEdits_error {o : Options} {t : Text} {e : PassError} (h : formatEdits o t = .error e) :
    formatLines o (splitLines t) = .error e := by
  rw [formatEdits] at h
  exact map_eq_error_iff.mp h

/-- A document that is not formatted has a line that is at fault. -/
theorem exists_fault_of_formatEdits {o : Options} {t : Text} {e : PassError}
    (h : formatEdits o t = .error e) :
    ∃ i fault, i < (splitLines t).length ∧ e = .structural ⟨(i + 1 : Nat), fault⟩ ∧ fault.Reportable :=
  formatLines_error (fun _ hl => feed_not_mem_splitLines hl) (formatEdits_error h)

/-- **Lexing is lossless and fails only at a line feed outside a string literal.**  Either the whole text is
cut into lexemes, or the failure is at a line feed of the text, before which the lexemes so far stand.  A text
without line feeds is always cut.  So every line of a document is, and formatting a document ends with its
lines or with the report of a line at fault. -/
theorem lex_lossless (t : Text) :
    ((∃ xs, lex t = .ok xs ∧ spell xs = t ∧ WellCut xs) ∨
      ∃ e xs later, lex t = .error e ∧ scan t = (xs, '\n' :: later) ∧ t[e.offset]? = some '\n' ∧
        t.take e.offset = spell xs ∧ WellCut xs) ∧
    ('\n' ∉ t → ∃ xs, lex t = .ok xs) ∧
    (∀ line ∈ splitLines t, ∃ xs, lex line = .ok xs) ∧
    (∀ o : Options, (∃ r, formatEdits o t = .ok r) ∨
      ∃ i fault, i < (splitLines t).length ∧ formatEdits o t = .error (.structural ⟨(i + 1 : Nat), fault⟩) ∧
        fault.Reportable) := by
  refine ⟨?_, exists_lex, fun line hline => exists_lex (feed_not_mem_splitLines hline), fun o => ?_⟩
  · rcases lex_cases t with hok | ⟨xs, later, hscan, herror, ht, hcut⟩
    · exact Or.inl hok
    · refine Or.inr ⟨_, xs, later, herror, hscan, ?_, ?_, hcut⟩
      · simp only [StrayNewline.offset]
        rw [ht, List.getElem?_append_right (Nat.le_refl _), Nat.sub_self]
        rfl
      · simp only [StrayNewline.offset]
        rw [ht, List.take_left]
  · cases hedits : formatEdits o t with
    | ok r => exact Or.inl ⟨r, rfl⟩
    | error e =>
      obtain ⟨i, fault, hi, rfl, hfault⟩ := exists_fault_of_formatEdits hedits
      exact Or.inr ⟨i, fault, hi, rfl, hfault⟩

theorem lex_lossless_stray :
    let line := "PRINT 'a ;* b".toList
    let t := "A = \"x\ny\" ;* z\n".toList ++ line
    lex t = .error ⟨"A = \"x\ny\" ;* z".toList⟩ ∧
      (∃ xs later, scan t = (xs, '\n' :: later) ∧ t[14]? = some '\n' ∧ t.take 14 = spell xs ∧ WellCut xs) ∧
      '\n' ∉ line ∧ (∃ xs, lex line = .ok xs) ∧
      "A = \"x".toList ∈ splitLines t ∧ ∃ xs, lex "A = \"x".toList = .ok xs := by
  intro line t
  have herror : lex t = .error ⟨"A = \"x\ny\" ;* z".toList⟩ := by decide +kernel
  have hfeed : '\n' ∉ line := by decide
  have hopen : "A = \"x".toList ∈ splitLines t := by decide
  obtain ⟨hcases, -, hlines, -⟩ := lex_lossless t
  obtain ⟨-, hnewline, -, -⟩ := lex_lossless line
  refine ⟨herror, ?_, hfeed, hnewline hfeed, hopen, hlines _ hopen⟩
  rcases hcases with ⟨xs, hok, -⟩ | ⟨e, xs, later, he, hscan, hat, htake, hcut⟩
  · simp [herror] at hok
  · obtain rfl : StrayNewline.mk "A = \"x\ny\" ;* z".toList = e := by simpa [herror] using he
    exact ⟨xs, later, hscan, hat, htake, hcut⟩

end PickIndent
