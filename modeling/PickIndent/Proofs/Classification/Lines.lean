import PickIndent.Classification
import PickIndent.Proofs.Label.Grammar
import PickIndent.Proofs.Lexeme.Cut
import PickIndent.Proofs.Result
import PickIndent.Proofs.Text.Trim

/-!
# Lines — what the classification of a line can be

A line without line feeds is always classified (`exists_classify`).  Where `RETURN` ends no block, what a
line opens and closes is bound by its keyword (`Classification.Regular`): only a `CASE` is free to open a
branch or not, and nothing but an `END CASE` ends a group.
-/

namespace PickIndent

variable {d : Dialect} {line : Text} {c : Classification}

/-! ### Every line is classified -/

theorem mem_of_mem_dropLabel {x : Char} (h : x ∈ dropLabel line) : x ∈ line := by
  unfold dropLabel at h
  split at h
  next label rest hsplit =>
    obtain ⟨-, htrim, -⟩ := splitLabel?_eq_some_iff.mp hsplit
    refine mem_of_mem_trim ?_
    rw [htrim]
    exact List.mem_append_right label (mem_of_mem_trim h)
  next => exact mem_of_mem_trim h

theorem exists_classify (d : Dialect) (h : '\n' ∉ line) : ∃ c, classify d line = .ok c := by
  unfold classify
  split
  · exact ⟨_, rfl⟩
  · obtain ⟨xs, hxs⟩ := exists_lex fun hmem => h (mem_of_mem_dropLabel hmem)
    rw [codeOf, codeText, hxs]
    exact ⟨_, rfl⟩

/-! ### What a keyword admits -/

/-- A line with a keyword opens and closes what the keyword and its code say. -/
theorem classify_of_keyword (h : classify d line = .ok c) {k : Keyword} (hk : c.keyword = some k) :
    codeOf line = .ok c.code ∧ c.opens = opensBlock d c.code k ∧ c.closes = k.closes d := by
  unfold classify at h
  split at h
  · obtain rfl := Except.ok.inj h
    simp at hk
  · obtain ⟨code, hcode, rfl⟩ := map_eq_ok_iff.mp h
    unfold classifyCode at hk ⊢
    split at hk
    next => simp at hk
    next k' _ =>
      obtain rfl : k' = k := by simpa using hk
      exact ⟨hcode, rfl, rfl⟩

/-- What holds of the classification of every line where `RETURN` ends no block. -/
structure Classification.Regular (c : Classification) : Prop where
  begins : c.keyword = some .beginCase → c.opens = true ∧ c.closes = false
  branches : c.keyword = some .caseBranch → c.closes = false
  ends : c.keyword = some .endCase → c.opens = false ∧ c.closes = true
  finishes : c.keyword = some .blockEnd → c.opens = false ∧ c.closes = true
  returns : c.keyword = some .returnJump → c.opens = false ∧ c.closes = false

namespace Classification.Regular

theorem not_beginCase (hc : c.Regular) (h : c.opens = false ∨ c.closes = true) :
    c.keyword ≠ some .beginCase := by
  intro hk
  rcases h with h | h
  · exact absurd ((hc.begins hk).1.symm.trans h) (by decide)
  · exact absurd ((hc.begins hk).2.symm.trans h) (by decide)

theorem not_caseBranch (hc : c.Regular) (h : c.closes = true) : c.keyword ≠ some .caseBranch :=
  fun hk => absurd ((hc.branches hk).symm.trans h) (by decide)

theorem not_endCase (hc : c.Regular) (h : c.opens = true ∨ c.closes = false) :
    c.keyword ≠ some .endCase := by
  intro hk
  rcases h with h | h
  · exact absurd ((hc.ends hk).1.symm.trans h) (by decide)
  · exact absurd ((hc.ends hk).2.symm.trans h) (by decide)

end Classification.Regular

theorem opensBlock_of_opens {code : Text} {k : Keyword} (hopens : k.opens = true) (hcloser : k.closer? = none)
    (hinline : k.inlineOnly = false) (hk : k ≠ .caseBranch) : opensBlock d code k = true := by
  simp [opensBlock, closesItself, hopens, hcloser, hinline, hk]

theorem opensBlock_of_not_opens {code : Text} {k : Keyword} (hopens : k.opens = false) :
    opensBlock d code k = false := by
  simp [opensBlock, hopens]

theorem classify_regular (hreturn : d.returnCloses = false) (h : classify d line = .ok c) : c.Regular := by
  have of_keyword : ∀ {k}, c.keyword = some k → c.opens = opensBlock d c.code k ∧ c.closes = k.closes d :=
    fun hk => (classify_of_keyword h hk).2
  refine ⟨fun hk => ?_, fun hk => (of_keyword hk).2, fun hk => ?_, fun hk => ?_, fun hk => ?_⟩
  · exact ⟨(of_keyword hk).1.trans (opensBlock_of_opens rfl rfl rfl (by decide)), (of_keyword hk).2⟩
  · exact ⟨(of_keyword hk).1.trans (opensBlock_of_not_opens rfl), (of_keyword hk).2⟩
  · exact ⟨(of_keyword hk).1.trans (opensBlock_of_not_opens rfl), (of_keyword hk).2⟩
  · exact ⟨(of_keyword hk).1.trans (opensBlock_of_not_opens rfl), (of_keyword hk).2.trans hreturn⟩

end PickIndent
