import PickIndent.Proofs.Keyword.Words

/-!
# The longest keyword — why the order of the table matters for `END` alone

Code begins with a keyword if it spells the words of the keyword, with blanks between them, and a blank, an opening
parenthesis or the end follows (`Keyword.Begins`).  No keyword goes on where another one ends, except that `END`
begins three longer ones (`Keyword.longEnds`).  So at most two keywords begin the same code, the longer one is found,
and the table may be in any order in which the longer ones stand before `END` (`Keyword.found_is_longest`).
-/

namespace PickIndent

/-! ### Spelling -/

/-- The words, one after the other, with blanks between them.  The characters of the text are folded before they are
compared with those of the words. -/
inductive Spells (fold : Char → Char) : List Text → Text → Prop where
  | last {w u : Text} (hu : u.map fold = w) : Spells fold [w] u
  | more {w u gap v : Text} {ws : List Text} (hu : u.map fold = w) (hne : gap ≠ []) (hgap : isBlankText gap = true)
      (hv : Spells fold ws v) : Spells fold (w :: ws) (u ++ gap ++ v)

section Folding

variable {fold : Char → Char} {ws : List Text} {u : Text}

theorem dropFront?_of_map {w : Text} (hu : u.map fold = w) (t : Text) : dropFront? fold w (u ++ t) = some t := by
  subst hu
  induction u with
  | nil => rfl
  | cons c u ih => rw [List.map_cons, List.cons_append, dropFront?, if_pos rfl, ih]

theorem Spells.ne_nil (h : Spells fold ws u) : ws ≠ [] := by
  cases h <;> simp

/-- What stands for a word begins with a capital, so with no blank. -/
theorem trimStart_append_of_map (hblank : ∀ c, isBlank c = true → IsCapital fold c = false) {w : Text} (hne : w ≠ [])
    (hw : ∀ c ∈ w, c.isUpper = true) (hu : u.map fold = w) (t : Text) : trimStart (u ++ t) = u ++ t := by
  subst hu
  obtain ⟨c, u, rfl⟩ := List.exists_cons_of_ne_nil fun hnil => hne (List.map_eq_nil_iff.mpr hnil)
  have hcapital : IsCapital fold c = true := hw (fold c) (by simp)
  refine List.dropWhile_cons_of_neg fun hc => ?_
  rw [hblank c hc] at hcapital
  exact Bool.noConfusion hcapital

theorem Spells.trimStart_eq (hblank : ∀ c, isBlank c = true → IsCapital fold c = false) (hws : Capitalised ws)
    (h : Spells fold ws u) (r : Text) : trimStart (u ++ r) = u ++ r := by
  cases h with
  | last hu => exact trimStart_append_of_map hblank hws.head.1 hws.head.2 hu r
  | more hu _ _ _ =>
    rw [List.append_assoc, List.append_assoc]
    exact trimStart_append_of_map hblank hws.head.1 hws.head.2 hu _

theorem dropWords?_of_spells (hblank : ∀ c, isBlank c = true → IsCapital fold c = false) (hws : Capitalised ws)
    (h : Spells fold ws u) (r : Text) : dropWords? fold ws (u ++ r) = some r := by
  induction h with
  | last hu => exact dropFront?_of_map hu r
  | @more w u gap v ws hu hne hgap hv ih =>
    obtain ⟨c, gap, rfl⟩ := List.exists_cons_of_ne_nil hne
    obtain ⟨hc, hgap⟩ : isBlank c = true ∧ isBlankText gap = true := by simpa [isBlankText] using hgap
    rw [List.append_assoc, List.append_assoc, dropWords?_cons hv.ne_nil, dropFront?_of_map hu]
    simp only [List.cons_append, if_pos hc]
    rw [trimStart_append_of_blank hgap, hv.trimStart_eq hblank hws.tail, ih hws.tail]

theorem exists_spells_of_dropWords? (hne : ws ≠ []) {t r : Text} (h : dropWords? fold ws t = some r) :
    ∃ u, Spells fold ws u ∧ t = u ++ r := by
  induction ws generalizing t with
  | nil => exact absurd rfl hne
  | cons w ws ih =>
    by_cases hnil : ws = []
    · subst hnil
      obtain ⟨u, rfl, hu⟩ := exists_of_dropFront?_eq_some h
      exact ⟨u, .last hu, rfl⟩
    rw [dropWords?_cons hnil] at h
    split at h
    next c rest hdrop =>
      split at h
      next hc =>
        obtain ⟨u, rfl, hu⟩ := exists_of_dropFront?_eq_some hdrop
        obtain ⟨v, hv, hrest⟩ := ih hnil h
        have hgap : isBlankText (c :: rest.takeWhile isBlank) = true := by
          simp [isBlankText, hc]
        refine ⟨u ++ c :: rest.takeWhile isBlank ++ v, .more hu (by simp) hgap hv, ?_⟩
        have hsplit : rest.takeWhile isBlank ++ trimStart rest = rest := List.takeWhile_append_dropWhile
        rw [hrest] at hsplit
        simp [hsplit]
      next => simp at h
    next => simp at h

end Folding

namespace Keyword

variable {d : Dialect} {code : Text} {k l : Keyword}

/-- Code begins with the words of the keyword, and a blank, an opening parenthesis or the end follows. -/
def Begins (d : Dialect) (code : Text) (k : Keyword) : Prop :=
  ∃ u rest, Spells (letter d.ignoreCase) k.words u ∧ startsWithOrEnds endsKeyword rest = true ∧ code = u ++ rest

theorem fits_iff_begins : fits d code k = true ↔ Begins d code k := by
  rw [fits_iff]
  constructor
  · rintro ⟨rest, hdrop, hend⟩
    obtain ⟨u, hu, rfl⟩ := exists_spells_of_dropWords? k.words_ne_nil hdrop
    exact ⟨u, rest, hu, hend, rfl⟩
  · rintro ⟨u, rest, hu, hend, rfl⟩
    exact ⟨rest, dropWords?_of_spells (fun _ => isCapital_of_isBlank d.ignoreCase) k.capitalised hu rest, hend⟩

/-! ### Keywords that begin the same code -/

/-- The keywords of which `END` is the first word. -/
def longEnds : List Keyword := [.endCase, .endElse, .endThen]

/-- No keyword goes on where another one ends, but for the long spellings of `END`. -/
theorem eq_or_of_words_isPrefix (h : k.words <+: l.words) : k = l ∨ k = .blockEnd ∧ l ∈ longEnds := by
  have hall : ∀ k ∈ table, ∀ l ∈ table, k.words <+: l.words → k = l ∨ k = .blockEnd ∧ l ∈ longEnds := by
    decide +kernel
  exact hall k k.mem_table l l.mem_table h

theorem exists_words_of_longEnd (hk : k ∈ longEnds) : ∃ w, k.words = ["END".toList, w] := by
  obtain rfl | rfl | rfl : k = .endCase ∨ k = .endElse ∨ k = .endThen := by simpa [longEnds] using hk
  all_goals exact ⟨_, rfl⟩

/-- Where a long spelling of `END` stands, `END` stands too. -/
theorem Begins.blockEnd (hk : k ∈ longEnds) (h : Begins d code k) : Begins d code .blockEnd := by
  obtain ⟨w, hwords⟩ := exists_words_of_longEnd hk
  obtain ⟨u, rest, hu, -, rfl⟩ := h
  rw [hwords] at hu
  cases hu with
  | @more _ u gap v _ hu hne hgap _ =>
    refine ⟨u, gap ++ v ++ rest, .last hu, ?_, by simp⟩
    obtain ⟨c, gap, rfl⟩ := List.exists_cons_of_ne_nil hne
    simp [startsWithOrEnds, endsKeyword, isBlankText_iff.mp hgap c]

/-! ### The keyword that is found -/

theorem find?_eq_none_iff : find? d code = none ↔ ∀ k, ¬Begins d code k := by
  rw [find?, List.find?_eq_none]
  simp only [fits_iff_begins]
  exact ⟨fun h k => h k k.mem_table, fun h k _ => h k⟩

theorem begins_of_find? (h : find? d code = some k) : Begins d code k := fits_iff_begins.mp (List.find?_some h)

/-- **Code begins with the keyword that is found and with no other**, but for the `END` of a long spelling. -/
theorem eq_or_of_find? (hfind : find? d code = some k) (hl : Begins d code l) : l = k ∨ l = .blockEnd ∧ k ∈ longEnds :=
  eq_or_of_words_isPrefix (words_isPrefix_of_find? hfind (fits_iff_begins.mpr hl))

theorem begins_cases (d : Dialect) (code : Text) :
    (∀ k, ¬Begins d code k) ∨ (∃ k, ∀ l, Begins d code l ↔ l = k) ∨
      ∃ k ∈ longEnds, ∀ l, Begins d code l ↔ l = k ∨ l = .blockEnd := by
  cases hfind : find? d code with
  | none => exact Or.inl (find?_eq_none_iff.mp hfind)
  | some k =>
    have hk := begins_of_find? hfind
    by_cases hlong : k ∈ longEnds
    · refine Or.inr (Or.inr ⟨k, hlong, fun l => ⟨fun hl => (eq_or_of_find? hfind hl).imp_right And.left, ?_⟩⟩)
      rintro (rfl | rfl)
      · exact hk
      · exact hk.blockEnd hlong
    · refine Or.inr (Or.inl ⟨k, fun l => ⟨fun hl => (eq_or_of_find? hfind hl).resolve_right fun h => hlong h.2, ?_⟩⟩)
      rintro rfl
      exact hk

theorem find?_eq_some_iff : find? d code = some k ↔
    Begins d code k ∧ ∀ l, Begins d code l → l ≠ k → l.words.length < k.words.length := by
  constructor
  · intro hfind
    refine ⟨begins_of_find? hfind, fun l hl hne => ?_⟩
    obtain ⟨rfl, hlong⟩ := (eq_or_of_find? hfind hl).resolve_left hne
    obtain ⟨w, hwords⟩ := exists_words_of_longEnd hlong
    rw [hwords]
    exact Nat.one_lt_two
  · rintro ⟨hk, hlongest⟩
    cases hfind : find? d code with
    | none => exact absurd hk (find?_eq_none_iff.mp hfind k)
    | some l =>
      by_contra hne
      have hshorter := hlongest l (begins_of_find? hfind) fun h => hne (by rw [h])
      have hprefix := words_isPrefix_of_find? hfind (fits_iff_begins.mpr hk)
      exact absurd hprefix.length_le (by omega)

/-! ### Other orders of the table -/

/-- What is found in a list stands before all else that could have been found. -/
theorem idxOf_lt_of_find? {order : List Keyword} {p : Keyword → Bool} (hfind : order.find? p = some k)
    (hl : p l = true) (hne : k ≠ l) : order.idxOf k < order.idxOf l := by
  obtain ⟨hk, before, after, rfl, hbefore⟩ := List.find?_eq_some_iff_append.mp hfind
  have hnot : ∀ m, p m = true → m ∉ before := fun m hm hmem => by simpa [hm] using hbefore m hmem
  rw [List.idxOf_append, List.idxOf_append, if_neg (hnot k hk), if_neg (hnot l hl), List.idxOf_cons_self,
    List.idxOf_cons_ne _ hne]
  omega

theorem find?_longEnd (hk : k ∈ longEnds) : find? {} k.text = some k ∧ fits {} k.text .blockEnd = true := by
  have hall : ∀ k ∈ longEnds, find? {} k.text = some k ∧ fits {} k.text .blockEnd = true := by decide +kernel
  exact hall k hk

/-- **The table may be in any order in which the long spellings of `END` stand before `END`**, and in no other. -/
theorem find?_order_iff {order : List Keyword} (h : order.Perm table) :
    (∀ d code, order.find? (fits d code) = find? d code) ↔ ∀ k ∈ longEnds, order.idxOf k < order.idxOf .blockEnd := by
  constructor
  · intro hsame k hk
    obtain ⟨hfind, hend⟩ := find?_longEnd hk
    have hne : k ≠ .blockEnd := by
      rintro rfl
      exact absurd hk (by decide)
    exact idxOf_lt_of_find? ((hsame {} k.text).trans hfind) hend hne
  · intro hbefore d code
    cases hfind : find? d code with
    | none =>
      rw [List.find?_eq_none]
      exact fun k _ hk => find?_eq_none_iff.mp hfind k (fits_iff_begins.mp hk)
    | some k =>
      have hk := List.find?_some hfind
      cases hfirst : order.find? (fits d code) with
      | none => exact absurd hk (List.find?_eq_none.mp hfirst k (h.mem_iff.mpr k.mem_table))
      | some l =>
        obtain rfl | ⟨rfl, hlong⟩ := eq_or_of_find? hfind (fits_iff_begins.mp (List.find?_some hfirst))
        · rfl
        · by_contra hne
          have hlt := idxOf_lt_of_find? hfirst hk fun h => hne (by rw [h])
          exact absurd (hbefore k hlong) (by omega)

/-! ### The table -/

/-- **The longest keyword is found, whatever the order of the table.**  A keyword of the table fits code exactly if
the code begins with it.  Code begins with no keyword, with one, or with `END` and one of its long spellings.  The
keyword that is found is the one with the most words of those that the code begins with, and none is found only if
there are none.  So any other order of the table leads to the same keyword for all code, if and only if the three
long spellings of `END` stand before it. -/
theorem found_is_longest :
    (∀ d code,
      (∀ k, fits d code k = true ↔ Begins d code k) ∧
      ((∀ k, ¬Begins d code k) ∨ (∃ k, ∀ l, Begins d code l ↔ l = k) ∨
        ∃ k ∈ [endCase, endElse, endThen], ∀ l, Begins d code l ↔ l = k ∨ l = .blockEnd) ∧
      (∀ k, find? d code = some k ↔
        Begins d code k ∧ ∀ l, Begins d code l → l ≠ k → l.words.length < k.words.length) ∧
      (find? d code = none ↔ ∀ k, ¬Begins d code k)) ∧
    ∀ order : List Keyword, order.Perm table →
      ((∀ d code, order.find? (fits d code) = find? d code) ↔
        ∀ k ∈ [endCase, endElse, endThen], order.idxOf k < order.idxOf .blockEnd) :=
  ⟨fun d code => ⟨fun _ => fits_iff_begins, begins_cases d code, fun _ => find?_eq_some_iff, find?_eq_none_iff⟩,
    fun _ => find?_order_iff⟩

/-- The table from its end to its beginning, but for the long spellings of `END`, which come first. -/
theorem found_is_longest_reversed :
    let order := longEnds ++ table.reverse.filter (· ∉ longEnds)
    let d : Dialect := { ignoreCase := true, returnCloses := true }
    let code := "end\t\u00a0Caſe(X)".toList
    order.Perm table ∧ (∀ k ∈ longEnds, order.idxOf k < order.idxOf .blockEnd) ∧ Begins d code .blockEnd ∧
      Begins d code .endCase ∧ find? d code = some .endCase ∧ order.find? (fits d code) = some .endCase := by
  intro order d code
  have hperm : order.Perm table := by decide +kernel
  have hbefore : ∀ k ∈ longEnds, order.idxOf k < order.idxOf .blockEnd := by decide +kernel
  obtain ⟨hfound, horder⟩ := found_is_longest
  obtain ⟨hfits, -, hsome, -⟩ := hfound d code
  have hend : Begins d code .blockEnd := (hfits .blockEnd).mp (by decide +kernel)
  have hfind : find? d code = some .endCase := by decide +kernel
  exact ⟨hperm, hbefore, hend, ((hsome .endCase).mp hfind).1, hfind,
    ((horder order hperm).mpr hbefore d code).trans hfind⟩

end Keyword

end PickIndent
