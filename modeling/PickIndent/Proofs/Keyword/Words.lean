import PickIndent.Keyword.Match
import PickIndent.Proofs.Label.Grammar
import PickIndent.Proofs.Text.Trim

/-!
# Words of keywords — which keywords code can begin with

Keywords are spelled in capitals, and what may follow a word is no variant of a capital.  So the words at the
beginning of code are the same for every keyword that it begins with, and of two such keywords one goes on where the
other ends (`dropWords?_comparable`).  In the table the longer of the two comes first (`Keyword.table_pairwise`), so
the keyword that is found is the longest that fits (`Keyword.words_isPrefix_of_find?`).  What stands behind the code,
as long as it is no capital, does not change the words (`dropWords?_append`).
-/

namespace PickIndent

/-! ### One word -/

theorem exists_of_dropFront?_eq_some {fold : Char → Char} {w t r : Text} (h : dropFront? fold w t = some r) :
    ∃ u, t = u ++ r ∧ u.map fold = w := by
  fun_induction dropFront? fold w t with
  | case1 t => exact ⟨[], by simpa using h, rfl⟩
  | case2 => simp at h
  | case3 ws c t ih =>
    obtain ⟨u, rfl, hu⟩ := ih h
    exact ⟨c :: u, rfl, by rw [List.map_cons, hu]⟩
  | case4 => simp at h

/-- The words of keywords are spelled in capitals. -/
theorem Keyword.all_isUpper_words (k : Keyword) : (k.words.all fun w => w.all Char.isUpper) = true := by
  cases k with
  | clause s => cases s <;> rfl
  | _ => rfl

theorem Keyword.words_ne_nil (k : Keyword) : k.words ≠ [] := by
  cases k <;> simp [Keyword.words]

theorem Keyword.nil_notMem_words (k : Keyword) : [] ∉ k.words := by
  cases k with
  | clause s => cases s <;> decide
  | _ => decide

/-- Whether a character stands for a capital. -/
def IsCapital (fold : Char → Char) (c : Char) : Bool := (fold c).isUpper

/-- Words spelled in capitals, none of them empty. -/
structure Capitalised (words : List Text) : Prop where
  ne_nil : [] ∉ words
  upper : ∀ w ∈ words, ∀ c ∈ w, c.isUpper = true

theorem Keyword.capitalised (k : Keyword) : Capitalised k.words where
  ne_nil := k.nil_notMem_words
  upper w hw c hc := List.all_eq_true.mp (List.all_eq_true.mp k.all_isUpper_words w hw) c hc

namespace Capitalised

variable {w : Text} {ws : List Text}

theorem head (h : Capitalised (w :: ws)) : w ≠ [] ∧ ∀ c ∈ w, c.isUpper = true :=
  ⟨fun hw => h.ne_nil (by simp [hw]), h.upper w (by simp)⟩

theorem tail (h : Capitalised (w :: ws)) : Capitalised ws :=
  ⟨fun hmem => h.ne_nil (List.mem_cons_of_mem w hmem), fun v hv => h.upper v (List.mem_cons_of_mem w hv)⟩

end Capitalised

section Folding

variable {fold : Char → Char}

/-- A word is all that stands for capitals at the beginning, if nothing of the kind follows it. -/
theorem takeWhile_of_dropFront? {w t r : Text} (hw : ∀ c ∈ w, c.isUpper = true) (h : dropFront? fold w t = some r)
    (hr : startsWithOrEnds (!IsCapital fold ·) r = true) :
    (t.takeWhile (IsCapital fold)).map fold = w ∧ t.dropWhile (IsCapital fold) = r := by
  obtain ⟨u, rfl, hu⟩ := exists_of_dropFront?_eq_some h
  have hcapital : ∀ c ∈ u, IsCapital fold c = true := fun c hc => hw _ (hu ▸ List.mem_map_of_mem hc)
  obtain ⟨htake, hdrop⟩ := takeWhile_append_of_stop hcapital hr
  exact ⟨by rw [htake, hu], hdrop⟩

theorem dropFront?_append {w t tail : Text} (hw : ∀ c ∈ w, c.isUpper = true)
    (htail : ∀ c ∈ tail, IsCapital fold c = false) :
    dropFront? fold w (t ++ tail) = (dropFront? fold w t).map (· ++ tail) := by
  fun_induction dropFront? fold w t with
  | case1 t => rfl
  | case2 a w =>
    cases tail with
    | nil => rfl
    | cons c tail =>
      have hne : fold c ≠ a := by
        rintro rfl
        have hupper : IsCapital fold c = true := hw _ (by simp)
        rw [htail c (by simp)] at hupper
        exact Bool.noConfusion hupper
      rw [List.nil_append, dropFront?, if_neg hne]
      rfl
  | case3 w c t ih =>
    rw [List.cons_append, dropFront?, if_pos rfl, ih fun b hb => hw b (List.mem_cons_of_mem _ hb)]
  | case4 a w c t hne =>
    rw [List.cons_append, dropFront?, if_neg hne]
    rfl

theorem dropFront?_of_not_capital {w t : Text} (hne : w ≠ []) (hw : ∀ c ∈ w, c.isUpper = true)
    (ht : ∀ c ∈ t, IsCapital fold c = false) : dropFront? fold w t = none := by
  have h := dropFront?_append (t := []) hw ht
  obtain ⟨a, u, rfl⟩ := List.exists_cons_of_ne_nil hne
  rwa [List.nil_append, dropFront?] at h

/-! ### Several words -/

theorem dropWords?_cons {w : Text} {ws : List Text} (hws : ws ≠ []) (t : Text) :
    dropWords? fold (w :: ws) t =
      match dropFront? fold w t with
      | some (c :: rest) => if isBlank c then dropWords? fold ws (trimStart rest) else none
      | _ => none := by
  cases ws with
  | nil => exact absurd rfl hws
  | cons v ws => rfl

theorem dropWords?_of_not_capital {ws : List Text} (hne : ws ≠ []) (hws : Capitalised ws) {t : Text}
    (ht : ∀ c ∈ t, IsCapital fold c = false) : dropWords? fold ws t = none := by
  obtain ⟨w, ws, rfl⟩ := List.exists_cons_of_ne_nil hne
  have hnone := dropFront?_of_not_capital hws.head.1 hws.head.2 ht
  by_cases hnil : ws = []
  · subst hnil
    exact hnone
  · rw [dropWords?_cons hnil, hnone]

theorem isBlankText_of_last {s t : Text} (hne : t ≠ []) (h : ∀ c ∈ (s ++ t).getLast?, isBlank c = false) :
    isBlankText t = false := by
  rw [← Bool.not_eq_true]
  intro hblank
  have hlast := List.getLast?_eq_some_getLast hne
  have hnot := h _ (by rw [List.getLast?_append, hlast]; rfl)
  rw [isBlankText_iff.mp hblank _ (List.getLast_mem hne)] at hnot
  exact Bool.noConfusion hnot

/-- **What stands behind code that does not end in a blank is left behind its words**, if there are no capitals. -/
theorem dropWords?_append {ws : List Text} (hne : ws ≠ []) (hws : Capitalised ws) {t tail : Text}
    (ht : ∀ c ∈ t.getLast?, isBlank c = false) (htail : ∀ c ∈ tail, IsCapital fold c = false) :
    dropWords? fold ws (t ++ tail) = (dropWords? fold ws t).map (· ++ tail) := by
  induction ws generalizing t with
  | nil => exact absurd rfl hne
  | cons w ws ih =>
    by_cases hnil : ws = []
    · subst hnil
      exact dropFront?_append hws.head.2 htail
    rw [dropWords?_cons hnil, dropWords?_cons hnil, dropFront?_append hws.head.2 htail]
    cases hdrop : dropFront? fold w t with
    | none => rfl
    | some after =>
      cases after with
      | nil =>
        -- no word begins behind the code
        cases tail with
        | nil => rfl
        | cons c tail =>
          have hrest : ∀ a ∈ trimStart tail, IsCapital fold a = false := fun a ha =>
            htail a (List.mem_cons_of_mem c ((trimStart_isSuffix tail).subset ha))
          simp only [Option.map_some, List.nil_append, dropWords?_of_not_capital hnil hws.tail hrest, ite_self]
          rfl
      | cons c rest =>
        simp only [Option.map_some, List.cons_append]
        by_cases hc : isBlank c = true
        · obtain ⟨u, rfl, -⟩ := exists_of_dropFront?_eq_some hdrop
          have hrest : isBlankText rest = false := by
            simpa [isBlankText, hc] using isBlankText_of_last (List.cons_ne_nil c rest) ht
          have hlater : ∀ a ∈ (trimStart rest).getLast?, isBlank a = false := by
            intro a ha
            obtain ⟨v, hv⟩ := trimStart_isSuffix rest
            have hwhole : u ++ c :: rest = (u ++ c :: v) ++ trimStart rest := by simp [hv]
            exact ht a (by rw [hwhole, List.getLast?_append, ha]; rfl)
          rw [if_pos hc, if_pos hc, trimStart_append hrest, ih hnil hws.tail hlater]
        · rw [if_neg hc, if_neg hc]
          rfl

/-- Behind the first of the words that code begins with. -/
theorem exists_of_dropWords?_cons (hblank : ∀ c, isBlank c = true → IsCapital fold c = false) {w : Text}
    {ws : List Text} {t r : Text} (h : dropWords? fold (w :: ws) t = some r)
    (hr : startsWithOrEnds (!IsCapital fold ·) r = true) :
    ∃ after, dropFront? fold w t = some after ∧ startsWithOrEnds (!IsCapital fold ·) after = true ∧
      (ws = [] ∧ after = r ∨ ws ≠ [] ∧ ∃ c rest, after = c :: rest ∧ dropWords? fold ws (trimStart rest) = some r) := by
  by_cases hnil : ws = []
  · subst hnil
    exact ⟨r, h, hr, Or.inl ⟨rfl, rfl⟩⟩
  · rw [dropWords?_cons hnil] at h
    split at h
    next c rest hdrop =>
      split at h
      next hc => exact ⟨c :: rest, hdrop, by simp [startsWithOrEnds, hblank c hc], Or.inr ⟨hnil, c, rest, rfl, h⟩⟩
      next => simp at h
    next => simp at h

/-- **Of two lists of words that code begins with one goes on where the other ends**, and there the code goes on
too. -/
theorem dropWords?_comparable (hblank : ∀ c, isBlank c = true → IsCapital fold c = false) {ws vs : List Text}
    (hws : Capitalised ws) (hvs : Capitalised vs) (hne : ws ≠ []) (hne' : vs ≠ []) {t r s : Text}
    (hr : dropWords? fold ws t = some r) (hrEnd : startsWithOrEnds (!IsCapital fold ·) r = true)
    (hs : dropWords? fold vs t = some s) (hsEnd : startsWithOrEnds (!IsCapital fold ·) s = true) :
    ws <+: vs ∧ (ws ≠ vs → r ≠ []) ∨ vs <+: ws ∧ (vs ≠ ws → s ≠ []) := by
  induction ws generalizing vs t with
  | nil => exact absurd rfl hne
  | cons w ws ih =>
    obtain ⟨v, vs, rfl⟩ := List.exists_cons_of_ne_nil hne'
    obtain ⟨after, hdrop, hafter, hlater⟩ := exists_of_dropWords?_cons hblank hr hrEnd
    obtain ⟨after', hdrop', hafter', hlater'⟩ := exists_of_dropWords?_cons hblank hs hsEnd
    obtain ⟨hw, hrest⟩ := takeWhile_of_dropFront? hws.head.2 hdrop hafter
    obtain ⟨hv, hrest'⟩ := takeWhile_of_dropFront? hvs.head.2 hdrop' hafter'
    obtain rfl : w = v := hw.symm.trans hv
    obtain rfl : after = after' := hrest.symm.trans hrest'
    rcases hlater with ⟨rfl, rfl⟩ | ⟨hmore, c, rest, rfl, hr⟩
    · rcases hlater' with ⟨rfl, rfl⟩ | ⟨-, c, rest, rfl, -⟩
      · exact Or.inl ⟨List.prefix_rfl, fun h => absurd rfl h⟩
      · exact Or.inl ⟨by simp, fun _ => List.cons_ne_nil c rest⟩
    · rcases hlater' with ⟨rfl, rfl⟩ | ⟨hmore', c', rest', hcons, hs⟩
      · exact Or.inr ⟨by simp, fun _ => List.cons_ne_nil c rest⟩
      · obtain ⟨rfl, rfl⟩ := List.cons.inj hcons
        simpa [List.prefix_cons_inj] using ih hws.tail hvs.tail hmore hmore' hr hs

end Folding

/-! ### The table -/

theorem isCapital_of_isBlank (ignoreCase : Bool) {c : Char} (h : isBlank c = true) :
    IsCapital (letter ignoreCase) c = false := by
  rw [← Bool.not_eq_true]
  intro hcapital
  have hnot : isBlank c = false := by
    cases ignoreCase <;> exact isBlank_of_class (by decide +kernel) hcapital
  rw [h] at hnot
  exact Bool.noConfusion hnot

namespace Keyword

variable {d : Dialect} {code : Text} {k l : Keyword}

theorem mem_table (k : Keyword) : k ∈ table := by
  cases k with
  | clause s => cases s <;> decide
  | _ => decide

/-- No keyword of the table goes on where an earlier one ends. -/
theorem table_pairwise : table.Pairwise fun k l => ¬k.words <+: l.words := by
  decide +kernel

theorem not_isCapital_of_endsKeyword (ignoreCase : Bool) {c : Char} (h : endsKeyword c = true) :
    (!IsCapital (letter ignoreCase) c) = true := by
  rcases Bool.or_eq_true_iff.mp h with hblank | hparen
  · rw [isCapital_of_isBlank ignoreCase hblank]
    rfl
  · rw [beq_iff_eq.mp hparen]
    cases ignoreCase <;> decide

theorem fits_iff : fits d code k = true ↔
    ∃ rest, dropWords? (letter d.ignoreCase) k.words code = some rest ∧ startsWithOrEnds endsKeyword rest = true := by
  unfold fits
  cases dropWords? (letter d.ignoreCase) k.words code <;> simp

/-- **Of two keywords that fit code one goes on where the other ends**, and there the code goes on too. -/
theorem comparable_of_dropWords? {r s : Text} (hr : dropWords? (letter d.ignoreCase) k.words code = some r)
    (hrEnd : startsWithOrEnds endsKeyword r = true) (hs : dropWords? (letter d.ignoreCase) l.words code = some s)
    (hsEnd : startsWithOrEnds endsKeyword s = true) :
    k.words <+: l.words ∧ (k.words ≠ l.words → r ≠ []) ∨ l.words <+: k.words ∧ (l.words ≠ k.words → s ≠ []) :=
  dropWords?_comparable (fun _ => isCapital_of_isBlank d.ignoreCase) k.capitalised l.capitalised k.words_ne_nil
    l.words_ne_nil hr (startsWithOrEnds_mono (fun _ => not_isCapital_of_endsKeyword d.ignoreCase) hrEnd) hs
    (startsWithOrEnds_mono (fun _ => not_isCapital_of_endsKeyword d.ignoreCase) hsEnd)

/-- **The keyword that is found is the longest that fits.** -/
theorem words_isPrefix_of_find? (hfind : find? d code = some k) (hfits : fits d code l = true) :
    l.words <+: k.words := by
  obtain ⟨hk, before, after, htable, hbefore⟩ := List.find?_eq_some_iff_append.mp hfind
  obtain ⟨r, hr, hrEnd⟩ := fits_iff.mp hk
  obtain ⟨s, hs, hsEnd⟩ := fits_iff.mp hfits
  rcases comparable_of_dropWords? hr hrEnd hs hsEnd with ⟨hfront, -⟩ | ⟨hfront, -⟩
  · have hl : l ∈ before ++ k :: after := htable ▸ l.mem_table
    rcases List.mem_append.mp hl with hl | hl
    · exact absurd hfits (by simpa using hbefore l hl)
    · rcases List.mem_cons.mp hl with rfl | hl
      · exact hfront
      · have hpairwise := htable ▸ table_pairwise
        exact absurd hfront ((List.pairwise_cons.mp (List.pairwise_append.mp hpairwise).2.1).1 l hl)
  · exact hfront

end Keyword

end PickIndent
