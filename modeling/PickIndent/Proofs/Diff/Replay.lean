import PickIndent.Diff.Hunk

/-!
# Replay — from the old lines to the new ones

A script holds both lists of lines (`oldLines_script`, `newLines_script`).  Its hunks are only a part of it, but what
they leave out is common to both lists.  They stand one behind the other with a line between them
(`hunks_pairwise`), and replaying them on the old lines, each at the place that it names, gives the new ones
(`replayFrom_hunks`).
-/

namespace PickIndent.Diff

variable {α : Type}

/-! ### The two sides of a script -/

@[simp] theorem oldLines_append (es fs : List (Entry α)) : oldLines (es ++ fs) = oldLines es ++ oldLines fs :=
  List.filterMap_append

@[simp] theorem newLines_append (es fs : List (Entry α)) : newLines (es ++ fs) = newLines es ++ newLines fs :=
  List.filterMap_append

theorem oldLines_cons (e : Entry α) (es : List (Entry α)) : oldLines (e :: es) = e.old?.toList ++ oldLines es := by
  cases e <;> rfl

theorem newLines_cons (e : Entry α) (es : List (Entry α)) : newLines (e :: es) = e.new?.toList ++ newLines es := by
  cases e <;> rfl

@[simp] theorem oldLines_map_common (as : List α) : oldLines (as.map .common) = as := by
  simp [oldLines, List.filterMap_map, Function.comp_def, Entry.old?]

@[simp] theorem newLines_map_common (as : List α) : newLines (as.map .common) = as := by
  simp [newLines, List.filterMap_map, Function.comp_def, Entry.new?]

/-- Lines without a change are the same on both sides. -/
theorem oldLines_eq_newLines {es : List (Entry α)} (h : ∀ e ∈ es, e.isChange = false) : oldLines es = newLines es := by
  induction es with
  | nil => rfl
  | cons e es ih =>
    have hes : oldLines es = newLines es := ih fun e' he' => h e' (List.mem_cons_of_mem e he')
    have hchange : e.isChange = false := h e (by simp)
    rw [oldLines_cons, newLines_cons, hes]
    cases e with
    | common a => rfl
    | removed a => exact Bool.noConfusion hchange
    | added a => exact Bool.noConfusion hchange

section Script

variable [DecidableEq α] (usable : α → Bool) (as bs : List α)

/-- **The old lines of a script are the list that it begins with.** -/
theorem oldLines_script : oldLines (script usable as bs) = as := by
  fun_induction script usable as bs with
  | case1 as bs _ => simp [oldLines, List.filterMap_map, Function.comp_def, Entry.old?]
  | case2 as bs _ hbefore hafter => rw [oldLines_append, oldLines_append, oldLines_map_common, hbefore, hafter, cut_old]

/-- **The new lines of a script are the list that it leads to.** -/
theorem newLines_script : newLines (script usable as bs) = bs := by
  fun_induction script usable as bs with
  | case1 as bs _ => simp [newLines, List.filterMap_map, Function.comp_def, Entry.new?]
  | case2 as bs _ hbefore hafter => rw [newLines_append, newLines_append, newLines_map_common, hbefore, hafter, cut_new]

end Script

/-! ### What is shown -/

/-- What is not shown is common to both lists. -/
def HidesCommon (ms : List (Bool × Entry α)) : Prop := ∀ m ∈ ms, m.1 = false → m.2.isChange = false

theorem HidesCommon.of_cons {m : Bool × Entry α} {ms : List (Bool × Entry α)} (h : HidesCommon (m :: ms)) :
    HidesCommon ms := fun k hk => h k (List.mem_cons_of_mem m hk)

theorem HidesCommon.exists_common {e : Entry α} {ms : List (Bool × Entry α)} (h : HidesCommon ((false, e) :: ms)) :
    ∃ a, e = .common a := by
  have hchange : e.isChange = false := h (false, e) (by simp) rfl
  cases e with
  | common a => exact ⟨a, rfl⟩
  | removed a => exact Bool.noConfusion hchange
  | added a => exact Bool.noConfusion hchange

theorem map_snd_markShown (due : Nat) (es : List (Entry α)) : (markShown due es).map Prod.snd = es := by
  fun_induction markShown due es with
  | case1 => rfl
  | case2 due e es _ ih => rw [List.map_cons, ih]
  | case3 due e es _ ih => rw [List.map_cons, ih]

theorem hidesCommon_markShown (due : Nat) (es : List (Entry α)) : HidesCommon (markShown due es) := by
  fun_induction markShown due es with
  | case1 => simp [HidesCommon]
  | case2 due e es _ ih =>
    rintro m hm hhidden
    rcases List.mem_cons.mp hm with rfl | hm
    · exact Bool.noConfusion hhidden
    · exact ih m hm hhidden
  | case3 due e es hcommon ih =>
    rintro m hm hhidden
    rcases List.mem_cons.mp hm with rfl | hm
    · simpa using hcommon
    · exact ih m hm hhidden

/-! ### The order of hunks -/

variable {i j : Nat} {e : Entry α} {ms : List (Bool × Entry α)} {h : Hunk α} {hs : List (Hunk α)}

theorem hunksFrom_hidden (i j : Nat) (e : Entry α) (ms : List (Bool × Entry α)) :
    hunksFrom i j ((false, e) :: ms) = hunksFrom (i + e.old?.toList.length) (j + e.new?.toList.length) ms := rfl

theorem exists_hunksFrom_shown (i j : Nat) (e : Entry α) (ms : List (Bool × Entry α)) :
    ∃ es hs, hunksFrom i j ((true, e) :: ms) = ⟨i, j, e :: es⟩ :: hs := by
  rw [hunksFrom, if_pos rfl]
  split
  next h hs _ _ => exact ⟨h.entries, hs, rfl⟩
  next => exact ⟨[], _, rfl⟩

/-- A shown entry begins the hunk of the entry behind it or, if that one is not shown, a hunk of its own. -/
theorem hunksFrom_shown (i j : Nat) (e : Entry α) (ms : List (Bool × Entry α)) :
    ∃ es hs, hunksFrom i j ((true, e) :: ms) = ⟨i, j, e :: es⟩ :: hs ∧
      (hunksFrom (i + e.old?.toList.length) (j + e.new?.toList.length) ms =
          ⟨i + e.old?.toList.length, j + e.new?.toList.length, es⟩ :: hs ∨
        es = [] ∧ hunksFrom (i + e.old?.toList.length) (j + e.new?.toList.length) ms = hs ∧
          ∀ e', ms.head? ≠ some (true, e')) := by
  match ms with
  | [] => exact ⟨[], [], rfl, Or.inr ⟨rfl, rfl, by simp⟩⟩
  | (false, e') :: ms => exact ⟨[], _, rfl, Or.inr ⟨rfl, rfl, by simp⟩⟩
  | (true, e') :: ms =>
    obtain ⟨es, hs, hlater⟩ :=
      exists_hunksFrom_shown (i + e.old?.toList.length) (j + e.new?.toList.length) e' ms
    refine ⟨e' :: es, hs, ?_, Or.inl hlater⟩
    rw [hunksFrom, hlater]
    rfl

theorem start_le (hh : h ∈ hunksFrom i j ms) : i ≤ h.oldStart ∧ j ≤ h.newStart := by
  induction ms generalizing i j with
  | nil => simp [hunksFrom] at hh
  | cons m ms ih =>
    obtain ⟨shown, e⟩ := m
    have hlater : h ∈ hunksFrom (i + e.old?.toList.length) (j + e.new?.toList.length) ms →
        i ≤ h.oldStart ∧ j ≤ h.newStart := by
      intro hmem
      have hstart := ih hmem
      omega
    cases shown with
    | false => exact hlater hh
    | true =>
      obtain ⟨es, hs, hhunks, hcases⟩ := hunksFrom_shown i j e ms
      rw [hhunks] at hh
      rcases List.mem_cons.mp hh with rfl | hh
      · exact ⟨Nat.le_refl i, Nat.le_refl j⟩
      · rcases hcases with heq | ⟨-, heq, -⟩
        · exact hlater (by rw [heq]; exact List.mem_cons_of_mem _ hh)
        · exact hlater (by rw [heq]; exact hh)

/-- A hunk begins behind the lines that are not shown before it. -/
theorem start_lt (hms : HidesCommon ms) (hhidden : ∀ e, ms.head? ≠ some (true, e)) (hh : h ∈ hunksFrom i j ms) :
    i < h.oldStart ∧ j < h.newStart := by
  match ms with
  | [] => simp [hunksFrom] at hh
  | (true, e) :: ms => exact absurd rfl (hhidden e)
  | (false, e) :: ms =>
    obtain ⟨a, rfl⟩ := hms.exists_common
    rw [hunksFrom_hidden] at hh
    exact start_le hh

/-- The hunk ends before the other one begins, in both lists. -/
structure Hunk.Before (h k : Hunk α) : Prop where
  old : h.oldStart + h.oldSize < k.oldStart
  new : h.newStart + h.newSize < k.newStart

theorem hunksFrom_pairwise (hms : HidesCommon ms) : (hunksFrom i j ms).Pairwise Hunk.Before := by
  induction ms generalizing i j with
  | nil => exact .nil
  | cons m ms ih =>
    obtain ⟨shown, e⟩ := m
    have hlater := ih (i := i + e.old?.toList.length) (j := j + e.new?.toList.length) hms.of_cons
    cases shown with
    | false => exact hlater
    | true =>
      obtain ⟨es, hs, hhunks, hcases⟩ := hunksFrom_shown i j e ms
      have hold : (oldLines (e :: es)).length = e.old?.toList.length + (oldLines es).length := by
        rw [oldLines_cons, List.length_append]
      have hnew : (newLines (e :: es)).length = e.new?.toList.length + (newLines es).length := by
        rw [newLines_cons, List.length_append]
      rw [hhunks]
      rcases hcases with heq | ⟨rfl, heq, hhidden⟩
      · -- the hunk ends where the one without its first entry does
        rw [heq, List.pairwise_cons] at hlater
        refine List.pairwise_cons.mpr ⟨fun k hk => ?_, hlater.2⟩
        have hbefore := hlater.1 k hk
        exact ⟨by simpa [Hunk.oldSize, hold, Nat.add_assoc] using hbefore.old,
          by simpa [Hunk.newSize, hnew, Nat.add_assoc] using hbefore.new⟩
      · rw [heq] at hlater
        refine List.pairwise_cons.mpr ⟨fun k hk => ?_, hlater⟩
        have hstart := start_lt hms.of_cons hhidden (heq ▸ hk)
        constructor
        · show i + (oldLines [e]).length < k.oldStart
          rw [hold]
          exact hstart.1
        · show j + (newLines [e]).length < k.newStart
          rw [hnew]
          exact hstart.2

/-- **Hunks stand one behind the other**, with at least one line between them. -/
theorem hunks_pairwise (es : List (Entry α)) : (hunks es).Pairwise Hunk.Before :=
  hunksFrom_pairwise (hidesCommon_markShown 0 es)

/-- Where there are no hunks there is no change. -/
theorem hidden_of_hunksFrom (hnil : hunksFrom i j ms = []) : ∀ m ∈ ms, m.1 = false := by
  induction ms generalizing i j with
  | nil => simp
  | cons m ms ih =>
    obtain ⟨shown, e⟩ := m
    cases shown with
    | false =>
      intro k hk
      rcases List.mem_cons.mp hk with rfl | hk
      · rfl
      · exact ih hnil k hk
    | true =>
      obtain ⟨es, hs, hhunks⟩ := exists_hunksFrom_shown i j e ms
      simp [hhunks] at hnil

theorem oldLines_eq_newLines_of_hunks {es : List (Entry α)} (hnil : hunks es = []) : oldLines es = newLines es := by
  refine oldLines_eq_newLines fun e he => ?_
  rw [← map_snd_markShown 0 es] at he
  obtain ⟨m, hm, rfl⟩ := List.mem_map.mp he
  exact hidesCommon_markShown 0 es m hm (hidden_of_hunksFrom hnil m hm)

/-! ### Replaying hunks -/

variable [DecidableEq α] {olds : List α}

/-- The hunk stands behind the first `i` old and `j` new lines, as far behind the ones as behind the others, and its
old lines are those that stand there. -/
def Hunk.Fits (i j : Nat) (olds : List α) (h : Hunk α) : Prop :=
  i ≤ h.oldStart ∧ h.oldStart ≤ i + olds.length ∧ h.newStart + i = h.oldStart + j ∧
    oldLines h.entries <+: olds.drop (h.oldStart - i)

instance (i j : Nat) (olds : List α) (h : Hunk α) : Decidable (h.Fits i j olds) :=
  inferInstanceAs (Decidable (_ ∧ _ ∧ _ ∧ _))

/-- Replays hunks on the lines behind the first `i` old and `j` new ones: the lines before a hunk are copied, and the
old lines of the hunk are replaced by its new ones. -/
def replayFrom (i j : Nat) : List (Hunk α) → List α → Option (List α)
  | [], olds => some olds
  | h :: hs, olds =>
    if h.Fits i j olds then
      (replayFrom (h.oldStart + h.oldSize) (h.newStart + h.newSize) hs
        (olds.drop (h.oldStart - i + h.oldSize))).map (olds.take (h.oldStart - i) ++ newLines h.entries ++ ·)
    else none

/-- A line before all hunks is copied. -/
theorem replayFrom_copied (a : α) (hs : List (Hunk α)) (hstart : ∀ h ∈ hs, i + 1 ≤ h.oldStart) :
    replayFrom i j hs (a :: olds) = (replayFrom (i + 1) (j + 1) hs olds).map (a :: ·) := by
  cases hs with
  | nil => rfl
  | cons h hs =>
    have hbehind : i + 1 ≤ h.oldStart := hstart h (by simp)
    have hgap : h.oldStart - i = h.oldStart - (i + 1) + 1 := by omega
    have hend : h.oldStart - (i + 1) + 1 + h.oldSize = h.oldStart - (i + 1) + h.oldSize + 1 := by omega
    have hfits : h.Fits i j (a :: olds) ↔ h.Fits (i + 1) (j + 1) olds := by
      unfold Hunk.Fits
      rw [hgap, List.drop_succ_cons, List.length_cons]
      constructor
      · rintro ⟨-, hlength, hplace, hprefix⟩
        exact ⟨by omega, by omega, by omega, hprefix⟩
      · rintro ⟨-, hlength, hplace, hprefix⟩
        exact ⟨by omega, by omega, by omega, hprefix⟩
    rw [replayFrom, replayFrom, hgap, hend, List.drop_succ_cons, List.take_succ_cons]
    by_cases hf : h.Fits (i + 1) (j + 1) olds
    · rw [if_pos hf, if_pos (hfits.mpr hf), Option.map_map]
      rfl
    · rw [if_neg hf, if_neg (fun h' => hf (hfits.mp h'))]
      rfl

/-- A hunk at the beginning replaces its old lines by its new ones. -/
theorem replayFrom_at (es : List (Entry α)) (hs : List (Hunk α)) (olds : List α) :
    replayFrom i j (⟨i, j, es⟩ :: hs) olds =
      if oldLines es <+: olds then
        (replayFrom (i + (oldLines es).length) (j + (newLines es).length) hs
          (olds.drop (oldLines es).length)).map (newLines es ++ ·)
      else none := by
  have hfits : (⟨i, j, es⟩ : Hunk α).Fits i j olds ↔ oldLines es <+: olds := by
    simp [Hunk.Fits, Nat.add_comm]
  by_cases hprefix : oldLines es <+: olds
  · rw [replayFrom, if_pos (hfits.mpr hprefix), if_pos hprefix]
    simp [Hunk.oldSize, Hunk.newSize]
  · rw [replayFrom, if_neg fun h => hprefix (hfits.mp h), if_neg hprefix]

/-- The first entry of such a hunk is read off the old lines and written to the new ones. -/
theorem replayFrom_entry (e : Entry α) (es : List (Entry α)) (hs : List (Hunk α)) (olds : List α) :
    replayFrom i j (⟨i, j, e :: es⟩ :: hs) (e.old?.toList ++ olds) =
      (replayFrom (i + e.old?.toList.length) (j + e.new?.toList.length)
        (⟨i + e.old?.toList.length, j + e.new?.toList.length, es⟩ :: hs) olds).map (e.new?.toList ++ ·) := by
  rw [replayFrom_at, replayFrom_at, oldLines_cons, newLines_cons]
  simp only [List.prefix_append_right_inj]
  by_cases hprefix : oldLines es <+: olds
  · -- both sides go on behind the same old lines and write the same new ones
    rw [if_pos hprefix, if_pos hprefix, Option.map_map, List.length_append, List.length_append,
      List.drop_append, List.drop_of_length_le (Nat.le_add_right _ _), Nat.add_sub_cancel_left, Nat.add_assoc,
      Nat.add_assoc]
    exact congrArg (Option.map · _) (funext fun out => List.append_assoc _ _ out)
  · rw [if_neg hprefix, if_neg hprefix]
    rfl

/-- A hunk without entries changes nothing. -/
theorem replayFrom_empty (hs : List (Hunk α)) : replayFrom i j (⟨i, j, []⟩ :: hs) olds = replayFrom i j hs olds := by
  rw [replayFrom_at]
  simp [oldLines, newLines]

/-- Replaying the hunks of what is marked, from the place where it begins.  What is not shown is copied, and a hunk is
replayed entry by entry. -/
theorem replayFrom_hunksFrom (hms : HidesCommon ms) :
    replayFrom i j (hunksFrom i j ms) (oldLines (ms.map Prod.snd)) = some (newLines (ms.map Prod.snd)) := by
  induction ms generalizing i j with
  | nil => rfl
  | cons m ms ih =>
    obtain ⟨shown, e⟩ := m
    have hlater := ih (i := i + e.old?.toList.length) (j := j + e.new?.toList.length) hms.of_cons
    rw [List.map_cons, oldLines_cons, newLines_cons]
    cases shown with
    | false =>
      obtain ⟨a, rfl⟩ := hms.exists_common
      have hstart : ∀ h ∈ hunksFrom (i + 1) (j + 1) ms, i + 1 ≤ h.oldStart := fun h hh => (start_le hh).1
      exact (replayFrom_copied a _ hstart).trans (congrArg (Option.map (a :: ·)) hlater)
    | true =>
      obtain ⟨es, hs, hhunks, hcases⟩ := hunksFrom_shown i j e ms
      rw [hhunks, replayFrom_entry]
      rcases hcases with heq | ⟨rfl, heq, -⟩
      · rw [← heq, hlater]
        rfl
      · rw [replayFrom_empty, ← heq, hlater]
        rfl

/-- **Replaying the hunks of a script on its old lines gives its new lines.** -/
theorem replayFrom_hunks (es : List (Entry α)) : replayFrom 0 0 (hunks es) (oldLines es) = some (newLines es) := by
  have h := replayFrom_hunksFrom (i := 0) (j := 0) (hidesCommon_markShown 0 es)
  rwa [map_snd_markShown] at h

end PickIndent.Diff
