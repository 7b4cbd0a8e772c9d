import Mathlib.Order.Nat
import PickIndent.Diff.Unified

/-!
# Equal texts — an empty diff

A list compared with itself shares a longest stretch that lies on the diagonal (`longestStretch_self`): the
stretch that ends in row `i` and column `j` is no longer than the usable lines in front of `i` nor than those in
front of `j`, and on the diagonal it is as long as these.  So the list is cut around itself, every entry of the
script is common, nothing is shown, and the diff has no line (`unified_self`).
-/

namespace PickIndent.Diff

variable {α : Type}

/-! ### Nothing to show -/

theorem markShown_of_common {es : List (Entry α)} (h : ∀ e ∈ es, e.isChange = false) :
    markShown 0 es = es.map (false, ·) := by
  induction es with
  | nil => rfl
  | cons e es ih =>
    have hes : ∀ e ∈ es, e.isChange = false := fun a ha => h a (List.mem_cons_of_mem e ha)
    have hnear : (es.take contextSize).any Entry.isChange = false :=
      List.any_eq_false.mpr fun a ha => by simp [hes a (List.mem_of_mem_take ha)]
    rw [markShown, h e (by simp), hnear, Nat.zero_sub, ih hes]
    rfl

theorem hunksFrom_of_hidden (i j : Nat) (es : List (Entry α)) : hunksFrom i j (es.map (false, ·)) = [] := by
  induction es generalizing i j with
  | nil => rfl
  | cons e es ih => exact ih _ _

/-! ### Rows -/

/-- How many usable lines stand without a gap in front of a place. -/
def runBefore (usable : α → Bool) (bs : List α) : Nat → Nat
  | 0 => 0
  | j + 1 => if bs[j]?.any usable then runBefore usable bs j + 1 else 0

/-- A row of a list compared with itself, with `i` rows up to it. The entry at `j` belongs to the place with `j`
lines before it. -/
structure OwnRow (usable : α → Bool) (bs : List α) (i : Nat) (row : List Nat) : Prop where
  le_column : ∀ {j n : Nat}, row[j]? = some n → n ≤ runBefore usable bs j
  le_row : ∀ {n : Nat}, n ∈ row → n ≤ runBefore usable bs i
  diagonal : row[i]? = some (runBefore usable bs i)

theorem ownRow_zero (usable : α → Bool) (bs : List α) : OwnRow usable bs 0 (0 :: bs.map fun _ => 0) := by
  have hzero : ∀ n ∈ 0 :: bs.map fun _ => 0, n = 0 := by simp
  refine ⟨fun h => ?_, fun h => ?_, rfl⟩
  · rw [hzero _ (List.mem_of_getElem? h)]
    exact Nat.zero_le _
  · rw [hzero _ h]
    exact Nat.zero_le _

/-! ### The longest stretch in a row -/

theorem longestInRow_of_le {i j : Nat} {ns : List Nat} {best : Stretch} (h : ∀ n ∈ ns, n ≤ best.size) :
    longestInRow i j ns best = best := by
  induction ns generalizing j with
  | nil => rfl
  | cons n ns ih =>
    have hn : ¬best.size < n := Nat.not_lt.mpr (h n (by simp))
    rw [longestInRow, if_neg hn, ih fun m hm => h m (List.mem_cons_of_mem n hm)]

/-- A row that is greatest at `k` and before it not greater than what is known. -/
theorem longestInRow_peak {i j k u : Nat} {ns : List Nat} {best : Stretch} (hk : ns[k]? = some u)
    (hbefore : ∀ m < k, ∀ n, ns[m]? = some n → n ≤ best.size) (hall : ∀ n ∈ ns, n ≤ u) :
    longestInRow i j ns best = if best.size < u then ⟨i + 1, j + k + 1, u⟩ else best := by
  induction ns generalizing j k with
  | nil => simp at hk
  | cons n ns ih =>
    have hlater : ∀ m ∈ ns, m ≤ u := fun m hm => hall m (List.mem_cons_of_mem n hm)
    rw [longestInRow]
    cases k with
    | zero =>
      obtain rfl : n = u := by simpa using hk
      refine longestInRow_of_le fun m hm => ?_
      split
      next => exact hlater m hm
      next hbest => exact (hlater m hm).trans (Nat.not_lt.mp hbest)
    | succ k =>
      have hn : ¬best.size < n := Nat.not_lt.mpr (hbefore 0 (Nat.succ_pos k) n rfl)
      rw [if_neg hn, ih (by simpa using hk) (fun m hm x hx => hbefore (m + 1) (by omega) x (by simpa using hx))
        hlater, show j + 1 + k = j + (k + 1) by omega]

/-- The stretch ends on the diagonal among the first `i` lines, and none that ends there is longer. -/
structure OwnStretch (usable : α → Bool) (bs : List α) (i : Nat) (s : Stretch) : Prop where
  diagonal : s.oldEnd = s.newEnd
  le : s.oldEnd ≤ i
  longest : ∀ j ≤ i, runBefore usable bs j ≤ s.size

theorem OwnStretch.next {usable : α → Bool} {bs : List α} {i : Nat} {row : List Nat} {best : Stretch}
    (hbest : OwnStretch usable bs i best) (hrow : OwnRow usable bs (i + 1) (0 :: row)) :
    OwnStretch usable bs (i + 1) (longestInRow i 0 row best) := by
  have hbefore : ∀ m < i, ∀ n, row[m]? = some n → n ≤ best.size := fun m hm n hn =>
    (hrow.le_column (j := m + 1) (by simpa using hn)).trans (hbest.longest (m + 1) hm)
  have hall : ∀ n ∈ row, n ≤ runBefore usable bs (i + 1) := fun n hn => hrow.le_row (List.mem_cons_of_mem 0 hn)
  rw [longestInRow_peak (by simpa using hrow.diagonal) hbefore hall]
  split
  next hlonger =>
    refine ⟨by simp, le_rfl, fun j hj => ?_⟩
    rcases Nat.le_succ_iff.mp hj with hj | rfl
    · exact (hbest.longest j hj).trans hlonger.le
    · exact le_rfl
  next hshorter =>
    refine ⟨hbest.diagonal, hbest.le.trans (Nat.le_succ i), fun j hj => ?_⟩
    rcases Nat.le_succ_iff.mp hj with hj | rfl
    · exact hbest.longest j hj
    · exact Nat.not_lt.mp hshorter

/-! ### Row after row -/

variable [DecidableEq α]

theorem OwnRow.next {usable : α → Bool} {bs : List α} {i : Nat} {above : List Nat}
    (h : OwnRow usable bs i (0 :: above)) {a : α} (ha : bs[i]? = some a) :
    OwnRow usable bs (i + 1) (0 :: stretchSizes usable bs a above) := by
  have hrow : runBefore usable bs (i + 1) = if usable a then runBefore usable bs i + 1 else 0 := by
    rw [runBefore, ha]
    rfl
  have hentry : ∀ {j n : Nat}, (stretchSizes usable bs a above)[j]? = some n →
      n ≤ runBefore usable bs (j + 1) ∧ n ≤ runBefore usable bs (i + 1) := by
    intro j n hn
    obtain ⟨b, m, hb, hm, rfl⟩ := List.getElem?_zipWith_eq_some.mp hn
    by_cases hequal : usable a = true ∧ a = b
    · obtain ⟨husable, rfl⟩ := hequal
      have hcolumn : runBefore usable bs (j + 1) = runBefore usable bs j + 1 := by
        rw [runBefore, hb]
        exact if_pos husable
      rw [if_pos ⟨husable, rfl⟩, hcolumn, hrow, if_pos husable]
      exact ⟨Nat.succ_le_succ (h.le_column hm), Nat.succ_le_succ (h.le_row (List.mem_of_getElem? hm))⟩
    · rw [if_neg hequal]
      exact ⟨Nat.zero_le _, Nat.zero_le _⟩
  refine ⟨@fun j n hn => ?_, @fun n hn => ?_, ?_⟩
  · cases j with
    | zero =>
      obtain rfl : 0 = n := by simpa using hn
      exact Nat.zero_le _
    | succ j => exact (hentry (by simpa using hn)).1
  · rcases List.mem_cons.mp hn with rfl | hn
    · exact Nat.zero_le _
    · obtain ⟨j, hj⟩ := List.getElem?_of_mem hn
      exact (hentry hj).2
  · rw [List.getElem?_cons_succ, hrow]
    refine List.getElem?_zipWith_eq_some.mpr ⟨a, _, ha, h.diagonal, ?_⟩
    simp

theorem longestFrom_own {usable : α → Bool} {bs : List α} {i : Nat} {above : List Nat} {best : Stretch}
    (hrow : OwnRow usable bs i (0 :: above)) (hbest : OwnStretch usable bs i best) (hi : i ≤ bs.length) :
    OwnStretch usable bs bs.length (longestFrom usable bs i above (bs.drop i) best) := by
  induction hleft : bs.length - i generalizing i above best with
  | zero =>
    obtain rfl : i = bs.length := by omega
    rwa [List.drop_length, longestFrom]
  | succ n ih =>
    have hlt : i < bs.length := by omega
    have hnext := hrow.next (List.getElem?_eq_getElem hlt)
    rw [List.drop_eq_getElem_cons hlt, longestFrom]
    exact ih hnext (hbest.next hnext) hlt (by omega)

/-- **The longest stretch of a list with itself lies on the diagonal.** -/
theorem longestStretch_self (usable : α → Bool) (bs : List α) :
    (longestStretch usable bs bs).oldEnd = (longestStretch usable bs bs).newEnd ∧
      (longestStretch usable bs bs).oldEnd ≤ bs.length := by
  have hbest : OwnStretch usable bs 0 ⟨0, 0, 0⟩ := by
    refine ⟨rfl, le_rfl, fun j hj => ?_⟩
    rw [Nat.le_zero.mp hj]
    exact le_rfl
  have hown := longestFrom_own (ownRow_zero usable bs) hbest (Nat.zero_le _)
  exact ⟨hown.diagonal, hown.le⟩

/-! ### The script -/

@[simp] theorem commonFront_self (bs : List α) : commonFront bs bs = bs := by
  induction bs with
  | nil => rfl
  | cons b bs ih => rw [commonFront, if_pos rfl, ih]

theorem cut_self (usable : α → Bool) (bs : List α) : cut usable bs bs = ⟨[], [], bs, [], []⟩ := by
  obtain ⟨hdiagonal, hle⟩ := longestStretch_self usable bs
  have hback : ∀ i ≤ bs.length, i - (bs.take i).reverse.length = 0 := by
    intro i hi
    rw [List.length_reverse, List.length_take, Nat.min_eq_left hi, Nat.sub_self]
  rw [cut, ← hdiagonal]
  simp only [cutAt, commonFront_self, hback _ ((Nat.sub_le _ _).trans hle), List.take_zero, List.drop_zero,
    List.drop_length]

theorem script_nil (usable : α → Bool) : script usable ([] : List α) [] = [] := by
  rw [script, dif_pos (by rw [cut_self])]
  rfl

theorem script_self (usable : α → Bool) (bs : List α) : script usable bs bs = bs.map .common := by
  rw [script, cut_self]
  split
  next hnil =>
    obtain rfl : bs = [] := hnil
    rfl
  next => simp only [script_nil, List.nil_append, List.append_nil]

/-! ### The diff -/

/-- **Equal texts have an empty diff.** -/
theorem unified_self (name : String) (t : Text) : unified name t t = [] := by
  have hcommon : ∀ e ∈ (endedLines t).map Entry.common, e.isChange = false := by simp [Entry.isChange]
  rw [unified, compareLines, script_self, hunks, markShown_of_common hcommon, hunksFrom_of_hidden]

end PickIndent.Diff
