import Mathlib.Data.List.Infix
import PickIndent.Proofs.Nesting.Conservation

/-!
# Groups — the open groups, read off the lines

Which groups of cases are open, and in which of them a branch is, is decided by counting `BEGIN CASE` and
`END CASE` lines (`openGroups`, `branchOpen`).  The groups that a run keeps account of are these
(`tracked_of_run`), and so the level of the next line is a count as well (`level_of_enter`).
-/

namespace PickIndent

/-- Whether a group that has begun before the lines `cs` is open after each of them. -/
def staysOpen (cs : List Classification) : Bool := cs.inits.all fun before => 0 ≤ balance before

/-- The lines of a group that has begun with the first of these lines and is still open. -/
def openGroup? : List Classification → Option (List Classification)
  | [] => none
  | c :: later => if c.is .beginCase && staysOpen later then some later else none

/-- The lines behind each `BEGIN CASE` whose group is still open, the innermost group first. -/
def openGroups (cs : List Classification) : List (List Classification) :=
  cs.tails.reverse.filterMap openGroup?

/-- The last of the lines of a group, if it is a `CASE` and not that of a group inside. -/
def lastBranch? (cs : List Classification) : Option Classification :=
  if balance cs = 0 then cs.getLast?.filter (Classification.is .caseBranch) else none

/-- The `CASE` lines of a group. -/
def branches (cs : List Classification) : List Classification := cs.inits.filterMap lastBranch?

/-- Whether the latest `CASE` of a group has opened a branch. -/
def branchOpen (cs : List Classification) : Bool := (branches cs).getLast?.any Classification.opens

/-- The level at which a line stands after the lines `before`. A `CASE` or an `END CASE` ends the branch of
its group. -/
def depth (before : List Classification) (c : Classification) : Int :=
  openings before - closings (before ++ [c]) +
    (if c.is .caseBranch || c.is .endCase then (openGroups before).tail
      else openGroups before).countP branchOpen

variable {c : Classification} {cs q : List Classification} {s m : Nesting}

/-! ### One more line -/

theorem staysOpen_concat (cs : List Classification) (c : Classification) :
    staysOpen (cs ++ [c]) = (staysOpen cs && decide (0 ≤ balance (cs ++ [c]))) := by
  simp [staysOpen, List.inits_append]

theorem filterMap_concat {α β : Type} (f : α → Option β) (as : List α) (a : α) :
    (as ++ [a]).filterMap f = as.filterMap f ++ (f a).toList := by
  rw [List.filterMap_append]
  cases h : f a <;> simp [h]

theorem branches_concat (cs : List Classification) (c : Classification) :
    branches (cs ++ [c]) = branches cs ++ (lastBranch? (cs ++ [c])).toList := by
  rw [branches, List.inits_append]
  exact filterMap_concat lastBranch? cs.inits (cs ++ [c])

theorem branchOpen_concat (cs : List Classification) (c : Classification) :
    branchOpen (cs ++ [c]) =
      if balance (cs ++ [c]) = 0 ∧ c.is .caseBranch then c.opens else branchOpen cs := by
  rw [branchOpen, branches_concat, lastBranch?, List.getLast?_concat]
  by_cases hbalance : balance (cs ++ [c]) = 0 <;> by_cases hcase : c.is .caseBranch <;>
    simp [hbalance, hcase, Option.filter, branchOpen]

theorem openGroups_cons (c : Classification) (cs : List Classification) :
    openGroups (c :: cs) = openGroups cs ++ (openGroup? (c :: cs)).toList := by
  rw [openGroups, List.tails, List.reverse_cons, filterMap_concat, ← openGroups]

/-- The lines of a group and one more, if the group is still open. -/
def extend? (c : Classification) (q : List Classification) : Option (List Classification) :=
  if 0 ≤ balance (q ++ [c]) then some (q ++ [c]) else none

theorem openGroup?_concat (a : Classification) (cs : List Classification) (c : Classification) :
    openGroup? (a :: (cs ++ [c])) = (openGroup? (a :: cs)).bind (extend? c) := by
  rw [openGroup?, openGroup?, staysOpen_concat, ← Bool.and_assoc]
  cases a.is .beginCase && staysOpen cs with
  | false => rfl
  | true => simp [extend?]

theorem openGroups_concat (cs : List Classification) (c : Classification) :
    openGroups (cs ++ [c]) =
      (if c.is .beginCase then [[]] else []) ++ (openGroups cs).filterMap (extend? c) := by
  induction cs with
  | nil =>
    rw [List.nil_append, openGroups_cons]
    by_cases h : c.is .beginCase <;> simp [h, openGroups, openGroup?, staysOpen, balance, List.filterMap_cons]
  | cons a cs ih =>
    have hfirst : (openGroup? (a :: (cs ++ [c]))).toList =
        (openGroup? (a :: cs)).toList.filterMap (extend? c) := by
      rw [openGroup?_concat]
      cases openGroup? (a :: cs) with
      | none => rfl
      | some q => exact (filterMap_concat (extend? c) [] q).symm
    rw [List.cons_append, openGroups_cons, ih, openGroups_cons, List.filterMap_append, List.append_assoc,
      hfirst]

/-! ### Groups inside groups -/

/-- Behind the first of these groups `n` groups have begun that have not ended, behind the next one more. -/
def Nested : Int → List (List Classification) → Prop
  | _, [] => True
  | n, q :: gs => balance q = n ∧ Nested (n + 1) gs

theorem Nested.extend {n : Int} {gs : List (List Classification)} (h : Nested n gs) (hn : 0 ≤ n + c.weight) :
    gs.filterMap (extend? c) = gs.map (· ++ [c]) ∧ Nested (n + c.weight) (gs.map (· ++ [c])) := by
  induction gs generalizing n with
  | nil => exact ⟨rfl, trivial⟩
  | cons q gs ih =>
    obtain ⟨hq, hgs⟩ := h
    obtain ⟨hmap, hnested⟩ := ih hgs (by omega)
    have hbalance : balance (q ++ [c]) = n + c.weight := by rw [balance_concat, hq]
    constructor
    · rw [List.filterMap_cons_some (b := q ++ [c]) (by rw [extend?, if_pos (by omega)]), hmap]
      rfl
    · refine ⟨hbalance, ?_⟩
      rwa [Int.add_right_comm]

/-- A line changes no branch but that of the innermost group, and this one only if it is a `CASE`. -/
theorem Nested.map_branchOpen {n : Int} {gs : List (List Classification)} (h : Nested n gs)
    (hc : c.is .caseBranch = false ∨ 0 < n) : (gs.map (· ++ [c])).map branchOpen = gs.map branchOpen := by
  induction gs generalizing n with
  | nil => rfl
  | cons q gs ih =>
    obtain ⟨hq, hgs⟩ := h
    have hsame : branchOpen (q ++ [c]) = branchOpen q := by
      rw [branchOpen_concat, if_neg]
      rintro ⟨hbalance, hcase⟩
      rw [balance_concat, weight_caseBranch (Classification.is_iff.mp hcase), hq] at hbalance
      rcases hc with hc | hc
      · exact Bool.noConfusion (hc.symm.trans hcase)
      · omega
    rw [List.map_cons, List.map_cons, List.map_cons, hsame, ih hgs (hc.imp_right (by omega))]

theorem openGroups_beginCase (hk : c.keyword = some .beginCase) (h : Nested 0 (openGroups cs)) :
    openGroups (cs ++ [c]) = [] :: (openGroups cs).map (· ++ [c]) ∧ Nested 0 (openGroups (cs ++ [c])) := by
  have hweight := weight_beginCase hk
  obtain ⟨hmap, hnested⟩ := h.extend (c := c) (by omega)
  have hopen : openGroups (cs ++ [c]) = [] :: (openGroups cs).map (· ++ [c]) := by
    rw [openGroups_concat, hmap, if_pos (Classification.is_iff.mpr hk)]
    rfl
  rw [hweight] at hnested
  exact ⟨hopen, hopen ▸ ⟨rfl, hnested⟩⟩

/-- Only the innermost group would fall below zero. -/
theorem openGroups_endCase (hk : c.keyword = some .endCase) {qs : List (List Classification)}
    (hcons : openGroups cs = q :: qs) (h : Nested 0 (openGroups cs)) :
    openGroups (cs ++ [c]) = qs.map (· ++ [c]) ∧ Nested 0 (openGroups (cs ++ [c])) := by
  have hweight := weight_endCase hk
  rw [hcons] at h
  obtain ⟨hq, hqs⟩ := h
  obtain ⟨hmap, hnested⟩ := hqs.extend (c := c) (by omega)
  have hextend : extend? c q = none := by rw [extend?, if_neg (by rw [balance_concat]; omega)]
  have hopen : openGroups (cs ++ [c]) = qs.map (· ++ [c]) := by
    rw [openGroups_concat, hcons, List.filterMap_cons_none hextend, hmap,
      if_neg (by simp [Classification.is_of_keyword hk])]
    rfl
  rw [hweight] at hnested
  exact ⟨hopen, hopen ▸ hnested⟩

theorem openGroups_other (hbegin : c.keyword ≠ some .beginCase) (hend : c.keyword ≠ some .endCase)
    (h : Nested 0 (openGroups cs)) :
    openGroups (cs ++ [c]) = (openGroups cs).map (· ++ [c]) ∧ Nested 0 (openGroups (cs ++ [c])) := by
  have hweight := weight_other hbegin hend
  obtain ⟨hmap, hnested⟩ := h.extend (c := c) (by omega)
  have hopen : openGroups (cs ++ [c]) = (openGroups cs).map (· ++ [c]) := by
    rw [openGroups_concat, hmap, if_neg (by simp [Classification.is_of_ne hbegin])]
    rfl
  rw [hweight] at hnested
  exact ⟨hopen, hopen ▸ hnested⟩

/-! ### The groups of a run -/

/-- The nesting keeps account of the open groups. -/
structure Tracked (cs : List Classification) (s : Nesting) : Prop where
  groups : s.groups = (openGroups cs).map branchOpen
  nested : Nested 0 (openGroups cs)

theorem Tracked.cons (h : Tracked cs s) {b : Bool} {gs : List Bool} (hgroups : s.groups = b :: gs) :
    ∃ q qs, openGroups cs = q :: qs ∧ branchOpen q = b ∧ qs.map branchOpen = gs ∧ balance q = 0 ∧
      Nested 1 qs := by
  have hmap := h.groups.symm.trans hgroups
  rw [List.map_eq_cons_iff] at hmap
  obtain ⟨q, qs, hopen, hb, hgs⟩ := hmap
  have hnested := h.nested
  rw [hopen] at hnested
  exact ⟨q, qs, hopen, hb, hgs, hnested.1, hnested.2⟩

theorem Tracked.advance {t : Nesting} (hc : c.Regular) (h : Tracked cs s) (hs : s.advance c = .ok t) :
    Tracked (cs ++ [c]) t := by
  obtain ⟨m, hm, rfl⟩ := Nesting.advance_ok.mp hs
  rw [Nesting.leave_eq]
  rcases Nesting.enter_ok hc hm with ⟨hk, rfl⟩ | ⟨b, gs, hk, hb, rfl⟩ | ⟨b, gs, hk, hb, rfl⟩ |
    ⟨hbegin, hcase, hend, rfl⟩
  · obtain ⟨hopen, hnested⟩ := openGroups_beginCase hk h.nested
    have hcase : c.is .caseBranch = false := by simp [Classification.is_of_keyword hk]
    refine ⟨?_, hnested⟩
    rw [hopen, List.map_cons, h.nested.map_branchOpen (Or.inl hcase), ← h.groups]
    rfl
  · -- only the innermost group is balanced, so the `CASE` is one of its own
    obtain ⟨hopen, hnested⟩ := openGroups_other (c := c) (by simp [hk]) (by simp [hk]) h.nested
    obtain ⟨q, qs, hcons, rfl, rfl, hq, hqs⟩ := h.cons hb
    have hbalance : balance (q ++ [c]) = 0 := by
      rw [balance_concat, hq, weight_caseBranch hk]
      rfl
    refine ⟨?_, hnested⟩
    rw [hopen, hcons, List.map_cons, List.map_cons, hqs.map_branchOpen (Or.inr (by decide)),
      branchOpen_concat, if_pos ⟨hbalance, Classification.is_iff.mpr hk⟩]
  · obtain ⟨q, qs, hcons, rfl, rfl, hq, hqs⟩ := h.cons hb
    obtain ⟨hopen, hnested⟩ := openGroups_endCase hk hcons h.nested
    have hcase : c.is .caseBranch = false := by simp [Classification.is_of_keyword hk]
    refine ⟨?_, hnested⟩
    rw [hopen, hqs.map_branchOpen (Or.inl hcase)]
  · obtain ⟨hopen, hnested⟩ := openGroups_other hbegin hend h.nested
    refine ⟨?_, hnested⟩
    rw [hopen, h.nested.map_branchOpen (Or.inl (Classification.is_of_ne hcase)), ← h.groups]

/-- **The groups of a run are the open groups.** -/
theorem tracked_of_run (hregular : ∀ c ∈ cs, c.Regular) (h : Nesting.outermost.run cs = .ok s) :
    Tracked cs s :=
  Nesting.run_induction ⟨rfl, trivial⟩ (fun _ _ _ _ hc h hs => h.advance hc hs) hregular h

/-! ### The level of a line -/

theorem count_true_map (gs : List (List Classification)) :
    (gs.map branchOpen).count true = gs.countP branchOpen := by
  rw [List.count_eq_countP, List.countP_map]
  congr 1
  funext q
  cases hq : branchOpen q <;> simp [hq]

/-- **The level of the next line is a count.** -/
theorem level_of_enter (hc : c.Regular) (hconserved : Conserved cs s) (h : Tracked cs s)
    (hm : s.enter c = .ok m) : m.level = depth cs c := by
  have hlevel := hconserved.level
  rw [depth, closings_concat]
  rcases Nesting.enter_ok hc hm with ⟨hk, rfl⟩ | ⟨b, gs, hk, hb, rfl⟩ | ⟨b, gs, hk, hb, rfl⟩ |
    ⟨hbegin, hcase, hend, rfl⟩
  · have hinner : (c.is .caseBranch || c.is .endCase) = false := by simp [Classification.is_of_keyword hk]
    rw [hinner, if_neg Bool.false_ne_true, (hc.begins hk).2, ← count_true_map, ← h.groups]
    exact hlevel
  · obtain ⟨q, qs, hcons, rfl, rfl, -⟩ := h.cons hb
    have hinner : (c.is .caseBranch || c.is .endCase) = true := by simp [Classification.is_of_keyword hk]
    rw [hb, count_true_cons, count_true_map] at hlevel
    rw [hinner, if_pos rfl, hcons, List.tail_cons, hc.branches hk, Bool.toNat_false]
    show s.level - (branchOpen q).toNat = openings cs - (closings cs + 0 : Nat) + qs.countP branchOpen
    omega
  · obtain ⟨q, qs, hcons, rfl, rfl, -⟩ := h.cons hb
    have hinner : (c.is .caseBranch || c.is .endCase) = true := by simp [Classification.is_of_keyword hk]
    rw [hb, count_true_cons, count_true_map] at hlevel
    rw [hinner, if_pos rfl, hcons, List.tail_cons, (hc.ends hk).2, Bool.toNat_true]
    show s.level - 1 - (branchOpen q).toNat = openings cs - (closings cs + 1 : Nat) + qs.countP branchOpen
    omega
  · have hinner : (c.is .caseBranch || c.is .endCase) = false := by
      rw [Classification.is_of_ne hcase, Classification.is_of_ne hend, Bool.false_or]
    rw [hinner, if_neg Bool.false_ne_true, ← count_true_map, ← h.groups]
    show s.level - c.closes.toNat = openings cs - (closings cs + c.closes.toNat : Nat) + s.groups.count true
    omega

/-- A group is open as long as more groups have begun than ended. -/
theorem groups_eq_nil_iff (h : Conserved cs s) : s.groups = [] ↔ balance cs = 0 := by
  rw [← h.groups, Int.natCast_eq_zero, List.length_eq_zero_iff]

end PickIndent
