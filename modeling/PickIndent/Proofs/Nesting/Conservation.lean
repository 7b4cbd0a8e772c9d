import PickIndent.Proofs.Nesting.Step

/-!
# Conservation — the level as a count

The level is what the lines have opened less what they have closed, and one more for every group in which a
branch is open (`Conserved`).  A `CASE` is in neither count: the branch it opens is paid for by the line
that ends it.  Nothing is assumed of the program, and the level may lie below zero.
-/

namespace PickIndent

/-- The lines that open a block. A `CASE` opens a branch instead. -/
def openings (cs : List Classification) : Nat := cs.countP fun c => c.opens && !c.is .caseBranch

def closings (cs : List Classification) : Nat := cs.countP Classification.closes

/-- How many more groups have begun than ended. -/
def balance (cs : List Classification) : Int :=
  cs.countP (Classification.is .beginCase) - cs.countP (Classification.is .endCase)

/-- What holds of the nesting after the lines `cs`. -/
structure Conserved (cs : List Classification) (s : Nesting) : Prop where
  level : s.level = openings cs - closings cs + s.groups.count true
  groups : s.groups.length = balance cs

variable {c : Classification} {cs : List Classification} {s t : Nesting}

/-! ### One more line -/

/-- How many blocks a line opens, less those that it closes. -/
def Classification.gain (c : Classification) : Int := (c.opens && !c.is .caseBranch).toNat - c.closes.toNat

/-- How many groups a line begins, less those that it ends. -/
def Classification.weight (c : Classification) : Int := (c.is .beginCase).toNat - (c.is .endCase).toNat

theorem openings_concat (cs : List Classification) (c : Classification) :
    openings (cs ++ [c]) = openings cs + (c.opens && !c.is .caseBranch).toNat := by
  rw [openings, openings, List.countP_append, List.countP_singleton]
  cases c.opens && !c.is .caseBranch <;> rfl

theorem closings_concat (cs : List Classification) (c : Classification) :
    closings (cs ++ [c]) = closings cs + c.closes.toNat := by
  rw [closings, closings, List.countP_append, List.countP_singleton]
  cases c.closes <;> rfl

theorem surplus_concat (cs : List Classification) (c : Classification) :
    (openings (cs ++ [c]) - closings (cs ++ [c]) : Int) = openings cs - closings cs + c.gain := by
  rw [openings_concat, closings_concat, Classification.gain]
  omega

theorem balance_concat (cs : List Classification) (c : Classification) :
    balance (cs ++ [c]) = balance cs + c.weight := by
  have hcount : ∀ k, (cs ++ [c]).countP (Classification.is k) =
      cs.countP (Classification.is k) + (c.is k).toNat := by
    intro k
    rw [List.countP_append, List.countP_singleton]
    cases c.is k <;> rfl
  rw [balance, balance, hcount, hcount, Classification.weight]
  omega

theorem gain_beginCase (hc : c.Regular) (hk : c.keyword = some .beginCase) : c.gain = 1 := by
  simp [Classification.gain, Classification.is_of_keyword hk, hc.begins hk]

theorem gain_caseBranch (hc : c.Regular) (hk : c.keyword = some .caseBranch) : c.gain = 0 := by
  simp [Classification.gain, Classification.is_of_keyword hk, hc.branches hk]

theorem gain_endCase (hc : c.Regular) (hk : c.keyword = some .endCase) : c.gain = -1 := by
  simp [Classification.gain, hc.ends hk]

theorem gain_other (hcase : c.keyword ≠ some .caseBranch) : c.gain = c.opens.toNat - c.closes.toNat := by
  simp [Classification.gain, Classification.is_of_ne hcase]

theorem weight_beginCase (hk : c.keyword = some .beginCase) : c.weight = 1 := by
  simp [Classification.weight, Classification.is_of_keyword hk]

theorem weight_caseBranch (hk : c.keyword = some .caseBranch) : c.weight = 0 := by
  simp [Classification.weight, Classification.is_of_keyword hk]

theorem weight_endCase (hk : c.keyword = some .endCase) : c.weight = -1 := by
  simp [Classification.weight, Classification.is_of_keyword hk]

theorem weight_other (hbegin : c.keyword ≠ some .beginCase) (hend : c.keyword ≠ some .endCase) :
    c.weight = 0 := by
  simp [Classification.weight, Classification.is_of_ne hbegin, Classification.is_of_ne hend]

theorem count_true_cons (b : Bool) (gs : List Bool) : (b :: gs).count true = gs.count true + b.toNat := by
  cases b <;> simp

theorem Conserved.advance (hc : c.Regular) (h : Conserved cs s) (hs : s.advance c = .ok t) :
    Conserved (cs ++ [c]) t := by
  obtain ⟨m, hm, rfl⟩ := Nesting.advance_ok.mp hs
  obtain ⟨hlevel, hgroups⟩ := h
  rw [Nesting.leave_eq]
  rcases Nesting.enter_ok hc hm with ⟨hk, rfl⟩ | ⟨b, gs, hk, hb, rfl⟩ | ⟨b, gs, hk, hb, rfl⟩ |
    ⟨hbegin, hcase, hend, rfl⟩
  · constructor
    · show s.level + (c.opens.toNat : Int) = _
      rw [surplus_concat, gain_beginCase hc hk, (hc.begins hk).1, count_true_cons, hlevel]
      simp only [Bool.toNat_true, Bool.toNat_false]
      omega
    · rw [balance_concat, weight_beginCase hk, ← hgroups, List.length_cons, Int.natCast_add]
      rfl
  · -- the branch before pays for itself, and the next one may open
    rw [hb, count_true_cons] at hlevel
    rw [hb] at hgroups
    constructor
    · show s.level - b.toNat + (c.opens.toNat : Int) = _
      rw [surplus_concat, gain_caseBranch hc hk, count_true_cons, hlevel]
      omega
    · rw [balance_concat, weight_caseBranch hk, Int.add_zero]
      exact hgroups
  · -- the group and the branch left open in it are closed at once
    rw [hb, count_true_cons] at hlevel
    rw [hb, List.length_cons] at hgroups
    constructor
    · show s.level - 1 - b.toNat + (c.opens.toNat : Int) =
        openings (cs ++ [c]) - closings (cs ++ [c]) + gs.count true
      rw [surplus_concat, gain_endCase hc hk, (hc.ends hk).1, hlevel, Bool.toNat_false]
      omega
    · show (gs.length : Int) = balance (cs ++ [c])
      rw [balance_concat, weight_endCase hk, ← hgroups]
      omega
  · constructor
    · show s.level - c.closes.toNat + (c.opens.toNat : Int) =
        openings (cs ++ [c]) - closings (cs ++ [c]) + s.groups.count true
      rw [surplus_concat, gain_other hcase, hlevel]
      omega
    · rw [balance_concat, weight_other hbegin hend, Int.add_zero]
      exact hgroups

/-! ### All lines -/

theorem conserved_of_run (hregular : ∀ c ∈ cs, c.Regular) (h : Nesting.outermost.run cs = .ok s) :
    Conserved cs s :=
  Nesting.run_induction ⟨rfl, rfl⟩ (fun _ _ _ _ hc h hs => h.advance hc hs) hregular h

/-- **The nesting is conserved.**  Whatever lines a run has got through, after each of them the level is what
they have opened less what they have closed, with the open branches, and there are as many groups as have
begun and not ended. -/
theorem run_conserves {d : Dialect} (hreturn : d.returnCloses = false)
    (hcs : ∀ c ∈ cs, ∃ line, classify d line = .ok c) (h : Nesting.outermost.run cs = .ok s)
    {before : List Classification} (hbefore : before <+: cs) :
    ∃ t, Nesting.outermost.run before = .ok t ∧
      t.level = openings before - closings before + t.groups.count true ∧
      t.groups.length = balance before := by
  obtain ⟨after, rfl⟩ := hbefore
  obtain ⟨t, ht, -⟩ := Nesting.run_append_ok.mp h
  have hregular : ∀ c ∈ before, c.Regular := by
    intro c hc
    obtain ⟨line, hline⟩ := hcs c (List.mem_append_left _ hc)
    exact classify_regular hreturn hline
  have hconserved := conserved_of_run hregular ht
  exact ⟨t, ht, hconserved.level, hconserved.groups⟩

theorem run_conserves_stray :
    let cs : List Classification :=
      [⟨some .beginCase, true, false, "BEGIN CASE".toList, false⟩,
        ⟨some .caseBranch, true, false, "CASE X".toList, false⟩,
        ⟨some .nextFor, false, true, "NEXT I".toList, false⟩,
        ⟨some .nextFor, false, true, "NEXT J".toList, false⟩,
        ⟨some .endCase, false, true, "END CASE".toList, false⟩]
    (∀ c ∈ cs, ∃ line, classify {} line = .ok c) ∧ Nesting.outermost.run cs = .ok ⟨-2, []⟩ ∧
      cs.take 4 <+: cs ∧
      ∃ t, Nesting.outermost.run (cs.take 4) = .ok t ∧
        t.level = openings (cs.take 4) - closings (cs.take 4) + t.groups.count true ∧
        t.groups.length = balance (cs.take 4) := by
  intro cs
  have hcs : ∀ c ∈ cs, ∃ line, classify {} line = .ok c := by
    intro c hc
    refine ⟨c.code, ?_⟩
    revert c
    decide +kernel
  have hrun : Nesting.outermost.run cs = .ok ⟨-2, []⟩ := by decide
  have hbefore : cs.take 4 <+: cs := List.take_prefix 4 cs
  exact ⟨hcs, hrun, hbefore, run_conserves rfl hcs hrun hbefore⟩

end PickIndent
