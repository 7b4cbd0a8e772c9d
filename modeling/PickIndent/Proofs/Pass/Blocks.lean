import PickIndent.Proofs.Pass.Walk

/-!
# Blocks — the depth of a block program

A program made of closed blocks and groups of cases is laid out by its structure.  `BlockProgram` says what
such a program is and how deep each of its lines lies; the pass gives every line the level at which the
program begins and its depth, and leads back to the nesting it began with
(`formatPart_blockProgram`).
-/

namespace PickIndent

/-! ### The lines of a block program -/

namespace Classification

def Plain (c : Classification) : Prop :=
  c.opens = false ∧ c.closes = false ∧ c.keyword ≠ some .caseBranch

def Opener (c : Classification) : Prop :=
  c.opens = true ∧ c.closes = false ∧ c.keyword ≠ some .caseBranch ∧ c.keyword ≠ some .beginCase

/-- A line that ends one body of a block and begins the next. -/
def Divider (c : Classification) : Prop := c.opens = true ∧ c.closes = true

def Closer (c : Classification) : Prop :=
  c.opens = false ∧ c.closes = true ∧ c.keyword ≠ some .endCase

end Classification

/-- A line with code, and its classification. -/
structure CodeLine (d : Dialect) (line : Text) (c : Classification) : Prop where
  feed : '\n' ∉ line
  code : isBlankText line = false
  classified : classify d line = .ok c

/-! ### Block programs -/

mutual

/-- A program whose lines lie at depth `k` and deeper, with the depth of each line that is not blank. -/
inductive BlockProgram (d : Dialect) : Nat → List Text → List (Option Nat) → Prop
  | nil (k : Nat) : BlockProgram d k [] []
  | blank {k : Nat} {line : Text} {later : List Text} {ds : List (Option Nat)} (hfeed : '\n' ∉ line)
      (hline : isBlankText line = true) (hlater : BlockProgram d k later ds) :
      BlockProgram d k (line :: later) (none :: ds)
  | plain {k : Nat} {line : Text} {c : Classification} {later : List Text} {ds : List (Option Nat)}
      (hline : CodeLine d line c) (hc : c.Plain) (hlater : BlockProgram d k later ds) :
      BlockProgram d k (line :: later) (some k :: ds)
  | block {k : Nat} {line : Text} {c : Classification} {body arms later : List Text}
      {bs as ds : List (Option Nat)} (hline : CodeLine d line c) (hc : c.Opener)
      (hbody : BlockProgram d (k + 1) body bs) (harms : BlockArms d k arms as)
      (hlater : BlockProgram d k later ds) :
      BlockProgram d k (line :: (body ++ (arms ++ later))) (some k :: (bs ++ (as ++ ds)))
  | group {k : Nat} {line : Text} {c : Classification} {body branches later : List Text}
      {bs as ds : List (Option Nat)} (hline : CodeLine d line c) (hc : c.keyword = some .beginCase)
      (hbody : BlockProgram d (k + 1) body bs) (hbranches : GroupBranches d k branches as)
      (hlater : BlockProgram d k later ds) :
      BlockProgram d k (line :: (body ++ (branches ++ later))) (some k :: (bs ++ (as ++ ds)))

/-- What follows the first body of a block at depth `k`: dividers with their bodies, and the closer. -/
inductive BlockArms (d : Dialect) : Nat → List Text → List (Option Nat) → Prop
  | closer {k : Nat} {line : Text} {c : Classification} (hline : CodeLine d line c) (hc : c.Closer) :
      BlockArms d k [line] [some k]
  | divider {k : Nat} {line : Text} {c : Classification} {body arms : List Text} {bs as : List (Option Nat)}
      (hline : CodeLine d line c) (hc : c.Divider) (hbody : BlockProgram d (k + 1) body bs)
      (harms : BlockArms d k arms as) : BlockArms d k (line :: (body ++ arms)) (some k :: (bs ++ as))

/-- What follows the first body of a group at depth `k`: each `CASE` with its body, one deeper if the
`CASE` opens a branch, and the `END CASE`. -/
inductive GroupBranches (d : Dialect) : Nat → List Text → List (Option Nat) → Prop
  | endCase {k : Nat} {line : Text} {c : Classification} (hline : CodeLine d line c)
      (hc : c.keyword = some .endCase) : GroupBranches d k [line] [some k]
  | branch {k : Nat} {line : Text} {c : Classification} {body branches : List Text}
      {bs as : List (Option Nat)} (hline : CodeLine d line c) (hc : c.keyword = some .caseBranch)
      (hbody : BlockProgram d (k + 1 + c.opens.toNat) body bs) (hbranches : GroupBranches d k branches as) :
      GroupBranches d k (line :: (body ++ branches)) (some (k + 1) :: (bs ++ as))

end

/-- The levels of a program that begins at a level. -/
def levelsAt (base : Int) (ds : List (Option Nat)) : List (Option Int) :=
  ds.map (Option.map fun k : Nat => base + k)

theorem levelsAt_some (base : Int) (k : Nat) (ds : List (Option Nat)) :
    levelsAt base (some k :: ds) = some (base + k) :: levelsAt base ds := rfl

theorem levelsAt_append (base : Int) (as bs : List (Option Nat)) :
    levelsAt base (as ++ bs) = levelsAt base as ++ levelsAt base bs :=
  List.map_append

theorem zipWith_place_levelsAt (s : Style) (lines : List Text) (base : Int) (ds : List (Option Nat)) :
    List.zipWith (place s) lines (levelsAt base ds) =
      List.zipWith (fun line depth? => depth?.elim [] fun k => renderLine s (base + k) line) lines ds := by
  rw [levelsAt, List.zipWith_map_right, place_eq]
  simp only [Option.elim_map, Function.comp_def]

/-! ### Walking through a line -/

variable {d : Dialect} {n : Nat} {c : Classification} {line : Text} {level : Int} {groups : List Bool}
  {later : List Text} {ls : List (Option Int)} {t : Nesting}

/-- The walk through a line that is no part of a group, out to the level of the line and in again. -/
theorem walk_other {outer inner : Int} (hreturn : d.returnCloses = false) (hline : CodeLine d line c)
    (hbegin : c.keyword ≠ some .beginCase) (hcase : c.keyword ≠ some .caseBranch)
    (hend : c.keyword ≠ some .endCase) (hlevel : 0 ≤ level) (houter : outer = level + c.closes.toNat)
    (hinner : inner = level + c.opens.toNat) (hlater : walk d (n + 1) ⟨inner, groups⟩ later = .ok (ls, t)) :
    walk d n ⟨outer, groups⟩ (line :: later) = .ok (some level :: ls, t) := by
  subst houter hinner
  have henter := Nesting.enter_other (classify_regular hreturn hline.classified) hbegin hcase hend
    ⟨level + c.closes.toNat, groups⟩
  simp only [Int.add_sub_cancel] at henter
  refine walk_visit hline.code hline.classified (Nesting.visit_of_enter henter hlevel) ?_
  rwa [Nesting.leave_eq]

theorem walk_beginCase {inner : Int} (hreturn : d.returnCloses = false) (hline : CodeLine d line c)
    (hk : c.keyword = some .beginCase) (hlevel : 0 ≤ level) (hinner : inner = level + 1)
    (hlater : walk d (n + 1) ⟨inner, false :: groups⟩ later = .ok (ls, t)) :
    walk d n ⟨level, groups⟩ (line :: later) = .ok (some level :: ls, t) := by
  subst hinner
  have hc := classify_regular hreturn hline.classified
  refine walk_visit hline.code hline.classified
    (Nesting.visit_of_enter (Nesting.enter_beginCase hc hk ⟨level, groups⟩) hlevel) ?_
  rw [Nesting.leave_eq, (hc.begins hk).1]
  exact hlater

theorem walk_caseBranch {outer inner : Int} {b : Bool} (hreturn : d.returnCloses = false)
    (hline : CodeLine d line c) (hk : c.keyword = some .caseBranch) (hlevel : 0 ≤ level)
    (houter : outer = level + b.toNat) (hinner : inner = level + c.opens.toNat)
    (hlater : walk d (n + 1) ⟨inner, c.opens :: groups⟩ later = .ok (ls, t)) :
    walk d n ⟨outer, b :: groups⟩ (line :: later) = .ok (some level :: ls, t) := by
  subst houter hinner
  have henter :=
    Nesting.enter_caseBranch (classify_regular hreturn hline.classified) hk (level + b.toNat) b groups
  rw [Int.add_sub_cancel] at henter
  refine walk_visit hline.code hline.classified (Nesting.visit_of_enter henter hlevel) ?_
  rwa [Nesting.leave_eq]

theorem walk_endCase {outer : Int} {b : Bool} (hreturn : d.returnCloses = false) (hline : CodeLine d line c)
    (hk : c.keyword = some .endCase) (hlevel : 0 ≤ level) (houter : outer = level + 1 + b.toNat)
    (hlater : walk d (n + 1) ⟨level, groups⟩ later = .ok (ls, t)) :
    walk d n ⟨outer, b :: groups⟩ (line :: later) = .ok (some level :: ls, t) := by
  have hc := classify_regular hreturn hline.classified
  have henter := Nesting.enter_endCase hc hk outer b groups
  rw [show outer - 1 - (b.toNat : Int) = level by omega] at henter
  refine walk_visit hline.code hline.classified (Nesting.visit_of_enter henter hlevel) ?_
  rw [Nesting.leave_eq, (hc.ends hk).1]
  simpa using hlater

/-! ### Walking through a program -/

mutual

theorem BlockProgram.walk_eq {base : Int} {k : Nat} {lines : List Text} {ds : List (Option Nat)}
    (hreturn : d.returnCloses = false) (hbase : 0 ≤ base) (n : Nat) (groups : List Bool) :
    BlockProgram d k lines ds →
      walk d n ⟨base + k, groups⟩ lines = .ok (levelsAt base ds, ⟨base + k, groups⟩)
  | .nil _ => rfl
  | .blank _ hline hlater => walk_blank hline (hlater.walk_eq hreturn hbase (n + 1) groups)
  | .plain hline ⟨hopens, hcloses, hcase⟩ hlater => by
    have hc := classify_regular hreturn hline.classified
    rw [levelsAt_some]
    exact walk_other hreturn hline (hc.not_beginCase (Or.inl hopens)) hcase (hc.not_endCase (Or.inr hcloses))
      (by omega) (by simp [hcloses]) (by simp [hopens]) (hlater.walk_eq hreturn hbase (n + 1) groups)
  | .block hline ⟨hopens, hcloses, hcase, hbegin⟩ hbody harms hlater => by
    have hc := classify_regular hreturn hline.classified
    have hwalk := walk_append (hbody.walk_eq hreturn hbase (n + 1) groups)
      (walk_append (harms.walk_eq hreturn hbase _ groups) (hlater.walk_eq hreturn hbase _ groups))
    rw [levelsAt_some, levelsAt_append, levelsAt_append]
    exact walk_other hreturn hline hbegin hcase (hc.not_endCase (Or.inl hopens))
      (by omega) (by simp [hcloses]) (by simp [hopens]; omega) hwalk
  | .group hline hk hbody hbranches hlater => by
    have hwalk := walk_append (hbody.walk_eq hreturn hbase (n + 1) (false :: groups))
      (walk_append (hbranches.walk_eq hreturn hbase _ false groups) (hlater.walk_eq hreturn hbase _ groups))
    rw [levelsAt_some, levelsAt_append, levelsAt_append]
    exact walk_beginCase hreturn hline hk (by omega) (by simp; omega) hwalk

theorem BlockArms.walk_eq {base : Int} {k : Nat} {lines : List Text} {ds : List (Option Nat)}
    (hreturn : d.returnCloses = false) (hbase : 0 ≤ base) (n : Nat) (groups : List Bool) :
    BlockArms d k lines ds →
      walk d n ⟨base + (k + 1 : Nat), groups⟩ lines = .ok (levelsAt base ds, ⟨base + k, groups⟩)
  | .closer hline ⟨hopens, hcloses, hend⟩ => by
    have hc := classify_regular hreturn hline.classified
    rw [levelsAt_some]
    exact walk_other hreturn hline (hc.not_beginCase (Or.inr hcloses)) (hc.not_caseBranch hcloses) hend
      (by omega) (by simp [hcloses]; omega) (by simp [hopens]) rfl
  | .divider hline ⟨hopens, hcloses⟩ hbody harms => by
    have hc := classify_regular hreturn hline.classified
    have hwalk := walk_append (hbody.walk_eq hreturn hbase (n + 1) groups)
      (harms.walk_eq hreturn hbase _ groups)
    rw [levelsAt_some, levelsAt_append]
    exact walk_other hreturn hline (hc.not_beginCase (Or.inr hcloses)) (hc.not_caseBranch hcloses)
      (hc.not_endCase (Or.inl hopens)) (by omega) (by simp [hcloses]; omega) (by simp [hopens]; omega) hwalk

theorem GroupBranches.walk_eq {base : Int} {k : Nat} {lines : List Text} {ds : List (Option Nat)}
    (hreturn : d.returnCloses = false) (hbase : 0 ≤ base) (n : Nat) (b : Bool) (groups : List Bool) :
    GroupBranches d k lines ds →
      walk d n ⟨base + (k + 1 + b.toNat : Nat), b :: groups⟩ lines =
        .ok (levelsAt base ds, ⟨base + k, groups⟩)
  | .endCase hline hk => by
    rw [levelsAt_some]
    exact walk_endCase hreturn hline hk (by omega) (by simp; omega) rfl
  | .branch hline hk hbody hbranches => by
    have hwalk := walk_append (hbody.walk_eq hreturn hbase (n + 1) (_ :: groups))
      (hbranches.walk_eq hreturn hbase _ _ groups)
    rw [levelsAt_some, levelsAt_append]
    exact walk_caseBranch hreturn hline hk (by omega) (by simp; omega) (by simp; omega) hwalk

end

/-- A block program leads back outermost, and so its last line is laid out like any other. -/
theorem BlockProgram.levels_eq (hreturn : d.returnCloses = false) {lines : List Text} {ds : List (Option Nat)}
    (h : BlockProgram d 0 lines ds) : levels d lines = .ok (levelsAt 0 ds) :=
  levelsFrom_of_walk hreturn (h.walk_eq hreturn (Int.le_refl 0) 1 []) rfl

theorem BlockProgram.forall₂ (hreturn : d.returnCloses = false) {lines : List Text} {ds : List (Option Nat)}
    (h : BlockProgram d 0 lines ds) : List.Forall₂ (fun line k => isBlankText line = k.isNone) lines ds := by
  have hlevels := levelsFrom_forall₂ (h.levels_eq hreturn)
  rw [levelsAt, List.forall₂_map_right_iff] at hlevels
  simpa using hlevels

/-- **A block program is laid out by its structure.**  Wherever it begins, every line that is not blank is
written at that level and its depth, and the nesting is in the end what it was, so that the code behind goes
on from there.  As a program of its own it is laid out likewise, although the `END` that ends a program has a
rule of its own. -/
theorem formatPart_blockProgram {o : Options} (hreturn : o.returnCloses = false) {lines : List Text}
    {ds : List (Option Nat)} (h : BlockProgram o.toDialect 0 lines ds) :
    List.Forall₂ (fun line k => isBlankText line = k.isNone) lines ds ∧
    (∀ (n : Nat) (level : Int) (groups : List Bool), 0 ≤ level →
      formatPart o n ⟨level, groups⟩ lines =
        .ok (List.zipWith (fun line depth? => depth?.elim [] fun k => renderLine o.toStyle (level + k) line) lines ds,
          ⟨level, groups⟩) ∧
      ∀ later : List Text, later.all isBlankText = false →
        levelsFrom o.toDialect n ⟨level, groups⟩ (lines ++ later) =
          (levelsFrom o.toDialect (n + lines.length) ⟨level, groups⟩ later).map (levelsAt level ds ++ ·)) ∧
    formatLines o lines =
      .ok (List.zipWith (fun line depth? => depth?.elim [] fun k => renderLine o.toStyle k line) lines ds) := by
  refine ⟨h.forall₂ hreturn, fun n level groups hlevel => ?_, ?_⟩
  · have hwalk := h.walk_eq hreturn hlevel n groups
    simp only [Int.natCast_zero, Int.add_zero] at hwalk
    refine ⟨?_, fun later hlater => levelsFrom_append hwalk hlater⟩
    rw [formatPart, hwalk, ← zipWith_place_levelsAt]
    rfl
  · refine formatLines_eq_ok_iff.mpr ⟨_, h.levels_eq hreturn, ?_⟩
    rw [zipWith_place_levelsAt]
    simp only [Int.zero_add]

theorem formatPart_blockProgram_return :
    let lines := ["IF A THEN".toList, "BEGIN CASE".toList, "CASE B".toList, "RETURN".toList,
      "END CASE".toList, "END".toList]
    let ds := [some 0, some 1, some 2, some 3, some 1, some 0]
    BlockProgram {} 0 lines ds ∧ (0 : Int) ≤ 4 ∧
      formatPart {} 7 ⟨4, [true]⟩ lines =
        .ok (List.zipWith (fun line depth? => depth?.elim [] fun k => renderLine {} (4 + k) line) lines ds,
          ⟨4, [true]⟩) ∧
      levelsFrom {} 7 ⟨4, [true]⟩ (lines ++ ["END".toList]) =
        (levelsFrom {} 13 ⟨4, [true]⟩ ["END".toList]).map (levelsAt 4 ds ++ ·) ∧
      formatLines {} lines =
        .ok (List.zipWith (fun line depth? => depth?.elim [] fun k => renderLine {} k line) lines ds) := by
  intro lines ds
  have hif : CodeLine {} "IF A THEN".toList ⟨some (.clause .ifTest), true, false, "IF A THEN".toList, false⟩ :=
    ⟨by decide, by decide, by decide +kernel⟩
  have hbegin : CodeLine {} "BEGIN CASE".toList ⟨some .beginCase, true, false, "BEGIN CASE".toList, false⟩ :=
    ⟨by decide, by decide, by decide +kernel⟩
  have hcase : CodeLine {} "CASE B".toList ⟨some .caseBranch, true, false, "CASE B".toList, false⟩ :=
    ⟨by decide, by decide, by decide +kernel⟩
  have hreturn : CodeLine {} "RETURN".toList ⟨some .returnJump, false, false, "RETURN".toList, false⟩ :=
    ⟨by decide, by decide, by decide +kernel⟩
  have hendCase : CodeLine {} "END CASE".toList ⟨some .endCase, false, true, "END CASE".toList, false⟩ :=
    ⟨by decide, by decide, by decide +kernel⟩
  have hend : CodeLine {} "END".toList ⟨some .blockEnd, false, true, "END".toList, false⟩ :=
    ⟨by decide, by decide, by decide +kernel⟩
  have hbranches : GroupBranches {} 1 ["CASE B".toList, "RETURN".toList, "END CASE".toList]
      [some 2, some 3, some 1] :=
    .branch hcase rfl (.plain hreturn ⟨rfl, rfl, by decide⟩ (.nil 3)) (.endCase hendCase rfl)
  have h : BlockProgram {} 0 lines ds :=
    .block hif ⟨rfl, rfl, by decide, by decide⟩ (.group hbegin rfl (.nil 2) hbranches (.nil 1))
      (.closer hend ⟨rfl, rfl, by decide⟩) (.nil 0)
  obtain ⟨-, hpart, hlines⟩ := formatPart_blockProgram (o := {}) rfl h
  obtain ⟨hformat, hlater⟩ := hpart 7 4 [true] (by decide)
  exact ⟨h, by decide, hformat, hlater ["END".toList] (by decide), hlines⟩

end PickIndent
