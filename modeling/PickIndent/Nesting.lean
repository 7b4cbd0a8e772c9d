import PickIndent.Classification

/-!
# Nesting — how deep a line lies

The depth is a level and, for every `BEGIN CASE` that is open, whether a branch is open inside it.
A line is entered in three moves: it may close a block, it may begin, end or branch a group of
cases, and once it has been placed it may open a block. `END CASE` closes the open branch together
with its group, and the next `CASE` closes the branch before it.
-/

namespace PickIndent

structure Nesting where
  level : Int
  /-- The open groups of cases, the innermost first: whether a branch is open in each. -/
  groups : List Bool
  deriving DecidableEq, Repr

/-- Why a line has no place in a program. -/
inductive Fault where
  /-- It closes more blocks than are open. -/
  | belowZero
  /-- It belongs to a group of cases, and none is open. -/
  | outsideCase (k : Keyword)
  deriving DecidableEq, Repr

/-- What a line does to the depth: it closes a block, opens one, both, or neither. -/
structure Step where
  closes : Bool
  opens : Bool
  deriving DecidableEq, Repr

namespace Nesting

def outermost : Nesting := ⟨0, []⟩

def inBranch (s : Nesting) : Bool := s.groups.head? == some true

/-- The step of a line. In a branch a `CASE` closes, and a `RETURN` does not. -/
def step (c : Classification) (s : Nesting) : Step :=
  let closes :=
    match s.inBranch, c.keyword with
    | true, some .caseBranch => true
    | true, some .returnJump => false
    | _, _ => c.closes
  ⟨closes, c.opens⟩

/-- Closes a block, and with `END CASE` the open branch as well. -/
def close (c : Classification) (s : Nesting) : Nesting :=
  if c.keyword = some .endCase ∧ s.inBranch then { s with level := s.level - 2 }
  else { s with level := s.level - 1 }

def openBlock (s : Nesting) : Nesting := { s with level := s.level + 1 }

/-- Keeps account of the groups of cases. -/
def trackCase (c : Classification) (s : Nesting) : Except Fault Nesting :=
  match c.keyword, s.groups with
  | some .beginCase, gs => .ok { s with groups := false :: gs }
  | some .caseBranch, _ :: gs => .ok { s with groups := c.opens :: gs }
  | some .caseBranch, [] => .error (.outsideCase .caseBranch)
  | some .endCase, _ :: gs => .ok { s with groups := gs }
  | some .endCase, [] => .error (.outsideCase .endCase)
  | _, _ => .ok s

/-- The nesting at which a line stands, before it opens anything. -/
def enter (c : Classification) (s : Nesting) : Except Fault Nesting :=
  (if (s.step c).closes then s.close c else s).trackCase c

/-- The nesting after a line that stands at `s`. -/
def leave (c : Classification) (s : Nesting) : Nesting := if c.opens then s.openBlock else s

/-- Two lines may stand outermost whatever the depth: a `RETURN` that would lie deeper below, and the
`END` that ends the program. -/
def settle (c : Classification) (final : Bool) (s : Nesting) : Nesting :=
  if (c.keyword = some .returnJump ∧ s.level < 0) ∨ (c.keyword = some .blockEnd ∧ final) then
    { s with level := 0 }
  else s

/-- The level of a line and the nesting after it. The line is `final` if only blank lines follow. -/
def visit (c : Classification) (final : Bool) (s : Nesting) : Except Fault (Int × Nesting) :=
  match s.enter c with
  | .error e => .error e
  | .ok entered =>
    let placed := entered.settle c final
    if placed.level < 0 then .error .belowZero else .ok (placed.level, placed.leave c)

end Nesting

end PickIndent
