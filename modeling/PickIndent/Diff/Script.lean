/-!
# Scripts — how one list of lines becomes another

A script lists lines in order and says of each whether it is common to both lists, removed from the
old one or added by the new one. It is found around the longest stretch that both lists share: the
first such stretch in the old list, and there the first in the new one. What lies before the stretch
and what lies behind it is treated in the same way.

In a long list some lines are so frequent that they say nothing about which parts belong together.
The longest stretch is looked for without them, and extended over them afterwards.
-/

namespace PickIndent.Diff

inductive Entry (α : Type) where
  | common (a : α)
  | removed (a : α)
  | added (a : α)
  deriving DecidableEq, Repr

namespace Entry

variable {α : Type}

def isChange : Entry α → Bool
  | common _ => false
  | _ => true

def old? : Entry α → Option α
  | common a | removed a => some a
  | added _ => none

def new? : Entry α → Option α
  | common a | added a => some a
  | removed _ => none

end Entry

variable {α : Type}

/-- The lines before the change. -/
def oldLines (es : List (Entry α)) : List α := es.filterMap Entry.old?

/-- The lines after the change. -/
def newLines (es : List (Entry α)) : List α := es.filterMap Entry.new?

variable [DecidableEq α]

/-! ### The longest shared stretch -/

/-- A stretch of equal lines, given by the places just behind it. -/
structure Stretch where
  oldEnd : Nat
  newEnd : Nat
  size : Nat
  deriving DecidableEq, Repr

/-- For each line of `bs`, the size of the stretch that ends with it and with the line `a`, where
`above` holds those sizes for the line before `a`. -/
def stretchSizes (usable : α → Bool) (bs : List α) (a : α) (above : List Nat) : List Nat :=
  let counts := usable a
  List.zipWith (fun b n => if counts ∧ a = b then n + 1 else 0) bs (0 :: above)

/-- The longer one of a stretch and the first longest stretch that ends in row `i`. -/
def longestInRow (i : Nat) : Nat → List Nat → Stretch → Stretch
  | _, [], best => best
  | j, n :: ns, best =>
    longestInRow i (j + 1) ns (if best.size < n then ⟨i + 1, j + 1, n⟩ else best)

/-- The longer one of a stretch and the first longest stretch that ends in row `i` or later. -/
def longestFrom (usable : α → Bool) (bs : List α) : Nat → List Nat → List α → Stretch → Stretch
  | _, _, [], best => best
  | i, above, a :: as, best =>
    let row := stretchSizes usable bs a above
    longestFrom usable bs (i + 1) row as (longestInRow i 0 row best)

def longestStretch (usable : α → Bool) (as bs : List α) : Stretch :=
  longestFrom usable bs 0 (bs.map fun _ => 0) as ⟨0, 0, 0⟩

/-! ### Cutting around a stretch -/

/-- The lines that two lists have in common at their beginning. -/
def commonFront : List α → List α → List α
  | a :: as, b :: bs => if a = b then a :: commonFront as bs else []
  | _, _ => []

theorem commonFront_append_drop (as bs : List α) :
    commonFront as bs ++ as.drop (commonFront as bs).length = as := by
  fun_induction commonFront as bs with
  | case1 a as bs ih => simpa using ih
  | case2 => simp
  | case3 => simp

theorem commonFront_append_drop_right (as bs : List α) :
    commonFront as bs ++ bs.drop (commonFront as bs).length = bs := by
  fun_induction commonFront as bs with
  | case1 a as bs ih => simpa using ih
  | case2 => simp
  | case3 => simp

/-- Two lists cut around a stretch that they share. -/
structure Cut (α : Type) where
  oldBefore : List α
  newBefore : List α
  shared : List α
  oldAfter : List α
  newAfter : List α

/-- Cuts both lists around the stretch through the lines numbered `i` and `j`, which begins where the
lines before these begin to agree. -/
def cutAt (as bs : List α) (i j : Nat) : Cut α :=
  let back := (commonFront (as.take i).reverse (bs.take j).reverse).length
  let old := as.drop (i - back)
  let new := bs.drop (j - back)
  let shared := commonFront old new
  { oldBefore := as.take (i - back), newBefore := bs.take (j - back), shared
    oldAfter := old.drop shared.length, newAfter := new.drop shared.length }

/-- Cuts both lists around their longest shared stretch. -/
def cut (usable : α → Bool) (as bs : List α) : Cut α :=
  let s := longestStretch usable as bs
  cutAt as bs (s.oldEnd - s.size) (s.newEnd - s.size)

theorem cut_old (usable : α → Bool) (as bs : List α) :
    (cut usable as bs).oldBefore ++ ((cut usable as bs).shared ++ (cut usable as bs).oldAfter) = as := by
  simp only [cut, cutAt, commonFront_append_drop, List.take_append_drop]

theorem cut_new (usable : α → Bool) (as bs : List α) :
    (cut usable as bs).newBefore ++ ((cut usable as bs).shared ++ (cut usable as bs).newAfter) = bs := by
  simp only [cut, cutAt, commonFront_append_drop_right, List.take_append_drop]

theorem length_cut_old (usable : α → Bool) (as bs : List α) :
    (cut usable as bs).oldBefore.length + (cut usable as bs).shared.length +
      (cut usable as bs).oldAfter.length = as.length := by
  have h := congrArg List.length (cut_old usable as bs)
  simpa [Nat.add_assoc] using h

/-! ### Scripts -/

/-- A script that turns `as` into `bs`. Of a part without a shared line, the old lines come first. -/
def script (usable : α → Bool) (as bs : List α) : List (Entry α) :=
  if _h : (cut usable as bs).shared = [] then as.map .removed ++ bs.map .added
  else
    script usable (cut usable as bs).oldBefore (cut usable as bs).newBefore ++
      ((cut usable as bs).shared.map .common ++
        script usable (cut usable as bs).oldAfter (cut usable as bs).newAfter)
termination_by as.length
decreasing_by
  all_goals
    have h := length_cut_old usable as bs
    have hs := List.length_pos_iff.2 _h
    omega

/-- Whether a line is frequent: it makes up more than a hundredth of a list of at least two hundred
lines. -/
def isFrequent (bs : List α) (a : α) : Bool :=
  200 ≤ bs.length && bs.length / 100 + 1 < bs.count a

/-- The script from `as` to `bs` found without regard to frequent lines. -/
def compareLines (as bs : List α) : List (Entry α) := script (!isFrequent bs ·) as bs

end PickIndent.Diff
