import PickIndent.FileTree

/-!
# Putting a file — one place changes

Putting a file at a place changes what is there and nothing else (`FileTree.Puts`), and putting there what is there
already changes nothing at all (`put_of_file?`).
-/

namespace PickIndent.FileTree

variable {t : FileTree} {place : Place} {bytes : Bytes}

theorem find?_putFile_self (place : Place) (bytes : Bytes) (fs : List (Place × Bytes)) :
    (putFile place bytes fs).find? (·.1 == place) = some (place, bytes) := by
  induction fs with
  | nil => simp [putFile]
  | cons f fs ih =>
    rw [putFile]
    split
    · simp
    next hne => rw [List.find?_cons_of_neg (by simpa using hne), ih]

theorem find?_putFile_of_ne {p : Place} (hp : p ≠ place) (bytes : Bytes) (fs : List (Place × Bytes)) :
    (putFile place bytes fs).find? (·.1 == p) = fs.find? (·.1 == p) := by
  induction fs with
  | nil => simp [putFile, hp.symm]
  | cons f fs ih =>
    rw [putFile]
    split
    next heq =>
      rw [List.find?_cons_of_neg (by simpa using hp.symm), List.find?_cons_of_neg (by simpa [heq] using hp.symm)]
    next => rw [List.find?_cons, List.find?_cons, ih]

theorem putFile_putFile (place : Place) (a b : Bytes) (fs : List (Place × Bytes)) :
    putFile place b (putFile place a fs) = putFile place b fs := by
  induction fs with
  | nil => simp [putFile]
  | cons f fs ih =>
    by_cases heq : f.1 = place
    · simp [putFile, heq]
    · rw [putFile, if_neg heq, putFile, if_neg heq, putFile, if_neg heq, ih]

theorem putFile_of_find? {fs : List (Place × Bytes)} (h : (fs.find? (·.1 == place)).map Prod.snd = some bytes) :
    putFile place bytes fs = fs := by
  induction fs with
  | nil => simp at h
  | cons f fs ih =>
    rw [putFile]
    split
    next heq =>
      rw [List.find?_cons_of_pos (by simpa using heq)] at h
      obtain rfl := Option.some.inj h
      rw [← heq]
    next hne =>
      rw [List.find?_cons_of_neg (by simpa using hne)] at h
      rw [ih h]

/-- Only the last bytes put at a place count. -/
@[simp] theorem put_put (t : FileTree) (place : Place) (a b : Bytes) :
    (t.put place a).put place b = t.put place b := by
  simp only [put, putFile_putFile]

theorem put_of_file? (h : t.file? place = some bytes) : t.put place bytes = t := by
  rw [put, putFile_of_find? h]

/-- The tree `after` is `before` with these bytes at the place and everything else as it was. -/
structure Puts (before after : FileTree) (place : Place) (bytes : Bytes) : Prop where
  written : after.file? place = some bytes
  others : ∀ p, p ≠ place → after.file? p = before.file? p
  dirs : after.dirs = before.dirs
  cwd : after.cwd = before.cwd

theorem puts_put (t : FileTree) (place : Place) (bytes : Bytes) : t.Puts (t.put place bytes) place bytes where
  written := by rw [file?, put, find?_putFile_self]; rfl
  others p hp := by rw [file?, put, find?_putFile_of_ne hp, file?]
  dirs := rfl
  cwd := rfl

end PickIndent.FileTree
