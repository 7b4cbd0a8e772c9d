import PickIndent.Proofs.FileTree.Put
import PickIndent.Proofs.Text.Pieces

/-!
# Paths of files — where a path leads in reading and in writing

A relative path leads where the path through the working directory leads (`followAll_absolute`).  Reading follows all
names of a path, and writing all but the last (`read_eq_ok_iff`, `target_eq_ok_iff`).  So a path that can be read and
can be written leads to the same place either way (`file?_of_target`), and in a tree that keeps files and directories
apart whatever can be read can be written (`exists_target_of_read`).  A file that has been put where a path leads is
found by that path (`read_put`).
-/

namespace PickIndent.FileTree

variable {t : FileTree} {path : String} {name : Text} {names : List Text} {start parent place p : Place}
  {bytes out : Bytes}

/-- No place holds both a file and a directory. -/
def Apart (t : FileTree) : Prop := ∀ place, t.isDir place = true → t.file? place = none

theorem isDir_above (h : t.isDir place = true) (hp : p <+: place) : t.isDir p = true := by
  simp only [isDir, List.any_eq_true, List.isPrefixOf_iff_prefix] at h ⊢
  obtain ⟨dir, hdir, hplace⟩ := h
  exact ⟨dir, hdir, hp.trans hplace⟩

theorem isDir_cwd (t : FileTree) : t.isDir t.cwd = true := by simp [isDir, List.isPrefixOf_iff_prefix]

/-! ### Following names -/

/-- A name that the system allows and that neither stays nor climbs. -/
structure Proper (name : Text) : Prop where
  ne_nil : name ≠ []
  ne_point : name ≠ ['.']
  ne_points : name ≠ ['.', '.']
  short : ¬maxName < (String.ofList name).utf8ByteSize

/-- A name leads from a directory to itself, to the one above it, or to what it holds under this name. -/
theorem follow_eq_ok_iff :
    t.follow name parent = .ok p ↔
      t.isDir parent = true ∧
        ((name = [] ∨ name = ['.']) ∧ p = parent ∨ name = ['.', '.'] ∧ p = parent.dropLast ∨
          Proper name ∧ p = parent ++ [name] ∧ (t.isDir p = true ∨ (t.file? p).isSome = true)) := by
  unfold follow
  cases hdir : t.isDir parent with
  | false => simp
  | true =>
  by_cases hstay : name = [] ∨ name = ['.']
  · have hpoints : name ≠ ['.', '.'] := by rcases hstay with rfl | rfl <;> decide
    have hproper : ¬Proper name := fun h => hstay.elim h.ne_nil h.ne_point
    simp [hstay, hpoints, hproper, @eq_comm _ p]
  by_cases hclimb : name = ['.', '.']
  · have hproper : ¬Proper name := fun h => h.ne_points hclimb
    subst hclimb
    simp [hproper, @eq_comm _ p]
  by_cases hlong : maxName < (String.ofList name).utf8ByteSize
  · have hproper : ¬Proper name := fun h => h.short hlong
    simp [hstay, hclimb, hlong, hproper]
  have hproper : Proper name := ⟨fun h => hstay (.inl h), fun h => hstay (.inr h), hclimb, hlong⟩
  simp only [hstay, hclimb, hlong, hproper, if_false, false_and, true_and, false_or, Bool.not_true,
    Bool.false_eq_true]
  constructor
  · intro h
    split at h
    next hheld =>
      obtain rfl := Except.ok.inj h
      exact ⟨rfl, hheld⟩
    next => simp at h
  · rintro ⟨rfl, hheld⟩
    rw [if_pos hheld]

theorem follow_proper (hname : Proper name) (h : t.follow name parent = .ok p) :
    p = parent ++ [name] ∧ (t.isDir p = true ∨ (t.file? p).isSome = true) := by
  obtain ⟨-, hstay | hclimb | hheld⟩ := follow_eq_ok_iff.mp h
  · exact absurd hstay.1 (by simp [hname.ne_nil, hname.ne_point])
  · exact absurd hclimb.1 hname.ne_points
  · exact hheld.2

theorem followAll_concat_eq_ok_iff :
    t.followAll (names ++ [name]) start = .ok p ↔
      ∃ parent, t.followAll names start = .ok parent ∧ t.follow name parent = .ok p := by
  induction names generalizing start with
  | nil =>
    simp only [List.nil_append, followAll]
    cases hlast : t.follow name start <;> simp [hlast]
  | cons first names ih =>
    simp only [List.cons_append, followAll]
    cases t.follow first start with
    | error e => simp
    | ok q => exact ih

/-- The names of a directory lead to it, from the top as from any directory above it. -/
theorem followAll_of_isDir (hdir : t.isDir (start ++ place) = true) (hproper : ∀ name ∈ place, Proper name) :
    t.followAll (place ++ names) start = t.followAll names (start ++ place) := by
  induction place generalizing start with
  | nil => rw [List.nil_append, List.append_nil]
  | cons name place ih =>
    have hassoc : start ++ name :: place = start ++ [name] ++ place := by simp
    rw [hassoc] at hdir ⊢
    have hnext : t.isDir (start ++ [name]) = true := isDir_above hdir (List.prefix_append _ _)
    have hstart : t.isDir start = true := isDir_above hnext (List.prefix_append _ _)
    have hfirst : t.follow name start = .ok (start ++ [name]) :=
      follow_eq_ok_iff.mpr ⟨hstart, .inr (.inr ⟨hproper name (by simp), rfl, .inl hnext⟩)⟩
    rw [List.cons_append, followAll, hfirst]
    exact ih hdir fun n hn => hproper n (List.mem_cons_of_mem name hn)

/-- **A relative path is short for one through the working directory.** -/
theorem followAll_absolute {relative : Text} (hcwd : ∀ name ∈ t.cwd, Proper name ∧ '/' ∉ name)
    (hrelative : relative.head? ≠ some '/') :
    let absolute := '/' :: ['/'].intercalate (t.cwd ++ [relative])
    t.followAll (absolute.splitOn '/') (t.startOf absolute) =
      t.followAll (relative.splitOn '/') (t.startOf relative) := by
  intro absolute
  have hnames : absolute.splitOn '/' = [] :: (t.cwd ++ relative.splitOn '/') := by
    rw [List.splitOn_cons_eq_if_modifyHead, if_pos (by simp),
      splitOn_intercalate_concat (fun name hname => (hcwd name hname).2)]
  have htop : t.isDir [] = true := isDir_above t.isDir_cwd t.cwd.nil_prefix
  have hfirst : t.follow [] [] = .ok [] := follow_eq_ok_iff.mpr ⟨htop, .inl ⟨.inl rfl, rfl⟩⟩
  have hstart : t.startOf absolute = [] := if_pos rfl
  rw [hnames, hstart, followAll, hfirst, startOf, if_neg hrelative]
  exact followAll_of_isDir t.isDir_cwd fun name hname => (hcwd name hname).1

/-! ### Reading and writing -/

theorem read_eq_ok_iff :
    t.read path = .ok bytes ↔
      pathFault? path = none ∧
        ∃ p, t.followAll (path.toList.splitOn '/') (t.startOf path.toList) = .ok p ∧ t.file? p = some bytes := by
  unfold read
  cases pathFault? path with
  | some e => simp
  | none =>
    cases t.followAll (path.toList.splitOn '/') (t.startOf path.toList) with
    | error e => simp
    | ok p => cases hfile : t.file? p <;> simp [hfile]

/-- A file is put under a proper name into the directory that the names before it lead to. -/
theorem target_eq_ok_iff :
    t.target path = .ok place ↔
      pathFault? path = none ∧
        ∃ parents name parent, path.toList.splitOn '/' = parents ++ [name] ∧ Proper name ∧
          t.followAll parents (t.startOf path.toList) = .ok parent ∧ t.isDir parent = true ∧
          place = parent ++ [name] ∧ t.isDir place = false := by
  constructor
  · intro h
    unfold target at h
    -- a check that the path does not pass ends in an error, so that each split leaves one way to go on
    split at h
    · simp at h
    rename_i hfault
    split at h
    · simp at h
    rename_i name parents hnames
    split at h
    · simp at h
    rename_i parent hparent
    split at h
    · simp at h
    rename_i hdir
    split at h
    · simp at h
    rename_i hname
    split at h
    · simp at h
    rename_i hshort
    split at h
    · simp at h
    rename_i hnotDir
    obtain rfl := Except.ok.inj h
    simp only [not_or] at hname
    -- a path that does not end in a slash has a last name, so none was dropped
    have hlast : (path.toList.splitOn '/').getLast? ≠ some [] := by
      intro hlast
      rcases getLast?_splitOn_eq_nil_iff.mp hlast with hnil | hslash
      · simp [pathFault?, hasNull, String.toList_eq_nil_iff.mp hnil] at hfault
      · exact hname.2.2 hslash
    obtain ⟨before, last, hsplit⟩ : ∃ before last, path.toList.splitOn '/' = before ++ [last] :=
      ⟨_, _, (List.dropLast_concat_getLast (List.splitOn_ne_nil '/' path.toList)).symm⟩
    have hne : last ≠ [] := fun hnil => hlast (by rw [hsplit, List.getLast?_concat, hnil])
    rw [hsplit, List.reverse_concat, List.dropWhile_cons_of_neg (by simpa using hne)] at hnames
    obtain ⟨rfl, rfl⟩ := List.cons.inj hnames
    rw [List.reverse_reverse] at hparent
    exact ⟨hfault, before, last, parent, hsplit, ⟨hne, hname.1, hname.2.1, hshort⟩, hparent, by simpa using hdir,
      rfl, by simpa using hnotDir⟩
  · rintro ⟨hfault, parents, name, parent, hnames, hname, hparent, hdir, rfl, hnotDir⟩
    have hslash : path.toList.getLast? ≠ some '/' := by
      intro hslash
      have hempty := getLast?_splitOn_eq_nil_iff.mpr (.inr hslash)
      rw [hnames, List.getLast?_concat] at hempty
      exact hname.ne_nil (Option.some.inj hempty)
    rw [target, hfault, hnames, List.reverse_concat]
    simp [hname.ne_nil, hname.ne_point, hname.ne_points, hname.short, hparent, hdir, hslash, hnotDir]

/-- **A path leads reading and writing to the same place.** -/
theorem file?_of_target (htarget : t.target path = .ok place) (hread : t.read path = .ok bytes) :
    t.file? place = some bytes := by
  obtain ⟨-, parents, name, parent, hnames, hname, hparent, -, rfl, -⟩ := target_eq_ok_iff.mp htarget
  obtain ⟨-, p, hfollow, hfile⟩ := read_eq_ok_iff.mp hread
  rw [hnames, followAll_concat_eq_ok_iff, hparent] at hfollow
  obtain ⟨parent', hsame, hlast⟩ := hfollow
  obtain rfl := Except.ok.inj hsame
  rwa [← (follow_proper hname hlast).1]

/-- **Where a file is read it can be written.** -/
theorem exists_target_of_read (hapart : t.Apart) (h : t.read path = .ok bytes) :
    ∃ place, t.target path = .ok place ∧ t.file? place = some bytes := by
  obtain ⟨hfault, p, hfollow, hfile⟩ := read_eq_ok_iff.mp h
  obtain ⟨parents, name, hnames⟩ : ∃ parents name, path.toList.splitOn '/' = parents ++ [name] :=
    ⟨_, _, (List.dropLast_concat_getLast (List.splitOn_ne_nil '/' path.toList)).symm⟩
  rw [hnames, followAll_concat_eq_ok_iff] at hfollow
  obtain ⟨parent, hparent, hlast⟩ := hfollow
  have hnotDir : t.isDir p ≠ true := fun hisDir => by simp [hapart p hisDir] at hfile
  -- the last name leads to a file, so it neither stays nor climbs
  obtain ⟨hdir, ⟨-, rfl⟩ | ⟨-, rfl⟩ | ⟨hname, rfl, -⟩⟩ := follow_eq_ok_iff.mp hlast
  · exact absurd hdir hnotDir
  · exact absurd (isDir_above hdir (List.dropLast_prefix parent)) hnotDir
  · exact ⟨_, target_eq_ok_iff.mpr ⟨hfault, parents, name, parent, hnames, hname, hparent, hdir, rfl,
      by simpa using hnotDir⟩, hfile⟩

/-! ### New bytes -/

theorem isSome_file?_put (h : (t.file? p).isSome = true) : ((t.put place out).file? p).isSome = true := by
  by_cases hp : p = place
  · rw [hp, (t.puts_put place out).written]
    rfl
  · rwa [(t.puts_put place out).others p hp]

theorem follow_put (h : t.follow name parent = .ok p) : (t.put place out).follow name parent = .ok p := by
  rw [follow_eq_ok_iff] at h ⊢
  obtain ⟨hdir, hstay | hclimb | ⟨hname, hp, hheld⟩⟩ := h
  · exact ⟨hdir, .inl hstay⟩
  · exact ⟨hdir, .inr (.inl hclimb)⟩
  · exact ⟨hdir, .inr (.inr ⟨hname, hp, hheld.imp id isSome_file?_put⟩)⟩

/-- Whatever is put into a tree, the paths through it remain. -/
theorem followAll_put (h : t.followAll names start = .ok p) : (t.put place out).followAll names start = .ok p := by
  induction names generalizing start with
  | nil => exact h
  | cons name names ih =>
    rw [followAll] at h ⊢
    cases hfirst : t.follow name start with
    | error e => simp [hfirst] at h
    | ok q =>
      rw [hfirst] at h
      rw [follow_put hfirst]
      exact ih h

theorem target_put (h : t.target path = .ok place) : (t.put p out).target path = .ok place := by
  rw [target_eq_ok_iff] at h ⊢
  obtain ⟨hfault, parents, name, parent, hnames, hname, hparent, hdirs⟩ := h
  exact ⟨hfault, parents, name, parent, hnames, hname, followAll_put hparent, hdirs⟩

/-- **What is put where a path leads is read there.** -/
theorem read_put (h : t.target path = .ok place) : (t.put place out).read path = .ok out := by
  obtain ⟨hfault, parents, name, parent, hnames, hname, hparent, hdir, rfl, -⟩ := target_eq_ok_iff.mp h
  have hwritten := (t.puts_put (parent ++ [name]) out).written
  refine read_eq_ok_iff.mpr ⟨hfault, _, ?_, hwritten⟩
  rw [hnames, followAll_concat_eq_ok_iff]
  refine ⟨parent, followAll_put hparent, follow_eq_ok_iff.mpr ⟨hdir, .inr (.inr ⟨hname, rfl, .inr ?_⟩)⟩⟩
  rw [hwritten]
  rfl

end PickIndent.FileTree
