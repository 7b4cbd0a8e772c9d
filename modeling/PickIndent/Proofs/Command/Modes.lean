import PickIndent.Proofs.Command.Saving
import PickIndent.Proofs.Command.Switching
import PickIndent.Proofs.Diff.Same
import PickIndent.Proofs.Encoding.RoundTrip
import PickIndent.Proofs.FileTree.Paths
import PickIndent.Proofs.Result

/-!
# Modes — writing, checking and showing the same program

Three command lines that differ in one argument make three requests that differ in the mode (`exists_modes`).  What
is written is read again as the formatted text, which formatting leaves as it is: after a run that has formatted the
source in place, checking finds nothing to change, the diff is empty, and another run changes nothing
(`run_settles`).

Checking compares texts and writing makes bytes, so checking succeeds if and only if writing leaves the bytes as
they are, behind the mark of the encoding (`run_check_iff`).  A mark that was missing is written and not checked.
-/

namespace PickIndent.Command

variable {front back : List String} {r : Request} {files : FileTree} {place : Place} {e : Encoding}
  {bytes out : Bytes} {content text : Text}

/-! ### Three command lines -/

/-- Arguments around one that selects the mode, and the request that they make without it. -/
structure Modes (front back : List String) (r : Request) : Prop where
  inPlace : readArguments (front ++ "-i" :: back) = .ok (r.turnOn .inPlace)
  check : readArguments (front ++ "--check" :: back) = .ok (r.turnOn .check)
  diff : readArguments (front ++ "--diff" :: back) = .ok (r.turnOn .diff)

theorem exists_modes (hfront : "--" ∉ front) (h : readArguments (front ++ "-i" :: back) = .ok r) :
    ∃ base, base.turnOn .inPlace = r ∧ Modes front back base := by
  obtain ⟨common, hcommon⟩ := exists_common_request hfront back
  have hinPlace := hcommon "-i" .inPlace true (by simp) rfl
  have hcheck := hcommon "--check" .check false (by simp) rfl
  have hdiff := hcommon "--diff" .diff false (by simp) rfl
  obtain ⟨base, rfl, hbase⟩ := map_eq_ok_iff.mp (hinPlace.symm.trans h)
  exact ⟨base, hbase, hinPlace, hcheck, hdiff⟩

/-! ### Runs on a source that can be formatted -/

theorem runRequest_of_edits {result : Formatted} (hread : files.read r.source = .ok bytes)
    (hname : Encoding.ofName? r.encoding = some e) (hdecode : e.decode bytes = .ok content)
    (hedits : formatEdits r.options content = .ok result) :
    runRequest r files = (planFormatted r e content result).carryOut files := by
  simp only [runRequest, hread, plan, planBytes, hname, hdecode, hedits]

/-- A run that succeeds, prints nothing and leaves the files as they were. Only if it is verbose it may say
something about what it does. -/
structure Quiet (verbose : Bool) (files : FileTree) (result : Report × FileTree) : Prop where
  ending : result.1.ending = .code 0
  stdout : result.1.stdout = ""
  stderr : verbose = false → result.1.stderr = ""
  files : result.2 = files

section Settled

variable (hread : files.read r.source = .ok bytes) (hname : Encoding.ofName? r.encoding = some e)
  (hdecode : e.decode bytes = .ok content) (hfixed : formatEdits r.options content = .ok ⟨content, []⟩)
include hread hname hdecode hfixed

theorem quiet_check (hcheck : r.check = true) : Quiet r.verbose files (runRequest r files) := by
  rw [runRequest_of_edits hread hname hdecode hfixed, planFormatted, if_pos hcheck, if_pos rfl]
  exact ⟨rfl, rfl, fun hverbose => by simp [Plan.carryOut, hverbose], rfl⟩

theorem quiet_diff (hcheck : r.check = false) (hdiff : r.diff = true) :
    Quiet r.verbose files (runRequest r files) := by
  rw [runRequest_of_edits hread hname hdecode hfixed, planFormatted, if_neg (by simp [hcheck]), if_pos hdiff,
    Diff.unified_self]
  exact ⟨rfl, rfl, fun hverbose => by simp [Plan.carryOut, hverbose], rfl⟩

theorem quiet_saves (hsaves : r.Saves) (htarget : files.target r.destination = .ok place)
    (hfile : files.file? place = some bytes) (hencode : e.encode? content = some bytes) :
    Quiet r.verbose files (runRequest r files) := by
  have hnamed : (r.inPlace || r.output != "") = true := by simpa using hsaves.named
  rw [runRequest_of_edits hread hname hdecode hfixed, planFormatted, if_neg (by simp [hsaves.check]),
    if_neg (by simp [hsaves.diff]), if_pos hnamed, Plan.carryOut, htarget]
  simp only [Saving.saveAt, Saving.bytes?, hencode, FileTree.put_put, FileTree.put_of_file? hfile]
  exact ⟨rfl, rfl, fun hverbose => by simp [Saving.done, hverbose], rfl⟩

end Settled

/-! ### Writing again -/

/-- **In-place formatting settles in one run.**  When the source has been formatted in place, the same command line
finds nothing to do in any mode: checking succeeds, the diff is empty, and formatting again changes no file. -/
theorem run_settles (program : String) (hfront : "--" ∉ front)
    (hargs : readArguments (front ++ "-i" :: back) = .ok r) (hcheck : r.check = false) (hdiff : r.diff = false)
    (houtput : r.output = "") (hsuccess : (run program (front ++ "-i" :: back) files).1.ending = .code 0) :
    let after := (run program (front ++ "-i" :: back) files).2
    Quiet r.verbose after (run program (front ++ "--check" :: back) after) ∧
    Quiet r.verbose after (run program (front ++ "--diff" :: back) after) ∧
    Quiet r.verbose after (run program (front ++ "-i" :: back) after) := by
  intro after
  obtain ⟨base, rfl, hmodes⟩ := exists_modes hfront hargs
  have hsaves : (base.turnOn .inPlace).Saves := ⟨hcheck, hdiff, Or.inl rfl⟩
  rw [run_of_request program hargs] at hsuccess
  rw [run_of_request program hmodes.check, run_of_request program hmodes.diff, run_of_request program hargs]
  rcases runRequest_cases (base.turnOn .inPlace) files with ⟨-, hreports⟩ | ⟨-, -, hsaved⟩
  · exact absurd hsuccess (hreports.ending hsaves)
  obtain @⟨path, place, bytes, out, hpath, hread, htarget, -, hformats, -, -⟩ := hsaved
  obtain rfl := Request.names_iff.mp hpath
  obtain ⟨report, hrun, -⟩ := runRequest_of_target hsaves hread hformats htarget
  have hafter : after = files.put place out := by
    rw [show after = (run program (front ++ "-i" :: back) files).2 from rfl, run_of_request program hargs, hrun]
  rw [hafter]
  obtain @⟨e, content, text, hname, hdecode, hformat, hencode⟩ := hformats
  have hfile := (files.puts_put place out).written
  have htargetAfter : (files.put place out).target (base.turnOn .inPlace).destination = .ok place :=
    FileTree.target_put htarget
  -- the file that has been written is the source
  have hreadAfter : (files.put place out).read base.source = .ok out := by
    rw [← Request.names_iff.mp (.source houtput)] at htarget
    exact FileTree.read_put htarget
  have hdecodeAfter := Encoding.decode_of_encode? hencode
  have hfixed := formatEdits_fixed hformat
  refine ⟨?_, ?_, ?_⟩
  · exact quiet_check (r := base.turnOn .check) hreadAfter hname hdecodeAfter hfixed rfl
  · exact quiet_diff (r := base.turnOn .diff) hreadAfter hname hdecodeAfter hfixed hcheck rfl
  · exact quiet_saves hreadAfter hname hdecodeAfter hfixed hsaves htargetAfter hfile hencode

theorem run_settles_marked :
    let arguments := ["a"] ++ "-i" :: ["--indent=2", "--encoding", "utf-8-sig"]
    let r : Request := { source := "a", inPlace := true, encoding := "utf-8-sig", options.indent := 2 }
    let files : FileTree := { files := [(["a".toList], Utf8.encode "LOOP\r\nX\nREPEAT".toList)] }
    let after := (run "pickfmt" arguments files).2
    readArguments arguments = .ok r ∧ (run "pickfmt" arguments files).1.ending = .code 0 ∧
      Quiet false after (run "pickfmt" (["a"] ++ "--check" :: ["--indent=2", "--encoding", "utf-8-sig"]) after) := by
  intro arguments r files after
  have hargs : readArguments arguments = .ok r := by decide +kernel
  have hsuccess : (run "pickfmt" arguments files).1.ending = .code 0 := by decide +kernel
  exact ⟨hargs, hsuccess, (run_settles "pickfmt" (by decide) hargs rfl rfl rfl hsuccess).1⟩

/-! ### Checking instead of writing -/

/-- What a check finds depends on the texts alone. -/
theorem runRequest_check {result : Formatted} (hread : files.read r.source = .ok bytes)
    (hname : Encoding.ofName? r.encoding = some e) (hdecode : e.decode bytes = .ok content)
    (hedits : formatEdits r.options content = .ok result) (hcheck : r.check = true) :
    (runRequest r files).2 = files ∧ ((runRequest r files).1.ending = .code 0 ↔ result.text = content) := by
  rw [runRequest_of_edits hread hname hdecode hedits, planFormatted, if_pos hcheck]
  split
  next hsame => exact ⟨rfl, iff_of_true rfl hsame⟩
  next hchanged => exact ⟨rfl, iff_of_false (by simp [Plan.carryOut]) hchanged⟩

/-- Texts are the same if and only if they are written with the same bytes. -/
theorem encode?_inj {out : Bytes} (htext : e.encode? text = some out) (hcontent : e.encode? content = some bytes) :
    out = bytes ↔ text = content := by
  constructor
  · rintro rfl
    exact Except.ok.inj ((Encoding.decode_of_encode? htext).symm.trans (Encoding.decode_of_encode? hcontent))
  · rintro rfl
    exact Option.some.inj (htext.symm.trans hcontent)

/-- **Checking succeeds if and only if writing leaves the bytes behind the mark as they are.**  So it predicts
whether a source changes that has the mark of its encoding, or whose encoding has none.  A source without its mark
is always changed, whatever the check says. -/
theorem run_check_iff (program : String) (hfront : "--" ∉ front)
    (hargs : readArguments (front ++ "-i" :: back) = .ok r) (hcheck : r.check = false) (hdiff : r.diff = false)
    (houtput : r.output = "") (hapart : files.Apart) (hread : files.read r.source = .ok bytes)
    (hname : Encoding.ofName? r.encoding = some e) (hdecode : e.decode bytes = .ok content)
    (hformat : formatText r.options content = .ok text) :
    let checked := run program (front ++ "--check" :: back) files
    let written := run program (front ++ "-i" :: back) files
    checked.2 = files ∧ written.1.ending = .code 0 ∧
    (checked.1.ending = .code 0 ↔ written.2.read r.source = .ok (e.marked bytes)) ∧
    ((e = .utf8Marked → Utf8.byteOrderMark <+: bytes) → (checked.1.ending = .code 0 ↔ written.2 = files)) ∧
    (e = .utf8Marked → ¬Utf8.byteOrderMark <+: bytes → written.2 ≠ files) := by
  intro checked written
  obtain ⟨base, rfl, hmodes⟩ := exists_modes hfront hargs
  have hsaves : (base.turnOn .inPlace).Saves := ⟨hcheck, hdiff, Or.inl rfl⟩
  obtain ⟨place, hthere, hfile⟩ := FileTree.exists_target_of_read hapart hread
  obtain ⟨out, hencode⟩ := exists_encode_formatText hdecode hformat
  have hcontent := Encoding.encode?_of_decode hdecode
  -- the check compares the texts
  obtain ⟨result, hedits, rfl⟩ : ∃ result, formatEdits base.options content = .ok result ∧ result.text = text :=
    map_eq_ok_iff.mp ((formatText_eq_map ..).symm.trans hformat)
  obtain ⟨hunchanged, hfound⟩ := runRequest_check (r := base.turnOn .check) hread hname hdecode hedits rfl
  have hchecked : checked = runRequest (base.turnOn .check) files := run_of_request program hmodes.check files
  rw [← hchecked] at hunchanged hfound
  -- writing puts the bytes of the formatted text in the place of the source
  have htarget : files.target (base.turnOn .inPlace).destination = .ok place := by
    rw [← Request.names_iff.mp (.source houtput)]
    exact hthere
  obtain ⟨report, hrun, hsuccess⟩ := runRequest_of_target hsaves hread (.intro hname hdecode hformat hencode) htarget
  have hwritten : written = (report, files.put place out) := (run_of_request program hargs files).trans hrun
  have hreadAfter : (files.put place out).read base.source = .ok out := FileTree.read_put hthere
  have hsame : checked.1.ending = .code 0 ↔ out = e.marked bytes := hfound.trans (encode?_inj hencode hcontent).symm
  have hput : files.put place out = files ↔ out = bytes := by
    constructor
    · intro hput
      rw [hput] at hreadAfter
      exact Except.ok.inj (hreadAfter.symm.trans hread)
    · rintro rfl
      exact FileTree.put_of_file? hfile
  rw [hwritten]
  refine ⟨hunchanged, hsuccess, ?_, fun hmark => ?_, fun he hmark hput' => ?_⟩
  · rw [hsame, show (files.put place out).read (base.turnOn .inPlace).source = .ok out from hreadAfter,
      Except.ok.injEq]
  · rw [hsame, Encoding.marked_eq_self_iff.mpr hmark, hput]
  · obtain rfl : out = bytes := hput.mp hput'
    rw [he] at hencode
    exact hmark ⟨Utf8.encode result.text, Option.some.inj hencode⟩

theorem run_check_iff_marked :
    let arguments := ["a"] ++ "-i" :: ["--encoding", "utf-8-sig"]
    let r : Request := { source := "a", inPlace := true, encoding := "utf-8-sig" }
    let bytes : Bytes := Utf8.encodeMarked "     PRINT 1\r\n".toList
    let files : FileTree := { files := [(["a".toList], bytes)] }
    let checked := run "pickfmt" (["a"] ++ "--check" :: ["--encoding", "utf-8-sig"]) files
    readArguments arguments = .ok r ∧ files.Apart ∧ files.read r.source = .ok bytes ∧
      (checked.1.ending = .code 0 ↔ (run "pickfmt" arguments files).2 = files) ∧ checked.1.ending = .code 0 := by
  intro arguments r bytes files checked
  have hargs : readArguments arguments = .ok r := by decide +kernel
  have hapart : files.Apart := by
    intro place hdir
    obtain rfl : place = [] := by simpa [files, FileTree.isDir] using hdir
    decide +kernel
  have hread : files.read r.source = .ok bytes := by decide +kernel
  have hname : Encoding.ofName? r.encoding = some .utf8Marked := by decide +kernel
  have hdecode : Encoding.decode .utf8Marked bytes = .ok "     PRINT 1\r\n".toList := by decide +kernel
  have hformat : formatText r.options "     PRINT 1\r\n".toList = .ok "     PRINT 1\r\n".toList := by
    decide +kernel
  have hmark : Utf8.byteOrderMark <+: bytes := List.prefix_append _ _
  obtain ⟨-, -, -, hiff, -⟩ := run_check_iff "pickfmt" (by decide) hargs rfl rfl rfl hapart hread hname hdecode
    hformat
  exact ⟨hargs, hapart, hread, hiff fun _ => hmark, by decide +kernel⟩

/-- A source without the mark of its encoding passes the check and changes all the same. -/
theorem check_passes_unmarked :
    let files : FileTree := { files := [(["a".toList], Utf8.encode "     PRINT 1\n".toList)] }
    let checked := run "pickfmt" ["a", "--check", "--encoding", "utf-8-sig"] files
    let written := run "pickfmt" ["a", "-i", "--encoding", "utf-8-sig"] files
    checked.1.ending = .code 0 ∧ written.1.ending = .code 0 ∧ written.2.read "a" ≠ files.read "a" := by
  decide +kernel

end PickIndent.Command
