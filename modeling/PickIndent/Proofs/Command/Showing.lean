import PickIndent.Proofs.Command.Modes
import PickIndent.Proofs.Diff.Reading

/-!
# Showing — what the diff says about the program

Instead of writing the formatted program a run can show what it would change.  What it shows is enough to make the
change by hand: the lines of the diff lead from the lines of the source to those of the formatted program, and there
are none exactly if checking the source succeeds (`run_diff_replays`).
-/

namespace PickIndent.Command

variable {front back : List String} {r : Request} {files : FileTree} {e : Encoding} {bytes : Bytes}
  {content text : Text}

theorem runRequest_diff {result : Formatted} (hread : files.read r.source = .ok bytes)
    (hname : Encoding.ofName? r.encoding = some e) (hdecode : e.decode bytes = .ok content)
    (hedits : formatEdits r.options content = .ok result) (hcheck : r.check = false) (hdiff : r.diff = true) :
    (runRequest r files).2 = files ∧ (runRequest r files).1.ending = .code 0 ∧
      (runRequest r files).1.stdout = String.ofList (Diff.unified r.source content result.text).flatten := by
  rw [runRequest_of_edits hread hname hdecode hedits, planFormatted, if_neg (by simp [hcheck]), if_pos hdiff]
  exact ⟨rfl, rfl, rfl⟩

/-- **What is shown is what would be written.**  A source that can be formatted is shown with the lines of a diff.
There are none if and only if the source is formatted already, which is when checking it succeeds.  Otherwise two
lines name the file, and behind them stand hunks in order, no two of which touch each other: replayed on the lines of
the source they give the lines of the formatted text. -/
theorem run_diff_replays (program : String) (hfront : "--" ∉ front)
    (hargs : readArguments (front ++ "--diff" :: back) = .ok r) (hcheck : r.check = false)
    (hread : files.read r.source = .ok bytes) (hname : Encoding.ofName? r.encoding = some e)
    (hdecode : e.decode bytes = .ok content) (hformat : formatText r.options content = .ok text) :
    let lines := Diff.unified r.source content text
    let shown := run program (front ++ "--diff" :: back) files
    let checked := run program (front ++ "--check" :: back) files
    shown.2 = files ∧ shown.1.ending = .code 0 ∧ shown.1.stdout = String.ofList lines.flatten ∧
    (lines = [] ↔ content = text) ∧ (lines = [] ↔ checked.1.ending = .code 0) ∧
    (lines ≠ [] → ∃ body hs,
      lines = ("--- " ++ r.source ++ "\n").toList :: ("+++ " ++ r.source ++ "\n").toList :: body ∧
      Diff.readHunks? 0 0 body = some ([], hs) ∧ hs.Pairwise Diff.Hunk.Before ∧
      Diff.replayFrom 0 0 hs (endedLines content) = some (endedLines text)) ∧
    (endedLines text).flatten = text := by
  intro lines shown checked
  obtain ⟨common, hcommon⟩ := exists_common_request hfront back
  obtain ⟨base, hbase, rfl⟩ :=
    map_eq_ok_iff.mp ((hcommon "--diff" .diff false (by simp) rfl).symm.trans hargs)
  have hchecks : readArguments (front ++ "--check" :: back) = .ok (base.turnOn .check) := by
    rw [hcommon "--check" .check false (by simp) rfl, hbase]
    rfl
  obtain ⟨result, hedits, rfl⟩ : ∃ result, formatEdits base.options content = .ok result ∧ result.text = text :=
    map_eq_ok_iff.mp ((formatText_eq_map ..).symm.trans hformat)
  have hshown : shown = runRequest (base.turnOn .diff) files := run_of_request program hargs files
  have hchecked : checked = runRequest (base.turnOn .check) files := run_of_request program hchecks files
  obtain ⟨hfiles, hending, hstdout⟩ :=
    runRequest_diff (r := base.turnOn .diff) hread hname hdecode hedits hcheck rfl
  obtain ⟨-, hfound⟩ := runRequest_check (r := base.turnOn .check) hread hname hdecode hedits rfl
  have hnil : lines = [] ↔ content = result.text := Diff.unified_eq_nil_iff _
  rw [← hshown] at hfiles hending hstdout
  rw [← hchecked] at hfound
  exact ⟨hfiles, hending, hstdout, hnil, hnil.trans (eq_comm.trans hfound.symm), Diff.exists_hunks_of_unified _,
    flatten_endedLines _⟩

theorem run_diff_replays_loop :
    let arguments := ["a"] ++ "--diff" :: ["--indent=2"]
    let r : Request := { source := "a", diff := true, options.indent := 2 }
    let content := "LOOP\r\nX\x0cY\r\nREPEAT".toList
    let text := "     LOOP\r\n       X\x0cY\r\n     REPEAT".toList
    let files : FileTree := { files := [(["a".toList], Utf8.encode content)] }
    let lines := Diff.unified "a" content text
    readArguments arguments = .ok r ∧ formatText r.options content = .ok text ∧ lines ≠ [] ∧
      (run "pickfmt" arguments files).1.stdout = String.ofList lines.flatten ∧
      (run "pickfmt" (["a"] ++ "--check" :: ["--indent=2"]) files).1.ending ≠ .code 0 ∧
      ∃ body hs, lines = "--- a\n".toList :: "+++ a\n".toList :: body ∧ Diff.readHunks? 0 0 body = some ([], hs) ∧
        Diff.replayFrom 0 0 hs (endedLines content) = some (endedLines text) := by
  intro arguments r content text files lines
  have hargs : readArguments arguments = .ok r := by decide +kernel
  have hread : files.read r.source = .ok (Utf8.encode content) := by decide +kernel
  have hname : Encoding.ofName? r.encoding = some .utf8 := by decide +kernel
  have hdecode : Encoding.decode .utf8 (Utf8.encode content) = .ok content := by decide +kernel
  have hformat : formatText r.options content = .ok text := by decide +kernel
  obtain ⟨-, -, hstdout, hsame, hchecked, hreplay, -⟩ :=
    run_diff_replays "pickfmt" (by decide) hargs rfl hread hname hdecode hformat
  have hne : lines ≠ [] := fun hnil => absurd (hsame.mp hnil) (by decide)
  obtain ⟨body, hs, hlines, hhunks, -, hnew⟩ := hreplay hne
  exact ⟨hargs, hformat, hne, hstdout, fun hending => hne (hchecked.mpr hending), body, hs, hlines, hhunks, hnew⟩

end PickIndent.Command
