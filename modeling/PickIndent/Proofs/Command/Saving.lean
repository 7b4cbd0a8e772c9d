import PickIndent.Command.Run
import PickIndent.Proofs.Document.Characters
import PickIndent.Proofs.Document.Edits
import PickIndent.Proofs.Encoding.Repertoire
import PickIndent.Proofs.FileTree.Paths

/-!
# Saving — what a run does to the files

A run has a plan, and a plan either only reports or saves one file (`plan_cases`).  The file is emptied before
the text is turned into bytes, so a text that its encoding lacks would be lost.  No text is: formatting adds
only spaces (`exists_encode_formatText`).  So a run that fails leaves the files as they were, and one that
succeeds changes the file it was asked to write and no other (`run_changes_one_file`).
-/

namespace PickIndent.Command

/-! ### Requests -/

/-- The request asks for a file to be written. Checking and showing a diff come before writing. -/
structure Request.Saves (r : Request) : Prop where
  check : r.check = false
  diff : r.diff = false
  named : r.inPlace = true ∨ r.output ≠ ""

/-- The path of the file to be written: the output if one is given, and else the source. -/
inductive Request.Names (r : Request) : String → Prop
  | output (houtput : r.output ≠ "") : Names r r.output
  | source (houtput : r.output = "") : Names r r.source

/-- A request names one path, the one that is planned for. -/
theorem Request.names_iff {r : Request} {path : String} : r.Names path ↔ path = r.destination := by
  unfold destination
  constructor
  · rintro (houtput | houtput)
    · rw [if_neg houtput]
    · rw [if_pos houtput]
  · rintro rfl
    split
    next houtput => exact .source houtput
    next houtput => exact .output houtput

/-- `out` is the formatted text of the source with these bytes, in the encoding of the source. -/
inductive Request.Formats (r : Request) (bytes out : Bytes) : Prop
  | intro {e : Encoding} {content text : Text} (hname : Encoding.ofName? r.encoding = some e)
      (hdecode : e.decode bytes = .ok content) (hformat : formatText r.options content = .ok text)
      (hencode : e.encode? text = some out) : Formats r bytes out

theorem exists_encode_formatText {e : Encoding} {o : Options} {bytes : Bytes} {content text : Text}
    (hdecode : e.decode bytes = .ok content) (hformat : formatText o content = .ok text) :
    ∃ out, e.encode? text = some out :=
  e.exists_encode hdecode fun _ hc => mem_formatText hformat hc

/-! ### Plans -/

/-- The report of a run that saves nothing. -/
structure Request.Reports (r : Request) (report : Report) : Prop where
  /-- It is no success if a file was to be written. -/
  ending : r.Saves → report.ending ≠ .code 0
  encodable : report.ending ≠ .failure .notEncodable

theorem Request.Reports.of_not_saves {r : Request} (h : ¬r.Saves) {report : Report}
    (hreport : report.ending ≠ .failure .notEncodable) : r.Reports report :=
  ⟨fun hsaves => absurd hsaves h, hreport⟩

theorem Request.Reports.error (r : Request) (stderr message : String) :
    r.Reports (.error stderr message) := ⟨fun _ => by simp [Report.error], by simp [Report.error]⟩

theorem Request.Reports.failure (r : Request) {f : Failure} (h : f ≠ .notEncodable) :
    r.Reports { ending := .failure f } := ⟨fun _ => by simp, by simpa using h⟩

theorem Failure.ofEncoding_ne_notEncodable (name : String) : Failure.ofEncoding name ≠ .notEncodable := by
  unfold Failure.ofEncoding
  split <;> simp

theorem planFormatted_of_saves {r : Request} (h : r.Saves) (e : Encoding) (content : Text) (result : Formatted) :
    ∃ s, planFormatted r e content result = .save s ∧ s.path = r.destination ∧ s.encoding = e ∧
      s.text = result.text := by
  have hnamed : (r.inPlace || r.output != "") = true := by simpa using h.named
  unfold planFormatted
  rw [h.check, h.diff, hnamed]
  exact ⟨_, rfl, rfl, rfl, rfl⟩

theorem planFormatted_of_not_saves {r : Request} (h : ¬r.Saves) (e : Encoding) (content : Text)
    (result : Formatted) : ∃ report, planFormatted r e content result = .report report ∧ r.Reports report := by
  unfold planFormatted
  by_cases hcheck : r.check = true
  · rw [if_pos hcheck]
    split
    · exact ⟨_, rfl, .of_not_saves h (by simp)⟩
    · exact ⟨_, rfl, .of_not_saves h (by simp)⟩
  rw [if_neg hcheck]
  by_cases hdiff : r.diff = true
  · rw [if_pos hdiff]
    exact ⟨_, rfl, .of_not_saves h (by simp)⟩
  rw [if_neg hdiff]
  have hnamed : ¬(r.inPlace || r.output != "") = true := fun hnamed =>
    h ⟨by simpa using hcheck, by simpa using hdiff, by simpa using hnamed⟩
  rw [if_neg hnamed]
  exact ⟨_, rfl, .of_not_saves h (by simp)⟩

/-- A request for a file is planned for as soon as its source can be formatted. -/
theorem exists_plan_of_formats {r : Request} (hsaves : r.Saves) {bytes out : Bytes} (h : r.Formats bytes out) :
    ∃ s, plan r (.ok bytes) = .save s ∧ s.path = r.destination ∧ s.bytes? = some out := by
  cases h with
  | @intro e content text hname hdecode hformat hencode =>
    rw [formatText_eq_map] at hformat
    obtain ⟨result, hedits, rfl⟩ := map_eq_ok_iff.mp hformat
    obtain ⟨s, hsave, hpath, rfl, htext⟩ := planFormatted_of_saves hsaves e content result
    refine ⟨s, ?_, hpath, by rw [Saving.bytes?, htext, hencode]⟩
    simp only [plan, planBytes, hname, hdecode, hedits, hsave]

/-- **A plan reports or saves.** What it saves are the formatted bytes of the source that was read. -/
theorem plan_cases (r : Request) (source : Except PathError Bytes) :
    (∃ report, plan r source = .report report ∧ r.Reports report) ∨
    ∃ bytes out, source = .ok bytes ∧ r.Saves ∧ r.Formats bytes out := by
  unfold plan
  split
  next bytes =>
    unfold planBytes
    split
    · exact Or.inl ⟨_, rfl, .failure r (Failure.ofEncoding_ne_notEncodable _)⟩
    rename_i e hname
    split
    · exact Or.inl ⟨_, rfl, .error ..⟩
    rename_i content hdecode
    split
    · exact Or.inl ⟨_, rfl, .error ..⟩
    rename_i result hedits
    by_cases hsaves : r.Saves
    · have hformat : formatText r.options content = .ok result.text := by
        rw [formatText_eq_map, hedits]
        rfl
      obtain ⟨out, hencode⟩ := exists_encode_formatText hdecode hformat
      exact Or.inr ⟨bytes, out, rfl, hsaves, .intro hname hdecode hformat hencode⟩
    · exact Or.inl (planFormatted_of_not_saves hsaves e content result)
  next =>
    split
    · exact Or.inl ⟨_, rfl, .failure r (by simp)⟩
    · exact Or.inl ⟨_, rfl, .error ..⟩
  next => exact Or.inl ⟨_, rfl, .error ..⟩

/-! ### Runs -/

/-- One file has been written, the output if one is given and else the source, whose bytes it had before.  It holds
the formatted text of the source, which is read back under the same path, and everything else is as it was. -/
inductive Request.Saved (r : Request) (files after : FileTree) : Prop
  | intro {path : String} {place : Place} {bytes out : Bytes} (hpath : r.Names path)
      (hread : files.read r.source = .ok bytes) (htarget : files.target path = .ok place)
      (hsource : r.output = "" → files.file? place = some bytes) (hformats : r.Formats bytes out)
      (hputs : files.Puts after place out) (hwritten : after.read path = .ok out) : Saved r files after

theorem Request.Reports.refused {r : Request} {s : Saving} (e : PathError) : r.Reports (s.refused e) := by
  cases e <;> exact ⟨fun _ => by simp [Saving.refused, Report.error], by simp [Saving.refused, Report.error]⟩

/-- A file for which there is a place is put there. -/
theorem runRequest_of_target {r : Request} {files : FileTree} {place : Place} {bytes out : Bytes} (hsaves : r.Saves)
    (hread : files.read r.source = .ok bytes) (h : r.Formats bytes out)
    (htarget : files.target r.destination = .ok place) :
    ∃ report, runRequest r files = (report, files.put place out) ∧ report.ending = .code 0 := by
  obtain ⟨s, hplan, hpath, hbytes⟩ := exists_plan_of_formats hsaves h
  refine ⟨s.done, ?_, rfl⟩
  rw [runRequest, hread, hplan, Plan.carryOut, hpath, htarget]
  simp only [Saving.saveAt, hbytes, FileTree.put_put]

/-- A file is saved if there is a place for it, and nothing is changed otherwise. -/
theorem runRequest_of_formats {r : Request} {files : FileTree} {bytes out : Bytes} (hsaves : r.Saves)
    (hread : files.read r.source = .ok bytes) (h : r.Formats bytes out) :
    ((runRequest r files).2 = files ∧ r.Reports (runRequest r files).1 ∧
      ∃ fault, files.target r.destination = .error fault) ∨
    ((runRequest r files).1.ending = .code 0 ∧ r.Saved files (runRequest r files).2) := by
  cases htarget : files.target r.destination with
  | error fault =>
    obtain ⟨s, hplan, hpath, hbytes⟩ := exists_plan_of_formats hsaves h
    rw [runRequest, hread, hplan, Plan.carryOut, hpath, htarget]
    exact Or.inl ⟨rfl, .refused fault, fault, rfl⟩
  | ok place =>
    obtain ⟨report, hrun, hsuccess⟩ := runRequest_of_target hsaves hread h htarget
    have hsource : r.output = "" → files.file? place = some bytes := by
      intro hnone
      rw [← Request.names_iff.mp (.source hnone)] at htarget
      exact FileTree.file?_of_target htarget hread
    rw [hrun]
    exact Or.inr ⟨hsuccess, .intro (Request.names_iff.mpr rfl) hread htarget hsource h (files.puts_put place out)
      (FileTree.read_put htarget)⟩

theorem runRequest_cases (r : Request) (files : FileTree) :
    ((runRequest r files).2 = files ∧ r.Reports (runRequest r files).1) ∨
    ((runRequest r files).1.ending = .code 0 ∧ r.Saves ∧ r.Saved files (runRequest r files).2) := by
  rcases plan_cases r (files.read r.source) with ⟨report, hplan, hreports⟩ | ⟨bytes, out, hread, hsaves, hformats⟩
  · rw [runRequest, hplan]
    exact Or.inl ⟨rfl, hreports⟩
  · rcases runRequest_of_formats hsaves hread hformats with ⟨hafter, hreports, -⟩ | ⟨hsuccess, hsaved⟩
    · exact Or.inl ⟨hafter, hreports⟩
    · exact Or.inr ⟨hsuccess, hsaves, hsaved⟩

theorem run_of_stop (program : String) {arguments : List String} {stop : Stop}
    (h : readArguments arguments = .error stop) (files : FileTree) :
    run program arguments files = (.ofStop program stop, files) := by
  rw [run, h]

theorem run_of_request (program : String) {arguments : List String} {r : Request}
    (h : readArguments arguments = .ok r) (files : FileTree) :
    run program arguments files = runRequest r files := by
  rw [run, h]

/-- **A run that fails changes nothing, and one that succeeds changes one file at most.**  Without a request,
and with one that asks for no file, everything stays as it was.  A request for a file succeeds if and only if
the source can be read and formatted and the file, the output or else the source, has a place, and then this file
is written.  No text is lost for want of a character in its encoding: the formatted text has the characters of the
source and spaces. -/
theorem run_changes_one_file (program : String) (arguments : List String) (files : FileTree) :
    let report := (run program arguments files).1
    let after := (run program arguments files).2
    (report.ending ≠ .code 0 → after = files) ∧
    (∀ stop, readArguments arguments = .error stop → after = files) ∧
    (∀ r, readArguments arguments = .ok r →
      (¬r.Saves → after = files) ∧
      (r.Saves → report.ending = .code 0 → r.Saved files after) ∧
      (r.Saves → ∀ bytes out path place, files.read r.source = .ok bytes → r.Formats bytes out → r.Names path →
        files.target path = .ok place → report.ending = .code 0)) ∧
    report.ending ≠ .failure .notEncodable ∧
    ∀ (e : Encoding) (o : Options) (bytes : Bytes) (content text : Text), e.decode bytes = .ok content →
      formatText o content = .ok text →
        (∃ out, e.encode? text = some out) ∧ ∀ c ∈ text, c = ' ' ∨ c ∈ content := by
  intro report after
  have hencode : ∀ (e : Encoding) (o : Options) (bytes : Bytes) (content text : Text),
      e.decode bytes = .ok content → formatText o content = .ok text →
        (∃ out, e.encode? text = some out) ∧ ∀ c ∈ text, c = ' ' ∨ c ∈ content :=
    fun e o bytes content text hdecode hformat =>
      ⟨exists_encode_formatText hdecode hformat, fun _ hc => mem_formatText hformat hc⟩
  cases hargs : readArguments arguments with
  | error stop =>
    have hrun := run_of_stop program hargs files
    have hafter : after = files := congrArg Prod.snd hrun
    have hreport : report = .ofStop program stop := congrArg Prod.fst hrun
    refine ⟨fun _ => hafter, fun _ _ => hafter, by simp, ?_, hencode⟩
    rw [hreport]
    cases stop <;> simp [Report.ofStop]
  | ok r =>
    have hrun := run_of_request program hargs files
    have hcases := runRequest_cases r files
    have hmet : r.Saves → ∀ bytes out path place, files.read r.source = .ok bytes → r.Formats bytes out →
        r.Names path → files.target path = .ok place → report.ending = .code 0 := by
      intro hsaves bytes out path place hread hformats hpath htarget
      obtain rfl := Request.names_iff.mp hpath
      rcases runRequest_of_formats hsaves hread hformats with ⟨-, -, fault, hfault⟩ | ⟨hsuccess, -⟩
      · simp [htarget] at hfault
      · rwa [← hrun] at hsuccess
    rw [← hrun] at hcases
    rcases hcases with ⟨hafter, hreports⟩ | ⟨hsuccess, hsaves, hsaved⟩
    · refine ⟨fun _ => hafter, fun _ _ => hafter, fun r' hr' => ?_, hreports.encodable, hencode⟩
      obtain rfl := Except.ok.inj hr'
      exact ⟨fun _ => hafter, fun hsaves hsuccess => absurd hsuccess (hreports.ending hsaves), hmet⟩
    · refine ⟨fun hfailure => absurd hsuccess hfailure, by simp, fun r' hr' => ?_, ?_, hencode⟩
      · obtain rfl := Except.ok.inj hr'
        exact ⟨fun hnot => absurd hsaves hnot, fun _ _ => hsaved, hmet⟩
      · intro hlost
        rw [hsuccess] at hlost
        exact Ending.noConfusion hlost

theorem run_changes_one_file_inPlace :
    let bytes : Bytes := Utf8.encode "LOOP\nREPEAT".toList
    let files : FileTree := { files := [(["a".toList], bytes), (["b".toList], Utf8.encode "NEXT I".toList)] }
    let out : Bytes := Utf8.encode "     LOOP\n     REPEAT".toList
    let inPlace : Request := { source := "a", inPlace := true }
    let copied : Request := { source := "a", output := "o" }
    let result := run "pickfmt" ["-i", "a"] files
    let copy := run "pickfmt" ["a", "o"] files
    let stray := run "pickfmt" ["b", "a"] files
    (readArguments ["-i", "a"] = .ok inPlace ∧ inPlace.Saves ∧ files.read inPlace.source = .ok bytes ∧
      inPlace.Formats bytes out ∧ inPlace.Names "a" ∧ files.target "a" = .ok ["a".toList] ∧
      result.1.ending = .code 0 ∧ inPlace.Saved files result.2 ∧ result.2.read "a" = .ok out) ∧
    (readArguments ["a", "o"] = .ok copied ∧ copied.Saves ∧ copied.Formats bytes out ∧ copied.Names "o" ∧
      files.target "o" = .ok ["o".toList] ∧ copy.1.ending = .code 0 ∧ copied.Saved files copy.2 ∧
      copy.2.read "o" = .ok out ∧ copy.2.read "a" = .ok bytes) ∧
    (stray.1.ending ≠ .code 0 ∧ stray.2 = files) ∧
    ∃ out, Encoding.encode? .ascii "     LOOP".toList = some out := by
  intro bytes files out inPlace copied result copy stray
  have hname : Encoding.ofName? "utf-8" = some .utf8 := by decide +kernel
  have hcontent : Encoding.decode .utf8 bytes = .ok "LOOP\nREPEAT".toList := by decide +kernel
  have hlines : formatText {} "LOOP\nREPEAT".toList = .ok "     LOOP\n     REPEAT".toList := by decide +kernel
  have hread : files.read "a" = .ok bytes := by decide +kernel
  refine ⟨?_, ?_, ?_, ?_⟩
  · have hargs : readArguments ["-i", "a"] = .ok inPlace := by decide +kernel
    have hsaves : inPlace.Saves := ⟨rfl, rfl, Or.inl rfl⟩
    have hformats : inPlace.Formats bytes out := .intro hname hcontent hlines rfl
    have hpath : inPlace.Names "a" := .source rfl
    have htarget : files.target "a" = .ok ["a".toList] := by decide +kernel
    obtain ⟨-, -, hrequest, -⟩ := run_changes_one_file "pickfmt" ["-i", "a"] files
    obtain ⟨-, hsaved, hmet⟩ := hrequest inPlace hargs
    have hsuccess := hmet hsaves bytes out _ _ hread hformats hpath htarget
    exact ⟨hargs, hsaves, hread, hformats, hpath, htarget, hsuccess, hsaved hsaves hsuccess, by decide +kernel⟩
  · have hargs : readArguments ["a", "o"] = .ok copied := by decide +kernel
    have hsaves : copied.Saves := ⟨rfl, rfl, Or.inr (by decide)⟩
    have hformats : copied.Formats bytes out := .intro hname hcontent hlines rfl
    have hpath : copied.Names "o" := .output (by decide)
    have htarget : files.target "o" = .ok ["o".toList] := by decide +kernel
    obtain ⟨-, -, hrequest, -⟩ := run_changes_one_file "pickfmt" ["a", "o"] files
    obtain ⟨-, hsaved, hmet⟩ := hrequest copied hargs
    have hsuccess := hmet hsaves bytes out _ _ hread hformats hpath htarget
    exact ⟨hargs, hsaves, hformats, hpath, htarget, hsuccess, hsaved hsaves hsuccess, by decide +kernel,
      by decide +kernel⟩
  · have hfailure : stray.1.ending ≠ .code 0 := by decide +kernel
    obtain ⟨hunchanged, -⟩ := run_changes_one_file "pickfmt" ["b", "a"] files
    exact ⟨hfailure, hunchanged hfailure⟩
  · have hdecode : Encoding.decode .ascii [76, 79, 79, 80] = .ok "LOOP".toList := by decide +kernel
    have hformat : formatText {} "LOOP".toList = .ok "     LOOP".toList := by decide +kernel
    obtain ⟨-, -, -, -, hencode⟩ := run_changes_one_file "pickfmt" [] files
    exact (hencode .ascii {} _ _ _ hdecode hformat).1

end PickIndent.Command
