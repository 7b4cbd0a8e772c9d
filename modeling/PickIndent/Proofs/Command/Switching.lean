import PickIndent.Command.Arguments

/-!
# Switching — what one argument more turns on

Arguments are taken one after the other, and a switch changes nothing but the request (`take_turnOn`).  So two
command lines that differ in one switch, at the same place, fail alike or make requests that differ only in what
these switches turn on (`exists_common_request`).
-/

namespace PickIndent.Command

variable {s : Switch}

/-! ### Requests -/

theorem Request.turnOn_comm (r : Request) (s s' : Switch) : (r.turnOn s).turnOn s' = (r.turnOn s').turnOn s := by
  cases s <;> cases s' <;> rfl

@[simp] theorem Request.turnOn_source (r : Request) (s : Switch) : (r.turnOn s).source = r.source := by
  cases s <;> rfl

@[simp] theorem Request.turnOn_output (r : Request) (s : Switch) : (r.turnOn s).output = r.output := by
  cases s <;> rfl

@[simp] theorem Request.turnOn_margin (r : Request) (s : Switch) :
    (r.turnOn s).options.margin = r.options.margin := by
  cases s <;> rfl

@[simp] theorem Request.turnOn_indent (r : Request) (s : Switch) :
    (r.turnOn s).options.indent = r.options.indent := by
  cases s <;> rfl

theorem Request.set_turnOn (r : Request) (s : Switch) (setting : Setting) (value : String) :
    (r.turnOn s).set setting value = (r.set setting value).map (·.turnOn s) := by
  cases setting with
  | encoding => cases s <;> rfl
  | margin => cases h : integerOf? value.toList <;> cases s <;> simp only [Request.set, h] <;> rfl
  | indent => cases h : integerOf? value.toList <;> cases s <;> simp only [Request.set, h] <;> rfl

/-! ### Taking arguments -/

namespace Progress

/-- The switch is turned on in the request. -/
def turnOn (p : Progress) (s : Switch) : Progress := { p with request := p.request.turnOn s }

theorem takeSwitch_turnOn (p : Progress) (s s' : Switch) :
    (p.turnOn s).takeSwitch s' = (p.takeSwitch s').map (·.turnOn s) := by
  unfold takeSwitch
  split
  · rfl
  · exact congrArg (fun r => Except.ok { p with request := r }) (p.request.turnOn_comm s s')

theorem takeSwitches_turnOn (p : Progress) (s : Switch) (switches : List Switch) :
    (p.turnOn s).takeSwitches switches = (p.takeSwitches switches).map (·.turnOn s) := by
  induction switches generalizing p with
  | nil => rfl
  | cons s' later ih =>
    rw [takeSwitches, takeSwitches, takeSwitch_turnOn]
    cases p.takeSwitch s' with
    | error e => rfl
    | ok q => exact ih q

theorem takeValue_turnOn (p : Progress) (s : Switch) (setting : Setting) (value : String) :
    (p.turnOn s).takeValue setting value = (p.takeValue setting value).map (·.turnOn s) := by
  rw [takeValue, takeValue, turnOn, Request.set_turnOn]
  cases p.request.set setting value <;> rfl

theorem endRun_turnOn (p : Progress) (s : Switch) : (p.turnOn s).endRun = p.endRun.turnOn s := by
  unfold endRun
  split
  next h => rw [if_pos (show p.naming = .source from h)]
  next h => rw [if_neg (show ¬p.naming = .source from h)]; rfl

theorem takeFlag_turnOn (p : Progress) (s : Switch) (short : Bool) (flag : Flag) (value? : Option String) :
    (p.turnOn s).takeFlag short flag value? = (p.takeFlag short flag value?).map (·.turnOn s) := by
  fun_cases takeFlag p short flag value? with
  | case1 s' => exact takeSwitch_turnOn p s s'
  | case2 s' value hvalue e he => rw [takeFlag, if_pos hvalue, he]; rfl
  | case3 s' value hvalue switches hswitches =>
    rw [takeFlag, if_pos hvalue, hswitches]
    exact takeSwitches_turnOn p s switches
  | case4 s' value hvalue => rw [takeFlag, if_neg hvalue]; rfl
  | case5 setting => rfl
  | case6 setting value => exact takeValue_turnOn p s setting value

theorem takeWord_turnOn (p : Progress) (s : Switch) (word : String) :
    (p.turnOn s).takeWord word = (p.takeWord word).turnOn s := by
  unfold takeWord
  cases h : p.naming <;> simp only [turnOn, h] <;> cases s <;> rfl

theorem takeSeparator_turnOn (p : Progress) (s : Switch) :
    (p.turnOn s).takeSeparator = p.takeSeparator.turnOn s := by
  unfold takeSeparator
  cases h : p.naming <;> simp only [turnOn, refuse, h]

theorem take_turnOn (p : Progress) (s : Switch) (a : Argument) :
    (p.turnOn s).take a = (p.take a).map (·.turnOn s) := by
  have hpending : (p.turnOn s).pending = p.pending := rfl
  unfold take
  rw [hpending]
  split
  next setting value _ => exact takeValue_turnOn { p with pending := none } s setting value
  next => rfl
  next word _ => exact congrArg Except.ok (takeWord_turnOn p s word)
  next => exact congrArg Except.ok (takeSeparator_turnOn p s)
  next text _ =>
    rw [endRun_turnOn]
    rfl
  next flag short value? _ =>
    rw [endRun_turnOn]
    exact takeFlag_turnOn p.endRun s short flag value?

theorem takeAll_turnOn (p : Progress) (s : Switch) (as : List Argument) :
    (p.turnOn s).takeAll as = (p.takeAll as).map (·.turnOn s) := by
  induction as generalizing p with
  | nil => rfl
  | cons a as ih =>
    rw [takeAll, takeAll, take_turnOn]
    cases p.take a with
    | error e => rfl
    | ok q => exact ih q

theorem finish_turnOn (p : Progress) (s : Switch) : (p.turnOn s).finish = p.finish.map (·.turnOn s) := by
  have hpending : (p.turnOn s).pending = p.pending := rfl
  have hnaming : (p.turnOn s).naming = p.naming := rfl
  have hleft : (p.turnOn s).leftOver = p.leftOver := rfl
  have hrequest : (p.turnOn s).request = p.request.turnOn s := rfl
  unfold finish
  rw [hpending, hnaming, hleft, hrequest, Request.turnOn_margin, Request.turnOn_indent]
  split
  · rfl
  · rfl
  · rfl
  · split <;> rfl

theorem takeAll_append (p : Progress) (as bs : List Argument) :
    p.takeAll (as ++ bs) =
      match p.takeAll as with
      | .error e => .error e
      | .ok q => q.takeAll bs := by
  induction as generalizing p with
  | nil => rfl
  | cons a as ih =>
    rw [List.cons_append, takeAll, takeAll]
    cases p.take a with
    | error e => rfl
    | ok q => exact ih q

/-- A switch that stands by itself ends the run of words and turns something on, unless a value is awaited. -/
theorem take_switch {p : Progress} (hs : s ≠ .help) (short : Bool) :
    p.take (.flag (.switch s) short none) =
      match p.pending with
      | some setting => .error (.misuse (.missingValue setting))
      | none => .ok (p.endRun.turnOn s) := by
  unfold take
  cases p.pending with
  | some setting => rfl
  | none =>
    simp only [takeFlag, takeSwitch, if_neg hs]
    rfl

end Progress

/-! ### Command lines -/

/-- Arguments in front of which no separator stands are told apart by themselves. -/
theorem classifyAll_append {front : List String} (h : "--" ∉ front) (back : List String) :
    classifyAll (front ++ back) =
      match classifyAll front with
      | .error e => .error e
      | .ok as => (classifyAll back).map (as ++ ·) := by
  induction front with
  | nil =>
    simp only [List.nil_append, classifyAll]
    cases classifyAll back <;> rfl
  | cons argument front ih =>
    have hne : argument ≠ "--" := fun heq => h (by simp [heq])
    rw [List.cons_append, classifyAll.eq_3 _ _ (fun heq => hne heq), classifyAll.eq_3 _ _ (fun heq => hne heq),
      ih fun hmem => h (List.mem_cons_of_mem argument hmem)]
    cases classifyArgument argument with
    | error e => rfl
    | ok a =>
      cases classifyAll front with
      | error e => rfl
      | ok as => cases classifyAll back <;> rfl

/-- The separator begins every long spelling, so it stands for none of them. -/
theorem classifyArgument_separator : ∃ e, classifyArgument "--" = .error e :=
  ⟨.ambiguous "--" ((candidates "--").map Prod.fst), rfl⟩

theorem classifyAll_cons {argument : String} {a : Argument} (h : classifyArgument argument = .ok a)
    (back : List String) : classifyAll (argument :: back) = (classifyAll back).map (a :: ·) := by
  have hne : argument ≠ "--" := by
    rintro rfl
    obtain ⟨e, he⟩ := classifyArgument_separator
    rw [he] at h
    cases h
  rw [classifyAll.eq_3 _ _ hne, h]

/-- The end of reading: what has been taken becomes a request. -/
theorem readArguments_of_classified {arguments : List String} {as : List Argument}
    (h : classifyAll arguments = .ok as) :
    readArguments arguments =
      match ({} : Progress).takeAll as with
      | .error e => .error e
      | .ok p => p.finish.mapError .misuse := by
  simp only [readArguments, h]
  cases ({} : Progress).takeAll as with
  | error e => rfl
  | ok p =>
    simp only
    cases p.finish <;> rfl

/-- **One switch among the arguments** turns on what it stands for, and the rest of the command line decides
about everything else. -/
theorem exists_common_request {front : List String} (hfront : "--" ∉ front) (back : List String) :
    ∃ common : Except Stop Request, ∀ (argument : String) (s : Switch) (short : Bool), s ≠ .help →
      classifyArgument argument = .ok (.flag (.switch s) short none) →
        readArguments (front ++ argument :: back) = common.map (·.turnOn s) := by
  have happend : ∀ {argument : String} {a : Argument}, classifyArgument argument = .ok a →
      classifyAll (front ++ argument :: back) =
        match classifyAll front with
        | .error e => .error e
        | .ok as => ((classifyAll back).map (a :: ·)).map (as ++ ·) := by
    intro argument a ha
    rw [classifyAll_append hfront, classifyAll_cons ha]
  cases hclassified : classifyAll front with
  | error e =>
    refine ⟨.error (.misuse e), fun argument s short _ hargument => ?_⟩
    rw [readArguments, happend hargument, hclassified]
    rfl
  | ok as =>
  cases hlater : classifyAll back with
  | error e =>
    refine ⟨.error (.misuse e), fun argument s short _ hargument => ?_⟩
    rw [readArguments, happend hargument, hclassified, hlater]
    rfl
  | ok bs =>
  have hread : ∀ {argument : String} {s : Switch} {short : Bool},
      classifyArgument argument = .ok (.flag (.switch s) short none) →
        classifyAll (front ++ argument :: back) = .ok (as ++ .flag (.switch s) short none :: bs) := by
    intro argument s short hargument
    rw [happend hargument, hclassified, hlater]
    rfl
  cases htaken : ({} : Progress).takeAll as with
  | error e =>
    refine ⟨.error e, fun argument s short _ hargument => ?_⟩
    rw [readArguments_of_classified (hread hargument), Progress.takeAll_append, htaken]
    rfl
  | ok p =>
  cases hpending : p.pending with
  | some setting =>
    refine ⟨.error (.misuse (.missingValue setting)), fun argument s short hs hargument => ?_⟩
    rw [readArguments_of_classified (hread hargument), Progress.takeAll_append, htaken]
    simp only [Progress.takeAll, Progress.take_switch hs, hpending]
    rfl
  | none =>
  refine ⟨match p.endRun.takeAll bs with
    | .error e => .error e
    | .ok q => q.finish.mapError .misuse, fun argument s short hs hargument => ?_⟩
  rw [readArguments_of_classified (hread hargument), Progress.takeAll_append, htaken]
  simp only [Progress.takeAll, Progress.take_switch hs, hpending, Progress.takeAll_turnOn]
  cases p.endRun.takeAll bs with
  | error e => rfl
  | ok q =>
    simp only [Except.map, Progress.finish_turnOn]
    cases q.finish <;> rfl

end PickIndent.Command
