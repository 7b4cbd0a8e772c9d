import PickIndent.Command.Flag
import PickIndent.Text.Integer
import PickIndent.Text.Quoted

/-!
# Arguments of the command line

The arguments are first told apart, each by itself: a flag in one of its spellings or by a clear
beginning of one, a word, or the separator `--`, after which everything is a word. Then they are taken
one after the other. A setting takes the next word as its value. The first run of words names the
source and, if there are two of them, the output. Whatever is left over is refused at the end.

Bundles of switches are read by the rules that held up to release 3.11.8 of the argument reader. Its
release 3.11.9 changed them in three points, which are noted where they matter.
-/

namespace PickIndent.Command

/-! ### Misuse -/

inductive UsageError where
  /-- A beginning that several flags share. -/
  | ambiguous (argument : String) (matching : List String)
  /-- A switch with a value, or a bundle of switches with something else in it. -/
  | unusedValue (flag : Flag) (value : String)
  | missingValue (setting : Setting)
  | notInteger (setting : Setting) (value : String)
  | missingSource
  | leftOver (arguments : List String)
  | negativeWidth
  deriving DecidableEq, Repr

def UsageError.message : UsageError → String
  | .ambiguous argument matching =>
    "ambiguous option: " ++ argument ++ " could match " ++ ", ".intercalate matching
  | .unusedValue flag value =>
    "argument " ++ flag.name ++ ": ignored explicit argument " ++ quoted value
  | .missingValue setting => "argument " ++ setting.long ++ ": expected one argument"
  | .notInteger setting value =>
    "argument " ++ setting.long ++ ": invalid int value: " ++ quoted value
  | .missingSource => "the following arguments are required: source_file"
  | .leftOver arguments => "unrecognized arguments: " ++ " ".intercalate arguments
  | .negativeWidth => "--margin and --indent must not be negative"

/-! ### Telling arguments apart -/

inductive Argument where
  | word (text : String)
  | separator
  /-- A flag, spelled short or long, and what is written into the same argument after it. -/
  | flag (flag : Flag) (short : Bool) (value? : Option String)
  /-- Something that looks like a flag but is none. -/
  | unknown (text : String)
  deriving DecidableEq, Repr

/-- The text before the first `=` and the one after it. -/
def splitAssignment? (argument : String) : Option (String × String) :=
  let text := argument.toList
  if text.contains '=' then
    some (String.ofList (text.takeWhile (· != '=')), String.ofList ((text.dropWhile (· != '=')).drop 1))
  else none

def isShort (spelling : String) : Bool := spelling.length == 2

def ofSpelling? (spelling : String) : Option Flag :=
  (Flag.spelled.find? (·.1 == spelling)).map Prod.snd

/-- The spellings that an argument with two dashes begins, and its value. -/
def longCandidates (argument : String) : List (String × Argument) :=
  let (front, value?) :=
    match splitAssignment? argument with
    | some (front, value) => (front, some value)
    | none => (argument, none)
  (Flag.spelled.filter fun p => front.toList.isPrefixOf p.1.toList).map fun p =>
    (p.1, .flag p.2 (isShort p.1) value?)

/-- The spellings that an argument with one dash can mean: a short one, with the rest of the argument
after it, or one that the whole argument begins. -/
def shortCandidates (argument : String) : List (String × Argument) :=
  Flag.spelled.filterMap fun p =>
    if p.1.toList = argument.toList.take 2 then
      some (p.1, .flag p.2 (isShort p.1) (some (String.ofList (argument.toList.drop 2))))
    else if argument.toList.isPrefixOf p.1.toList then some (p.1, .flag p.2 (isShort p.1) none)
    else none

def candidates (argument : String) : List (String × Argument) :=
  if ['-', '-'].isPrefixOf argument.toList then longCandidates argument else shortCandidates argument

/-- The text without one line feed at its end. -/
def dropFinalNewline (t : Text) : Text := if t.getLast? = some '\n' then t.dropLast else t

/-- Whether an argument is a negative number, whole or with a point and digits after it. A line feed
may end it. -/
def looksNegative (argument : String) : Bool :=
  match dropFinalNewline argument.toList with
  | '-' :: t =>
    let whole := t.takeWhile isDecimalDigit
    match t.dropWhile isDecimalDigit with
    | [] => whole != []
    | '.' :: fraction => fraction != [] && fraction.all isDecimalDigit
    | _ => false
  | _ => false

/-- What an argument with a dash in front is if no flag is spelled out in it. -/
def classifyByCandidates (argument : String) : Except UsageError Argument :=
  match candidates argument with
  | [(_, a)] => .ok a
  | [] =>
    if looksNegative argument || argument.toList.contains ' ' then .ok (.word argument)
    else .ok (.unknown argument)
  | several => .error (.ambiguous argument (several.map Prod.fst))

/-- What an argument before the separator is. -/
def classifyArgument (argument : String) : Except UsageError Argument :=
  if argument.toList.head? != some '-' || argument == "-" then .ok (.word argument)
  else
    match ofSpelling? argument, splitAssignment? argument with
    | some f, _ => .ok (.flag f (isShort argument) none)
    | none, none => classifyByCandidates argument
    | none, some (front, value) =>
      match ofSpelling? front with
      | some f => .ok (.flag f (isShort front) (some value))
      | none => classifyByCandidates argument

def classifyAll : List String → Except UsageError (List Argument)
  | [] => .ok []
  | "--" :: later => .ok (.separator :: later.map .word)
  | argument :: later =>
    match classifyArgument argument with
    | .error e => .error e
    | .ok a => (classifyAll later).map (a :: ·)

/-! ### The request -/

/-- What the command line asks for. -/
structure Request where
  options : Options := {}
  encoding : String := Setting.defaultEncoding
  inPlace : Bool := false
  check : Bool := false
  diff : Bool := false
  verbose : Bool := false
  source : String := ""
  /-- Empty if no output is named. -/
  output : String := ""
  deriving DecidableEq, Repr

namespace Request

def turnOn (r : Request) : Switch → Request
  | .help => r
  | .inPlace => { r with inPlace := true }
  | .check => { r with check := true }
  | .diff => { r with diff := true }
  | .ignoreCase => { r with options.ignoreCase := true }
  | .returnCloses => { r with options.returnCloses := true }
  | .noLabelMargin => { r with options.labelsInMargin := false }
  | .verbose => { r with verbose := true }

def set (r : Request) (setting : Setting) (value : String) : Except UsageError Request :=
  match setting with
  | .encoding => .ok { r with encoding := value }
  | .margin =>
    match integerOf? value.toList with
    | some n => .ok { r with options.margin := n }
    | none => .error (.notInteger .margin value)
  | .indent =>
    match integerOf? value.toList with
    | some n => .ok { r with options.indent := n }
    | none => .error (.notInteger .indent value)

end Request

/-! ### Taking arguments -/

/-- Why there is no request to carry out. -/
inductive Stop where
  | help
  | misuse (e : UsageError)
  deriving DecidableEq, Repr

/-- How far the files have been named. A separator in the run of words that names them, also one at its
end, belongs to the run. -/
inductive Naming where
  | source
  /-- The source has just been named, and an output may follow. -/
  | output
  /-- The output has just been named, and a separator may follow. -/
  | separator
  | done
  deriving DecidableEq, Repr

structure Progress where
  request : Request := {}
  /-- The setting whose value comes next. -/
  pending : Option Setting := none
  naming : Naming := .source
  /-- Arguments that nothing could be done with. -/
  leftOver : List String := []
  deriving DecidableEq, Repr

namespace Progress

/-- A flag ends the run of words that names the files. -/
def endRun (p : Progress) : Progress :=
  if p.naming = .source then p else { p with naming := .done }

def refuse (p : Progress) (argument : String) : Progress :=
  { p with leftOver := p.leftOver ++ [argument] }

def takeSwitch (p : Progress) (s : Switch) : Except Stop Progress :=
  if s = .help then .error .help else .ok { p with request := p.request.turnOn s }

def takeSwitches (p : Progress) : List Switch → Except Stop Progress
  | [] => .ok p
  | s :: later =>
    match p.takeSwitch s with
    | .error e => .error e
    | .ok p => p.takeSwitches later

def takeValue (p : Progress) (setting : Setting) (value : String) : Except Stop Progress :=
  match p.request.set setting value with
  | .error e => .error (.misuse e)
  | .ok request => .ok { p with request }

end Progress

/-- The switches of a bundle: one that comes first, and those that the letters stand for. A letter that
stands for no switch is refused together with all behind it, as a value of the switch before it: `'x'` of
`-i` in `-ix`, and `'=x'` of `-v` in `-iv=x`. (From release 3.11.9 on the first is left over as `-x`, and
the second is refused as `'x'`.) -/
def bundle (first : Switch) : List Char → Except UsageError (List Switch)
  | [] => .ok [first]
  | c :: later =>
    match ofSpelling? (Flag.shortSpelling c) with
    | some (.switch s) => (bundle s later).map (first :: ·)
    | _ => .error (.unusedValue (.switch first) (String.ofList (c :: later)))

namespace Progress

/-- Takes a flag and what is written into the same argument after it. Behind a switch with a short
spelling that is a bundle, also behind a `=`, so that `-i=v` is `-iv`. (From release 3.11.9 on a value
behind a `=` is refused there as well.) -/
def takeFlag (p : Progress) (short : Bool) : Flag → Option String → Except Stop Progress
  | .switch s, none => p.takeSwitch s
  | .switch s, some value =>
    if short && value != "" then
      match bundle s value.toList with
      | .error e => .error (.misuse e)
      | .ok switches => p.takeSwitches switches
    else .error (.misuse (.unusedValue (.switch s) value))
  | .setting s, none => .ok { p with pending := some s }
  | .setting s, some value => p.takeValue s value

/-- A word names the source, then the output, and a third one is left over. A word `--` is no output. -/
def takeWord (p : Progress) (word : String) : Progress :=
  match p.naming with
  | .source => { p with request.source := word, naming := .output }
  | .output =>
    { p with request.output := if word = "--" then "" else word, naming := .separator }
  | _ => { p with naming := .done }.refuse word

def takeSeparator (p : Progress) : Progress :=
  match p.naming with
  | .source | .output => p
  | .separator => { p with naming := .done }
  | .done => p.refuse "--"

/-- Takes one argument. -/
def take (p : Progress) (a : Argument) : Except Stop Progress :=
  match p.pending, a with
  | some s, .word value => { p with pending := none }.takeValue s value
  | some s, _ => .error (.misuse (.missingValue s))
  | none, .word word => .ok (p.takeWord word)
  | none, .separator => .ok p.takeSeparator
  | none, .unknown text => .ok (p.endRun.refuse text)
  | none, .flag flag short value? => p.endRun.takeFlag short flag value?

def takeAll (p : Progress) : List Argument → Except Stop Progress
  | [] => .ok p
  | a :: later =>
    match p.take a with
    | .error e => .error e
    | .ok p => p.takeAll later

/-- The request when all arguments have been taken. -/
def finish (p : Progress) : Except UsageError Request :=
  match p.pending, p.naming, p.leftOver with
  | some s, _, _ => .error (.missingValue s)
  | _, .source, _ => .error .missingSource
  | _, _, _ :: _ => .error (.leftOver p.leftOver)
  | _, _, [] =>
    if p.request.options.margin < 0 ∨ p.request.options.indent < 0 then .error .negativeWidth
    else .ok p.request

end Progress

/-- The request that the arguments make. -/
def readArguments (arguments : List String) : Except Stop Request :=
  match classifyAll arguments with
  | .error e => .error (.misuse e)
  | .ok as =>
    match ({} : Progress).takeAll as with
    | .error e => .error e
    | .ok p =>
      match p.finish with
      | .error e => .error (.misuse e)
      | .ok request => .ok request

end PickIndent.Command
