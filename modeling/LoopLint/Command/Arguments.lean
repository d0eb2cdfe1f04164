import LoopLint.Command.Check

/-!
# Arguments

A command takes options, which start with dashes, and words.  An option is a flag, or takes one of
several values, which is the next argument or stands behind an equals sign; a value that is still to
come is only looked at when the argument after it is read.  Behind a double dash all arguments are
words.
-/

namespace LoopLint

/-- What an option does. -/
inductive OptionKind where
  | flag
  /-- Takes one of some values. -/
  | choice (values : List String)
  | help
  | version
deriving DecidableEq, Repr

/-- An option. -/
structure OptionRule where
  name : String
  letter : Option Char
  kind : OptionKind
  /-- The option as it is shown. -/
  shown : String
deriving DecidableEq, Repr

namespace OptionRule

/-- `-h`, `--help`. -/
def help : OptionRule := ⟨"help", some 'h', .help, "--help"⟩

/-- `-V`, `--version`. -/
def version : OptionRule := ⟨"version", some 'V', .version, "--version"⟩

/-- `-w`, `--with-timing`. -/
def withTiming : OptionRule := ⟨"with-timing", some 'w', .flag, "--with-timing"⟩

/-- `--output-format`. -/
def outputFormat : OptionRule :=
  ⟨"output-format", none, .choice (ReportFormat.all.map (·.name)),
    "--output-format <OUTPUT_FORMAT>"⟩

/-- `--no-default-exclude`. -/
def noDefaultExclude : OptionRule :=
  ⟨"no-default-exclude", none, .flag, "--no-default-exclude"⟩

/-- `--log-level`. -/
def logLevel : OptionRule :=
  ⟨"log-level", none, .choice (LogLevel.all.map (·.name)), "--log-level <LOG_LEVEL>"⟩

/-- `--no-color`. -/
def noColor : OptionRule := ⟨"no-color", none, .flag, "--no-color"⟩

/-- The options of the check command. -/
def ofCheck : List OptionRule := [withTiming, outputFormat, noDefaultExclude, help]

/-- The options that may stand before a command and behind it. -/
def global : List OptionRule := [logLevel, noColor]

end OptionRule

/-- Why arguments do not lead to a run. -/
inductive UsageError where
  /-- Help was asked for, in the long form or in the short one. -/
  | help (long : Bool)
  /-- Nothing was given. -/
  | nothingGiven
  | version
  | unknownArgument (arg : String)
  | missingValue (option : String)
  | invalidValue (value option : String)
  | unneededValue (value option : String)
  | repeated (option : String)
  | missingFiles
  | unknownCommand (name : String)
  | missingCommand
deriving DecidableEq, Repr

/-- What is said of a mistake; requests for help or for the version are none. -/
def UsageError.text? : UsageError → Option String
  | help _ | nothingGiven | version => none
  | unknownArgument arg => some ("unexpected argument '" ++ arg ++ "' found")
  | missingValue option =>
    some ("a value is required for '" ++ option ++ "' but none was supplied")
  | invalidValue value option => some ("invalid value '" ++ value ++ "' for '" ++ option ++ "'")
  | unneededValue value option =>
    some ("unexpected value '" ++ value ++ "' for '" ++ option ++ "' found; no more were expected")
  | repeated option => some ("the argument '" ++ option ++ "' cannot be used multiple times")
  | missingFiles => some "the following required arguments were not provided:"
  | unknownCommand name => some ("unrecognized subcommand '" ++ name ++ "'")
  | missingCommand => some "'forof' requires a subcommand but one was not provided"

/-- What was given so far: options with their values, words, and an option whose value is not
settled. -/
structure Given where
  options : List (String × String)
  words : List String
  pending : Option (OptionRule × Option String)
deriving DecidableEq, Repr

namespace Given

/-- Nothing was given. -/
def nothing : Given := ⟨[], [], none⟩

/-- Whether an option was given. -/
def has (g : Given) (o : OptionRule) : Bool :=
  g.options.any (fun e => e.1 == o.name)

/-- The value of an option. -/
def value? (g : Given) (o : OptionRule) : Option String :=
  (g.options.find? (fun e => e.1 == o.name)).map (·.2)

/-- Takes an option with a value. -/
def put (g : Given) (o : OptionRule) (value : String) : Except UsageError Given :=
  if g.has o then .error (.repeated o.shown)
  else match o.kind with
    | .choice values =>
      if values.contains value then .ok { g with options := g.options ++ [(o.name, value)] }
      else if value = "" then .error (.missingValue o.shown)
      else .error (.invalidValue value o.shown)
    | _ => .ok { g with options := g.options ++ [(o.name, value)] }

/-- Takes the option whose value was not settled. -/
def settle (g : Given) : Except UsageError Given :=
  match g.pending with
  | none => .ok g
  | some (o, none) => .error (.missingValue o.shown)
  | some (o, some value) => { g with pending := none }.put o value

/-- Takes an option without a value, or with one behind an equals sign.  `long` says how it was
written. -/
def take (g : Given) (o : OptionRule) (long : Bool) (value : Option String) :
    Except UsageError Given :=
  match o.kind, value with
  | .choice _, some v => do (← g.settle).put o v
  | .choice _, none => do
    let g ← g.settle
    .ok { g with pending := some (o, none) }
  | _, some v => .error (.unneededValue v o.shown)
  | .flag, none => do (← g.settle).put o ""
  | .help, none => do
    let _ ← g.settle
    .error (.help long)
  | .version, none => do
    let _ ← g.settle
    .error .version

/-- Takes an option by its name. -/
def takeLong (rules : List OptionRule) (g : Given) (arg : List Char) : Except UsageError Given :=
  let name := String.ofList (arg.takeWhile (· ≠ '='))
  let value := match arg.dropWhile (· ≠ '=') with
    | _ :: v => some (String.ofList v)
    | [] => none
  match rules.find? (fun o => o.name == name) with
  | some o => g.take o true value
  | none => .error (.unknownArgument ("--" ++ name))

/-- Takes options by their letters. -/
def takeLetters (rules : List OptionRule) (g : Given) : List Char → Except UsageError Given
  | [] => .ok g
  | c :: cs =>
    match rules.find? (fun o => o.letter == some c) with
    | some o => do takeLetters rules (← g.take o false none) cs
    | none => .error (.unknownArgument ("-" ++ String.ofList [c]))

/-- Takes an argument that looks like an option.  A single dash does not. -/
def takeOption? (rules : List OptionRule) (g : Given) (arg : String) :
    Option (Except UsageError Given) :=
  match arg.toList with
  | '-' :: '-' :: cs => some (g.takeLong rules cs)
  | '-' :: c :: cs => some (g.takeLetters rules (c :: cs))
  | _ => none

/-- Takes a word. -/
def takeWord (g : Given) (word : String) : Except UsageError Given := do
  let g ← g.settle
  .ok { g with words := g.words ++ [word] }

/-- Whether the value of an option is still to come. -/
def awaitsValue (g : Given) : Bool :=
  match g.pending with
  | some (_, none) => true
  | _ => false

/-- Takes the value that was still to come. -/
def supply (g : Given) (value : String) : Given :=
  { g with pending := g.pending.map (fun p => (p.1, some value)) }

/-- Takes all arguments, for a command that takes words. -/
def takeAll (rules : List OptionRule) (g : Given) : List String → Except UsageError Given
  | [] => g.settle
  | arg :: rest =>
    if arg = "--" then do (← rest.foldlM takeWord g).settle
    else match g.takeOption? rules arg with
      | some result => do takeAll rules (← result) rest
      | none =>
        if g.awaitsValue then takeAll rules (g.supply arg) rest
        else do takeAll rules (← g.takeWord arg) rest

end Given

/-- Options that are not those of a single command. -/
structure GlobalOptions where
  logLevel : Option LogLevel
  noColor : Bool
deriving DecidableEq, Repr

namespace GlobalOptions

/-- The options among those that were given. -/
def ofGiven (g : Given) : GlobalOptions where
  logLevel := (g.value? .logLevel).bind LogLevel.ofName?
  noColor := g.has .noColor

/-- The options of two places; those of the second one count. -/
def merge (a b : GlobalOptions) : GlobalOptions where
  logLevel := b.logLevel.or a.logLevel
  noColor := a.noColor || b.noColor

end GlobalOptions

namespace CheckOptions

/-- The options among those that were given. -/
def ofGiven (g : Given) : CheckOptions where
  files := g.words
  withTiming := g.has .withTiming
  format := ((g.value? .outputFormat).bind ReportFormat.ofName?).getD ReportFormat.default
  noDefaultExclude := g.has .noDefaultExclude

/-- What the arguments of the check command give.  At least one file is needed. -/
def given (rules : List OptionRule) (args : List String) : Except UsageError Given := do
  let g ← Given.nothing.takeAll rules args
  if g.options.isEmpty ∧ g.words.isEmpty then .error .nothingGiven
  else if g.words.isEmpty then .error .missingFiles
  else .ok g

/-- The options that the arguments of the check command stand for. -/
def parse (args : List String) : Except UsageError CheckOptions :=
  (given OptionRule.ofCheck args).map ofGiven

end CheckOptions
end LoopLint
