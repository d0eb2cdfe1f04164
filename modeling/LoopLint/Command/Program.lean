import LoopLint.Command.Arguments
import LoopLint.Command.Help
import LoopLint.Log.Filter

/-!
# The program

What the program prints and the number that it ends with, for given arguments and a given world.
The log that is printed holds the program's own entries only; those of libraries are not modelled.
-/

namespace LoopLint

/-- What a help text is about. -/
inductive HelpTopic where
  | program
  | check
  | help
deriving DecidableEq, Repr

/-- The help text on a topic.  Only the check command has a long form. -/
def HelpTopic.text : HelpTopic → Bool → String
  | program, _ => Help.text Help.program
  | check, true => Help.text Help.checkLong
  | check, false => Help.text Help.checkShort
  | help, _ => Help.text Help.help

/-- Arguments that do not lead to a run, and the command that they belong to. -/
structure Refusal where
  topic : HelpTopic
  error : UsageError
deriving DecidableEq, Repr

/-- What the program prints, and the number that it ends with. -/
structure ProgramResult where
  code : Nat
  output : String
  errors : String
deriving DecidableEq, Repr

/-- What is printed instead of a run. -/
def Refusal.result (r : Refusal) : ProgramResult :=
  match r.error with
  | .help long => ⟨0, r.topic.text long, ""⟩
  | .version => ⟨0, Help.version, ""⟩
  | .nothingGiven => ⟨2, "", r.topic.text false⟩
  | e => ⟨2, "", "error: " ++ e.text?.getD "" ++ "\n"⟩

/-- What the program is asked to do. -/
structure Invocation where
  options : GlobalOptions
  check : CheckOptions
deriving DecidableEq, Repr

namespace Invocation

/-- The options before the command. -/
def rules : List OptionRule := OptionRule.global ++ [.help, .version]

/-- The names of the commands. -/
def commands : List String := ["check", "help"]

/-- A refusal that belongs to a command. -/
def refuse {α : Type} (topic : HelpTopic) : Except UsageError α → Except Refusal α
  | .ok a => .ok a
  | .error e => .error ⟨topic, e⟩

/-- The arguments of the check command. -/
def ofCheck (before : Given) (args : List String) : Except Refusal Invocation := do
  let g ← refuse .check (CheckOptions.given (OptionRule.ofCheck ++ OptionRule.global) args)
  let before ← refuse .program before.settle
  .ok ⟨(GlobalOptions.ofGiven before).merge (GlobalOptions.ofGiven g), CheckOptions.ofGiven g⟩

/-- The arguments of the help command. -/
def ofHelp : List String → Refusal
  | [] => ⟨.program, .help true⟩
  | ["check"] => ⟨.check, .help true⟩
  | ["help"] => ⟨.help, .help true⟩
  | "check" :: word :: _ => ⟨.check, .unknownCommand word⟩
  | "help" :: word :: _ => ⟨.help, .unknownCommand word⟩
  | word :: _ => ⟨.program, .unknownCommand word⟩

/-- No command was named. -/
def ofNothing (g : Given) : Except Refusal Invocation := do
  let g ← refuse .program g.settle
  .error ⟨.program, if g.options.isEmpty then .nothingGiven else .missingCommand⟩

/-- What the arguments ask for, given the options before them. -/
def parseFrom (g : Given) : List String → Except Refusal Invocation
  | [] => ofNothing g
  | "--" :: [] => ofNothing g
  | "--" :: word :: _ =>
    .error ⟨.program,
      if commands.contains word then .unknownArgument word else .unknownCommand word⟩
  | arg :: rest =>
    match g.takeOption? rules arg with
    | some result => do parseFrom (← refuse .program result) rest
    | none =>
      if g.awaitsValue then parseFrom (g.supply arg) rest
      else if arg = "check" then ofCheck g rest
      else if arg = "help" then .error (ofHelp rest)
      else .error ⟨.program, .unknownCommand arg⟩

/-- What the arguments ask for. -/
def parse (args : List String) : Except Refusal Invocation :=
  parseFrom Given.nothing args

/-- Which log entries are shown: a variable decides, and otherwise an option. -/
def logFilter (env : Environment) (i : Invocation) : LogFilter :=
  ((env.value? "FOROF_LOG").bind LogFilter.parse?).getD
    (LogFilter.ofLevel (i.options.logLevel.getD LogLevel.default))

/-- Whether log entries are coloured. -/
def logColor (env : Environment) (i : Invocation) : Bool :=
  !i.options.noColor && (env.value? "NO_COLOR").isNone

/-- Whether the report is coloured.  It has to be asked for, since the output is no terminal. -/
def reportColor (env : Environment) (i : Invocation) : Bool :=
  !i.options.noColor &&
    match env.value? "CLICOLOR_FORCE" with
    | some v => v != "0"
    | none => false

/-- Runs what was asked for. -/
def run (env : Environment) (parse : Parser) (elapsed : String) (i : Invocation) : ProgramResult :=
  let result := i.check.run env parse (i.reportColor env) elapsed
  let shown := result.log.filter (i.logFilter env).allows
  let log := String.join (shown.map (·.line (i.logColor env)))
  match result.value with
  | .ok r => ⟨r.status.code, r.output, log ++ r.errors⟩
  | .error e => ⟨ExitStatus.error.code, "", log ++ "forof failed\n  Cause: " ++ e.text ++ "\n"⟩

end Invocation

/-- Runs the program.  `elapsed` is the text for the time that a check takes. -/
def runProgram (env : Environment) (parse : Parser) (elapsed : String) (args : List String) :
    ProgramResult :=
  match Invocation.parse args with
  | .ok i => i.run env parse elapsed
  | .error r => r.result

end LoopLint
