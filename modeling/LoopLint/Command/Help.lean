/-!
# Help texts
-/

namespace LoopLint.Help

/-- The options of all commands, as the short texts show them. -/
def globalOptions : List String :=
  ["Global options:",
   "      --log-level <LOG_LEVEL>  The log level. One of: `error`, `warn`, `info`, `debug`, or `trace`. Defaults to `warn` [possible values: error, warn, info, debug, trace]",
   "      --no-color               Disable colored output. To turn colored output off, either set this option or set the environment variable `NO_COLOR` to any non-zero value"]

/-- The help text of the program. -/
def program : List String :=
  ["forof: Find counted for loops that should be for...of loops",
   "",
   "Usage: forof [OPTIONS] <COMMAND>",
   "",
   "Commands:",
   "  check  Check a set of files or directories",
   "  help   Print this message or the help of the given subcommand(s)",
   "",
   "Options:",
   "  -h, --help     Print help",
   "  -V, --version  Print version",
   ""] ++ globalOptions ++
  ["",
   "For help with a specific command, see: `forof help <command>`."]

/-- The short help text of the check command. -/
def checkShort : List String :=
  ["Check a set of files or directories",
   "",
   "Usage: forof check [OPTIONS] <FILES>...",
   "",
   "Arguments:",
   "  <FILES>...  List of files or directories to check, for example `forof check .`.",
   "",
   "Options:",
   "  -w, --with-timing                    Show the time taken by the function.",
   "      --output-format <OUTPUT_FORMAT>  Output serialization format for violations. [default: full] [possible values: full, concise, github, json]",
   "      --no-default-exclude             Do not apply the default set of excluded patterns (e.g. `node_modules/`).",
   "  -h, --help                           Print help (see more with '--help')",
   ""] ++ globalOptions

/-- The long help text of the check command. -/
def checkLong : List String :=
  ["Check a set of files or directories",
   "",
   "Usage: forof check [OPTIONS] <FILES>...",
   "",
   "Arguments:",
   "  <FILES>...",
   "          List of files or directories to check, for example `forof check .`.",
   "",
   "Options:",
   "  -w, --with-timing",
   "          Show the time taken by the function.",
   "",
   "      --output-format <OUTPUT_FORMAT>",
   "          Output serialization format for violations.",
   "",
   "          Possible values:",
   "          - full:    Print diagnostics with full context using annotated code snippets",
   "          - concise: Print diagnostics in a concise format, one per line",
   "          - github:  Print diagnostics as GitHub format",
   "          - json:    Print diagnostics as JSON",
   "          ",
   "          [default: full]",
   "",
   "      --no-default-exclude",
   "          Do not apply the default set of excluded patterns (e.g. `node_modules/`).",
   "",
   "  -h, --help",
   "          Print help (see a summary with '-h')",
   "",
   "Global options:",
   "      --log-level <LOG_LEVEL>",
   "          The log level. One of: `error`, `warn`, `info`, `debug`, or `trace`. Defaults to `warn`",
   "          ",
   "          [possible values: error, warn, info, debug, trace]",
   "",
   "      --no-color",
   "          Disable colored output. To turn colored output off, either set this option or set the environment variable `NO_COLOR` to any non-zero value"]

/-- The help text of the help command. -/
def help : List String :=
  ["Print this message or the help of the given subcommand(s)",
   "",
   "Usage: forof help [COMMAND]...",
   "",
   "Arguments:",
   "  [COMMAND]...  Print help for the subcommand(s)"]

/-- The text of some lines. -/
def text (lines : List String) : String :=
  String.join (lines.map (· ++ "\n"))

/-- The version of the program. -/
def version : String := "forof 0.1.0\n"

end LoopLint.Help
