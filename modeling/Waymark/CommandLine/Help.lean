import Waymark.CommandLine.Arguments
import Waymark.Text.Padded

/-!
# Help

The texts that explain the command line.
-/

namespace Waymark.CommandLine

open Waymark.Text (padded)

/-- The name of the program. -/
def program : String := "trellis"

/-- The program with its version. -/
def versionText : String := program ++ " 0.1.0\n"

/-- What a command does. -/
def Command.about : Command → String
  | routes => "List discovered routes, middleware and problems"
  | validate => "Scan the app directory and report problems"
  | generate => "Write the generated handlers and route registration"
  | build => "Generate, then build the project with cargo"

/-- What the flag of a command does. -/
def Command.flagAbout : Command → String
  | routes => "Print the full scan result as JSON"
  | validate => "Fail when two files define the same route"
  | build => "Build in debug mode even if trellis.toml asks for release"
  | generate => ""

/-- A line of options. -/
def optionLine (option about : String) : String :=
  "  " ++ padded .left 27 option ++ "  " ++ about ++ "\n"

/-- The options of a command, or those in front of all commands. -/
def optionLines (command : Option Command) : String :=
  let flag := command.bind fun c => c.flag?.map fun f => optionLine ("    --" ++ f) c.flagAbout
  flag.getD ""
    ++ optionLine "    --log-level <LOG_LEVEL>"
      "Log level: error, warn, info, debug, trace [default: warn]"
    ++ optionLine "-q, --quiet" "Quiet mode: only show errors (useful for CI)"
    ++ optionLine "-h, --help" "Print help"
    ++ (if command.isNone then optionLine "-V, --version" "Print version" else "")

/-- A line of commands. -/
def commandLine (name about : String) : String :=
  "  " ++ padded .left 8 name ++ "  " ++ about ++ "\n"

/-- The commands. -/
def commandLines : String :=
  String.join (Command.all.map fun c => commandLine c.name c.about)
    ++ commandLine "help" "Print this message or the help of the given subcommand(s)"

/-- The help for a command, or for the whole program. -/
def helpText (command : Option Command) : String :=
  match command with
  | none =>
    "File-system routing for Rust web apps\n\nUsage: " ++ program
      ++ " [OPTIONS] <COMMAND>\n\nCommands:\n"
      ++ commandLines ++ "\nOptions:\n" ++ optionLines none
  | some c =>
    c.about ++ "\n\nUsage: " ++ program ++ " " ++ c.name ++ " [OPTIONS]\n\nOptions:\n"
      ++ optionLines (some c)

end Waymark.CommandLine
