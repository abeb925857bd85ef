import Waymark.Text.Split

/-!
# Arguments

A command line names a command, with options in front of it and behind it. Two options are known
everywhere: one for silence and one for the log level, which changes nothing here. Three commands
have a flag of their own. An option may be given once in front of the command and once behind it.

* `Word.ofString`: what an argument is by its form;
* `readLevel`: the options in front of a command, or those behind it;
* `Request.read`: what a whole command line asks for.
-/

namespace Waymark.CommandLine

/-- The commands. -/
inductive Command where
  | routes
  | validate
  | generate
  | build
deriving DecidableEq

namespace Command

/-- Every command. -/
def all : List Command := [routes, validate, generate, build]

/-- The name of a command. -/
def name : Command → String
  | routes => "routes"
  | validate => "validate"
  | generate => "generate"
  | build => "build"

/-- The flag that only this command knows. -/
def flag? : Command → Option String
  | routes => some "json"
  | validate => some "strict"
  | build => some "debug"
  | generate => none

/-- The command of a name. -/
def ofName? (name : String) : Option Command := all.find? (·.name = name)

end Command

/-- A command with its options. -/
structure Invocation where
  command : Command
  /-- The flag of the command is given. -/
  flag : Bool
  quiet : Bool
deriving DecidableEq

/-- What a command line asks for. -/
inductive Request where
  | run (invocation : Invocation)
  | help (command : Option Command)
  | version
deriving DecidableEq

/-- Why a command line cannot be read. -/
inductive UsageFault where
  | unexpected (argument : String)
  | repeated (option : String)
  | missingValue (option : String)
  | superfluousValue (option : String)
  | unknownCommand (name : String)
  | noCommand
deriving DecidableEq

/-- The wording of a fault. -/
def UsageFault.message : UsageFault → String
  | unexpected argument => "unexpected argument '" ++ argument ++ "'"
  | repeated option => "the argument '" ++ option ++ "' cannot be used multiple times"
  | missingValue option => "a value is required for '" ++ option ++ "'"
  | superfluousValue option => "'" ++ option ++ "' takes no value"
  | unknownCommand name => "unrecognized subcommand '" ++ name ++ "'"
  | noCommand => "a subcommand is required"

/-- What an argument is by its form. -/
inductive Word where
  | option (name : String) (value : Option String)
  | letters (letters : List Char)
  /-- Two dashes alone, behind which there are no options. -/
  | endOfOptions
  | plain (text : String)
deriving DecidableEq

/-- What an argument is: two dashes begin an option, whose value may follow an equals sign, and one
dash begins letters. A dash alone is a plain argument. -/
def Word.ofString (argument : String) : Word :=
  match argument.toList with
  | ['-', '-'] => endOfOptions
  | '-' :: '-' :: rest =>
    let name := String.ofList (rest.takeWhile (· ≠ '='))
    match rest.dropWhile (· ≠ '=') with
    | [] => option name none
    | _ :: value => option name (some (String.ofList value))
  | '-' :: c :: rest => letters (c :: rest)
  | _ => plain argument

/-- The argument can be the value of an option that stands in front of it. -/
def isValue (argument : String) : Bool :=
  match Word.ofString argument with
  | .plain _ => true
  | .option _ _ | .letters _ | .endOfOptions => false

/-- The options that are known in one place of a command line. -/
structure Level where
  /-- The flag of the command in front. -/
  flag? : Option String
  hasVersion : Bool

/-- The options that were given in one place. -/
structure Given where
  quiet : Bool
  logLevel : Bool
  flag : Bool
deriving DecidableEq

/-- No option is given. -/
def Given.none : Given := ⟨false, false, false⟩

/-- What ends the options of one place. -/
inductive Ending where
  | done
  | word (text : String) (rest : List String)
  | help
  | version
deriving DecidableEq

/-- Adds the option for silence. -/
def giveQuiet (given : Given) : Except UsageFault Given :=
  if given.quiet then .error (.repeated "--quiet") else .ok { given with quiet := true }

/-- Adds the option for the log level. -/
def giveLogLevel (given : Given) : Except UsageFault Given :=
  if given.logLevel then .error (.repeated "--log-level") else .ok { given with logLevel := true }

/-- Adds the flag of a command. -/
def giveFlag (name : String) (given : Given) : Except UsageFault Given :=
  if given.flag then .error (.repeated ("--" ++ name)) else .ok { given with flag := true }

/-- Reads letters behind a dash, up to one that asks for help or the version. -/
def readLetters (level : Level) (given : Given) :
    List Char → Except UsageFault (Given × Option Ending)
  | [] => .ok (given, none)
  | c :: rest =>
    if c = 'q' then
      match giveQuiet given with
      | .error fault => .error fault
      | .ok given => readLetters level given rest
    else if c = 'h' then .ok (given, some .help)
    else if c = 'V' && level.hasVersion then .ok (given, some .version)
    else .error (.unexpected (String.ofList ['-', c]))

/-- Reads an option that takes no value. -/
def readOption (level : Level) (given : Given) (name : String) :
    Except UsageFault (Given × Option Ending) :=
  if name = "quiet" then (giveQuiet given).map (·, none)
  else if name = "help" then .ok (given, some .help)
  else if name = "version" && level.hasVersion then .ok (given, some .version)
  else if level.flag? = some name then (giveFlag name given).map (·, none)
  else .error (.unexpected ("--" ++ name))

/-- Reads the options of one place, and what ends them. -/
def readLevel (level : Level) (given : Given) : List String → Except UsageFault (Given × Ending)
  | [] => .ok (given, .done)
  | argument :: rest =>
    match Word.ofString argument with
    | .endOfOptions =>
      match rest with
      | [] => .ok (given, .done)
      | next :: _ => .error (.unexpected next)
    | .plain text => .ok (given, .word text rest)
    | .letters letters =>
      match readLetters level given letters with
      | .error fault => .error fault
      | .ok (given, some ending) => .ok (given, ending)
      | .ok (given, none) => readLevel level given rest
    | .option "log-level" (some _) =>
      match giveLogLevel given with
      | .error fault => .error fault
      | .ok given => readLevel level given rest
    | .option "log-level" none =>
      match rest with
      | [] => .error (.missingValue "--log-level")
      | value :: rest =>
        if isValue value then
          match giveLogLevel given with
          | .error fault => .error fault
          | .ok given => readLevel level given rest
        else .error (.missingValue "--log-level")
    | .option name value =>
      match readOption level given name, value with
      | .error fault, _ => .error fault
      | .ok _, some _ => .error (.superfluousValue ("--" ++ name))
      | .ok (given, some ending), none => .ok (given, ending)
      | .ok (given, none), none => readLevel level given rest

/-- Reads the names behind the command for help. -/
def readHelp : List String → Except UsageFault Request
  | [] => .ok (.help none)
  | ["help"] => .ok (.help none)
  | name :: rest =>
    match Command.ofName? name, rest with
    | none, _ => .error (.unknownCommand name)
    | some c, [] => .ok (.help (some c))
    | some _, next :: _ => .error (.unknownCommand next)

/-- Reads what stands behind a command. -/
def readCommand (command : Command) (quiet : Bool) (arguments : List String) :
    Except UsageFault Request :=
  match readLevel ⟨command.flag?, false⟩ Given.none arguments with
  | .error fault => .error fault
  | .ok (given, .done) => .ok (.run ⟨command, given.flag, quiet || given.quiet⟩)
  | .ok (_, .word text _) => .error (.unexpected text)
  | .ok (_, .help) => .ok (.help (some command))
  | .ok (_, .version) => .ok .version

/-- Reads a command line. -/
def Request.read (arguments : List String) : Except UsageFault Request :=
  match readLevel ⟨none, true⟩ Given.none arguments with
  | .error fault => .error fault
  | .ok (_, .done) => .error .noCommand
  | .ok (_, .help) => .ok (.help none)
  | .ok (_, .version) => .ok .version
  | .ok (given, .word text rest) =>
    if text = "help" then readHelp rest
    else match Command.ofName? text with
      | none => .error (.unknownCommand text)
      | some command => readCommand command given.quiet rest

end Waymark.CommandLine
