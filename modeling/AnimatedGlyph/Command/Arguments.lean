/-
Options on a command line.

An option has a long name after two hyphens and may have a letter after one.  A value
follows its option as an argument of its own, or in the same argument: after an equals
sign, or straight after the letter.  Letters of options without values may stand
together.  A value in an argument of its own does not start with a hyphen, unless it
is nothing else.  No option is given twice.

Reading goes on until a word that is one of a set of commands.  Any other word is
refused, and after two hyphens on their own nothing may follow.

A value in the argument of its option is checked at once.  A value in an argument of
its own is held until the next option is met, and where reading ends before that, it
is still held.  So what a command finds wrong with its own arguments, or help that is
asked for there, comes before a fault in the last value ahead of the command.
-/

namespace AnimatedGlyph
namespace Command

/-- Why arguments are not carried out. -/
inductive Halt where
  /-- They are not understood. -/
  | refused
  /-- Help is asked for. -/
  | help
  deriving DecidableEq

structure OptionSpec where
  letter : Option Char
  name : String
  /-- Which values it takes, if it takes one. -/
  accepts : Option (String → Bool)

namespace OptionSpec

/-- An option without a value. -/
def flag (letter : Option Char) (name : String) : OptionSpec :=
  ⟨letter, name, none⟩

def valued (letter : Option Char) (name : String) (accepts : String → Bool) : OptionSpec :=
  ⟨letter, name, some accepts⟩

/-- The option that asks for help. -/
def help : OptionSpec :=
  flag (some 'h') "help"

end OptionSpec

/-- The options that were given, with their values; a flag has an empty value. -/
abbrev Given := List (String × String)

/-- Whether an option was given. -/
def Given.has (given : Given) (name : String) : Bool :=
  (given.lookup name).isSome

/-- Add an option that was given with a value. -/
def addValue (spec : OptionSpec) (value : String) (given : Given) : Except Halt Given :=
  match spec.accepts with
  | none => .error .refused
  | some accepts =>
    if Given.has given spec.name then .error .refused
    else if accepts value then .ok ((spec.name, value) :: given)
    else .error .refused

/-- Add an option that was given without a value. -/
def addFlag (spec : OptionSpec) (given : Given) : Except Halt Given :=
  if spec.name = OptionSpec.help.name then .error .help
  else if Given.has given spec.name then .error .refused
  else .ok ((spec.name, "") :: given)

/-- An option with a value that has not been checked. -/
abbrev HeldValue := OptionSpec × String

/-- Check a value that was held, if there is one, and add its option. -/
def settleHeld : Option HeldValue → Given → Except Halt Given
  | none, given => .ok given
  | some (spec, value), given => addValue spec value given

/-- What reading is waiting for. -/
inductive Awaited where
  /-- The next option or the command, with a value that may still be held. -/
  | option (held : Option HeldValue)
  | value (spec : OptionSpec)

/-- What has been read: the options with their values, and what comes next. -/
structure Progress where
  /-- The options with their values. -/
  given : Given
  /-- What comes next. -/
  awaited : Awaited

namespace Progress

/-- Nothing has been read. -/
def start : Progress := ⟨[], .option none⟩

/-- All options that were met are complete. -/
def complete (given : Given) : Progress := ⟨given, .option none⟩

end Progress

/-- Whether the argument is something other than a value. -/
def startsOption (arg : String) : Bool :=
  match arg.toList with
  | '-' :: _ :: _ => true
  | _ => false

/-- Read the letters of an argument. -/
def readLetters (specs : List OptionSpec) : List Char → Given → Except Halt Progress
  | [], given => .ok (.complete given)
  | c :: rest, given =>
    match specs.find? fun spec => spec.letter == some c with
    | none => .error .refused
    | some spec =>
      if spec.accepts.isNone then do
        let given ← addFlag spec given
        readLetters specs rest given
      else
        match rest with
        | [] => .ok ⟨given, .value spec⟩
        | '=' :: value => (addValue spec (String.ofList value) given).map .complete
        | value => (addValue spec (String.ofList value) given).map .complete

/-- Read a long name, with a value if an equals sign follows. -/
def readName (specs : List OptionSpec) (cs : List Char) (given : Given) : Except Halt Progress :=
  let name := String.ofList (cs.takeWhile (· != '='))
  match specs.find? fun spec => spec.name == name with
  | none => .error .refused
  | some spec =>
    match cs.dropWhile (· != '='), spec.accepts with
    | _ :: value, _ => (addValue spec (String.ofList value) given).map .complete
    | [], none => (addFlag spec given).map .complete
    | [], some _ => .ok ⟨given, .value spec⟩

/-- Read an argument that no option waits for. -/
def readArgument (specs : List OptionSpec) (arg : String) (given : Given) : Except Halt Progress :=
  match arg.toList with
  | '-' :: '-' :: name => readName specs name given
  | '-' :: c :: rest => readLetters specs (c :: rest) given
  | _ => .error .refused

/-- What options come to. -/
structure Reading where
  /-- The options with their values. -/
  given : Given
  /-- The last value, if it is still held. -/
  held : Option HeldValue
  /-- The command that ended the options, and what follows it. -/
  command : Option (String × List String)

/-- All options of a reading, the last one included. -/
def Reading.settled (reading : Reading) : Except Halt Given :=
  settleHeld reading.held reading.given

/-- Read options up to the first of the words `commands`. -/
def readOptions (specs : List OptionSpec) (commands : List String) :
    Progress → List String → Except Halt Reading
  | ⟨given, .option held⟩, [] => .ok ⟨given, held, none⟩
  | ⟨_, .value _⟩, [] => .error .refused
  | ⟨given, .value spec⟩, arg :: rest =>
    if startsOption arg then .error .refused
    else readOptions specs commands ⟨given, .option (some (spec, arg))⟩ rest
  | ⟨given, .option held⟩, arg :: rest => do
    if arg ∈ commands then .ok ⟨given, held, some (arg, rest)⟩
    else if arg = "--" then if rest = [] then .ok ⟨given, held, none⟩ else .error .refused
    else
      let given ← settleHeld held given
      let progress ← readArgument specs arg given
      readOptions specs commands progress rest

end Command
end AnimatedGlyph
