/-
What a command line asks for.

The options for files come before the command, and each command has options of its
own.  Every command needs its text, and nothing is carried out unless all arguments
are understood.
-/
import AnimatedGlyph.Command.Arguments
import AnimatedGlyph.Sticker.Request

namespace AnimatedGlyph
namespace Command

/-! ## Values -/

/-- The number that a run of digits makes. -/
def numberOfDigits? (digits : List Char) : Option Nat :=
  if digits.isEmpty then none
  else if digits.all fun c => '0' ≤ c && c ≤ '9' then
    some (digits.foldl (fun n c => 10 * n + (c.toNat - 48)) 0)
  else none

/-- A seed: digits, which a plus sign may precede, that make a number of 64 bits. -/
def seedOf? (value : String) : Option UInt64 := do
  let digits := match value.toList with
    | '+' :: rest => rest
    | cs => cs
  let n ← numberOfDigits? digits
  if n < UInt64.size then some (UInt64.ofNat n) else none

/-- Any value. -/
def anyText (_ : String) : Bool :=
  true

/-- A value that names a file. -/
def isPath (value : String) : Bool :=
  !value.isEmpty

def isSeed (value : String) : Bool :=
  (seedOf? value).isSome

/-! ## Invocations -/

/-- What to do. -/
inductive Task where
  /-- List the glyphs that have names. -/
  | glyphs
  | validate (text : String)
  /-- Compile a request, into a file if one is named. -/
  | compile (request : CompileRequest) (output : Option String)
  deriving DecidableEq

/-- What a command line asks for. -/
structure Invocation where
  dictionary : Option String
  settings : Option String
  /-- Whether to tell what is being done. -/
  verbose : Bool
  /-- What to do. -/
  task : Task
  deriving DecidableEq

/-- The options before the command. -/
def leadingOptions : List OptionSpec :=
  [.valued (some 'g') "glyphs" isPath, .valued (some 'c') "config" isPath,
    .flag (some 'v') "verbose", .help]

def commandNames : List String :=
  ["glyphs", "validate", "compile", "help"]

/-- The options of a report. -/
def validateOptions : List OptionSpec :=
  [.valued (some 'i') "input" anyText, .help]

/-- The options of a compilation. -/
def compileOptions : List OptionSpec :=
  [.valued (some 'i') "input" anyText, .flag none "static", .flag none "no-caption",
    .valued none "seed" isSeed, .valued (some 'o') "output" isPath, .help]

/-- The options after a command, which no other command follows. -/
def readTrailing (specs : List OptionSpec) (args : List String) : Except Halt Given := do
  let reading ← readOptions specs [] .start args
  reading.settled

/-- The value of an option that must be given. -/
def demand (given : Given) (name : String) : Except Halt String :=
  match given.lookup name with
  | some value => .ok value
  | none => .error .refused

/-- The request that options ask for. -/
def requestOf (given : Given) (text : String) : CompileRequest where
  text := text
  options := ⟨!Given.has given "static", !Given.has given "no-caption"⟩
  seed := (given.lookup "seed").bind seedOf?

/-- What a command asks for. -/
def readTask (name : String) (args : List String) : Except Halt Task := do
  if name = "glyphs" then
    let _ ← readTrailing [.help] args
    return .glyphs
  else if name = "validate" then
    let given ← readTrailing validateOptions args
    return .validate (← demand given "input")
  else if name = "compile" then
    let given ← readTrailing compileOptions args
    let text ← demand given "input"
    return .compile (requestOf given text) (given.lookup "output")
  else
    match args with
    | [] => .error .help
    | [topic] => if topic ∈ commandNames then .error .help else .error .refused
    | _ => .error .refused

/-- What a command line asks for. -/
def Invocation.parse (args : List String) : Except Halt Invocation := do
  let reading ← readOptions leadingOptions commandNames .start args
  match reading.command with
  | none => .error .refused
  | some (name, rest) =>
    let task ← readTask name rest
    let given ← reading.settled
    return ⟨given.lookup "glyphs", given.lookup "config", Given.has given "verbose", task⟩

end Command
end AnimatedGlyph
