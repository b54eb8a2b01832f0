import Chip8.Console
import Chip8.Text.Decimal

/-!
The arguments of the emulator.

Arguments are read from left to right, and the first one that is wrong decides: `parse` then
refuses, whatever follows. A request for help or for the version is answered at once where it
stands. An option with a value takes it from behind a `=` or from the next argument, unless that
looks like an option itself. After `--` all arguments are positional.
-/

namespace Chip8.CommandLine

/-- What the arguments ask for. -/
structure Options where
  path : String
  hertz : Nat := Console.defaultHertz
  /-- Requests for more log output; more than 255 count as 255. -/
  verbosity : Nat := 0
  /-- Whether the program starts paused, to be stepped. -/
  stepping : Bool := false
  /-- Frames that run before the program is shown. -/
  startFrame : UInt64 := 0
  /-- The seed of the random bytes. -/
  seed : Option Nat := none
  deriving DecidableEq

/-- What became of the arguments. -/
inductive Parsed where
  | run (options : Options)
  | help
  | version
  | refuse
  deriving DecidableEq

inductive NumberOption where
  | hertz
  | startFrame
  | seed
  deriving DecidableEq

/-- The arguments read so far. -/
structure Partial where
  path : Option String := none
  hertz : Option Nat := none
  startFrame : Option Nat := none
  seed : Option Nat := none
  stepping : Bool := false
  verbosity : Nat := 0
  deriving DecidableEq

/-- The largest number that an option takes. -/
def maxNumber : Nat := UInt64.size - 1

/-- The most requests for log output that are counted. -/
def maxVerbosity : Nat := 255

/-- Whether an argument looks like an option; a lone dash does not. -/
def looksLikeOption (argument : String) : Bool :=
  match argument.toList with
  | '-' :: _ :: _ => true
  | _ => false

namespace Partial

/-- Sets an option to a number, if that was not done before. -/
def setNumber (p : Partial) (option : NumberOption) (value : Nat) : Option Partial :=
  match option with
  | .hertz => if p.hertz.isSome then none else some { p with hertz := some value }
  | .startFrame => if p.startFrame.isSome then none else some { p with startFrame := some value }
  | .seed => if p.seed.isSome then none else some { p with seed := some value }

def setText (p : Partial) (option : NumberOption) (text : String) : Option Partial :=
  (Text.decimal? maxNumber text.toList).bind (p.setNumber option)

/-- Takes the path of the program, which is named once and is not empty. -/
def setPath (p : Partial) (path : String) : Option Partial :=
  if p.path.isSome || path.isEmpty then none else some { p with path := some path }

def raiseVerbosity (p : Partial) : Partial :=
  { p with verbosity := min (p.verbosity + 1) maxVerbosity }

def finish (p : Partial) : Parsed :=
  match p.path with
  | none => .refuse
  | some path =>
    .run
      { path
        hertz := p.hertz.getD Console.defaultHertz
        verbosity := p.verbosity
        stepping := p.stepping
        startFrame := UInt64.ofNat (p.startFrame.getD 0)
        seed := p.seed }

end Partial

/-- What an argument that looks like an option says. -/
inductive Flag where
  | step
  | verbose
  | help
  | version
  /-- An option whose value is the next argument. -/
  | number (option : NumberOption)
  | assigned (option : NumberOption) (text : String)
  deriving DecidableEq

/-- The option with a number that has a given name. -/
def NumberOption.named? : String → Option NumberOption
  | "hertz" => some .hertz
  | "start-frame" => some .startFrame
  | "seed" => some .seed
  | _ => none

/-- What the part of an argument behind `--` says. -/
def Flag.long? (text : List Char) : Option Flag :=
  let name := String.ofList (text.takeWhile (· != '='))
  match text.dropWhile (· != '=') with
  | [] =>
    match name with
    | "step" => some .step
    | "verbose" => some .verbose
    | "help" => some .help
    | "version" => some .version
    | name => (NumberOption.named? name).map .number
  | _ :: value => (NumberOption.named? name).map (.assigned · (String.ofList value))

/-- What a letter behind a single dash says. -/
def Flag.short? : Char → Option Flag
  | 'v' => some .verbose
  | 'h' => some .help
  | 'V' => some .version
  | _ => none

inductive Progress where
  | more (soFar : Partial)
  | over (parsed : Parsed)

/-- Reads letters behind a single dash. -/
def readLetters (p : Partial) : List Char → Progress
  | [] => .more p
  | letter :: letters =>
    match Flag.short? letter with
    | some .verbose => readLetters p.raiseVerbosity letters
    | some .help => .over .help
    | some .version => .over .version
    | _ => .over .refuse

def readPositional (p : Partial) : List String → Parsed
  | [] => p.finish
  | argument :: arguments =>
    match p.setPath argument with
    | some p => readPositional p arguments
    | none => .refuse

def read (p : Partial) : List String → Parsed
  | [] => p.finish
  | argument :: arguments =>
    match argument.toList with
    | ['-', '-'] => readPositional p arguments
    | '-' :: '-' :: text =>
      match Flag.long? text with
      | none => .refuse
      | some .help => .help
      | some .version => .version
      | some .verbose => read p.raiseVerbosity arguments
      | some .step => if p.stepping then .refuse else read { p with stepping := true } arguments
      | some (.assigned option value) =>
        match p.setText option value with
        | some p => read p arguments
        | none => .refuse
      | some (.number option) =>
        match arguments with
        | [] => .refuse
        | value :: arguments =>
          if looksLikeOption value then .refuse
          else
            match p.setText option value with
            | some p => read p arguments
            | none => .refuse
    | '-' :: letter :: letters =>
      match readLetters p (letter :: letters) with
      | .more p => read p arguments
      | .over parsed => parsed
    | _ =>
      match p.setPath argument with
      | some p => read p arguments
      | none => .refuse

/-- What the arguments ask for. -/
def parse (arguments : List String) : Parsed :=
  read {} arguments

end Chip8.CommandLine
