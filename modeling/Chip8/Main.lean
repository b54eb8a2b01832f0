import Chip8.CommandLine.Session
import Chip8.CommandLine.Usage

/-!
The program: it reads its arguments and the file of the program, and connects a session to the
terminal. Everything it decides is decided by `CommandLine.parse`, `CommandLine.launch` and
`Session.turn`.
-/

namespace Chip8

open CommandLine

def readProgram (path : String) : IO (Except ReadFailure (List UInt8)) := do
  match ← (IO.FS.readBinFile path).toBaseIO with
  | .ok bytes => return .ok bytes.toList
  | .error (.noFileOrDirectory ..) => return .error .missing
  | .error (.permissionDenied ..) => return .error .denied
  | .error (.inappropriateType ..) => return .error .directory
  | .error reason => return .error (.other (toString reason))

/-- The seed that was asked for, or one from the system. -/
def chooseSeed (options : Options) : IO UInt64 := do
  match options.seed with
  | some seed => return UInt64.ofNat seed
  | none =>
    let bytes ← IO.getRandomBytes 8
    return bytes.toList.foldl (fun seed byte => seed * 256 + byte.toUInt64) 0

/-- A number from the environment. -/
def environmentNumber (name : String) (default : Nat) : IO Nat := do
  return ((← IO.getEnv name).bind String.toNat?).getD default

partial def collectKeys (input : IO.FS.Stream) (typed : IO.Ref (List UInt8)) : IO Unit := do
  let bytes ← input.read 1024
  if bytes.isEmpty then return
  typed.modify (· ++ bytes.toList)
  collectKeys input typed

/-- Turns until the run ends, showing the terminal after each turn. -/
partial def turnOver (output : IO.FS.Stream) (typed : IO.Ref (List UInt8)) (width height : Nat)
    (session : Session) : IO Ending := do
  let burst ← typed.modifyGet fun bytes => (bytes, [])
  let now ← IO.monoNanosNow
  match session.turn now burst with
  | .error (ending, _) => return ending
  | .ok (session, pause) =>
    output.putStr ("\x1b[H" ++ "\r\n".intercalate (session.render width height))
    output.flush
    IO.sleep (UInt32.ofNat (pause / 1000000))
    turnOver output typed width height session

/-- Runs a session on the alternate screen of the terminal. -/
def runTerminal (launched : Launched) (stepping : Bool) : IO Ending := do
  let output ← IO.getStdout
  let width ← environmentNumber "COLUMNS" 87
  let height ← environmentNumber "LINES" 38
  let typed ← IO.mkRef []
  let keys ← IO.asTask (collectKeys (← IO.getStdin) typed)
  output.putStr "\x1b[?1049h\x1b[?25l\x1b[2J"
  let ending ← turnOver output typed width height
    (Session.start launched stepping (← IO.monoNanosNow))
  output.putStr "\x1b[?25h\x1b[?1049l"
  output.flush
  IO.cancel keys
  return ending

def reportFailure (text : String) : IO UInt32 := do
  (← IO.getStderr).putStrLn ("Error: " ++ text)
  return 1

def runOptions (options : Options) : IO UInt32 := do
  let program ← readProgram options.path
  match launch options program (.ofSeed (← chooseSeed options)) with
  | .error failure => reportFailure failure.text
  | .ok launched =>
    if !(← (← IO.getStdin).isTty) || !(← (← IO.getStdout).isTty) then
      reportFailure "there is no terminal"
    else
      match ← runTerminal launched options.stepping with
      | .quit => return 0
      | .failed failure => reportFailure failure.text

end Chip8

def main (arguments : List String) : IO UInt32 := do
  match Chip8.CommandLine.parse arguments with
  | .run options => Chip8.runOptions options
  | .help => do
    (← IO.getStdout).putStrLn Chip8.CommandLine.usageText
    return 0
  | .version => do
    (← IO.getStdout).putStrLn Chip8.CommandLine.versionText
    return 0
  | .refuse => do
    (← IO.getStderr).putStrLn Chip8.CommandLine.usageText
    return 2
