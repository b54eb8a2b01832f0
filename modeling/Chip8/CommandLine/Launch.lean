import Chip8.CommandLine.Failure
import Chip8.CommandLine.Options
import Chip8.Playback

/-!
The start of a run: the program is loaded and the frames that are not shown are run.

These frames have no keys and no display. If one fails, the run ends there, and the failure names
the frame by the number of frames before it.
-/

namespace Chip8.CommandLine

/-- A console with a program, after the frames that are not shown. -/
structure Launched where
  console : Console
  journal : Journal

/-- Runs frames without keys and without a display. -/
def fastForward (console : Console) (frames : Nat) : Playback :=
  console.play (.frame .released) frames

/-- A failure in a frame that is not shown. -/
def hiddenFrameFailure (frame : Nat) (fault : Fault) : Failure :=
  (Failure.ofFault fault).within ("The program failed in frame " ++ toString frame)

/-- A program file that cannot be read. -/
def unreadable (path : String) (reason : ReadFailure) : Failure :=
  ⟨"Failed to read the ROM file " ++ path, [reason.message]⟩

/-- Loads a program and runs the frames that are not shown. -/
def launch (options : Options) (program : Except ReadFailure (List UInt8)) (tape : RandomTape) :
    Except Failure Launched :=
  match program with
  | .error reason => .error (unreadable options.path reason)
  | .ok bytes =>
    let loaded := Machine.initial.load bytes
    match loaded.outcome with
    | .error fault => .error (Failure.ofFault fault)
    | .ok () =>
      let console := Console.start ⟨loaded.state, tape⟩ (Console.cyclesOfHertz options.hertz)
      let played := fastForward console options.startFrame.toNat
      match played.outcome with
      | .error fault => .error (hiddenFrameFailure played.console.frames fault)
      | .ok _ =>
        let note : Record :=
          ⟨.info, "loaded " ++ options.path ++ " (" ++ toString bytes.length ++ " bytes)"⟩
        let records :=
          loaded.events.map Event.record ++ note :: played.events.map Event.record
        .ok
          { console := played.console
            journal := (Journal.empty (.ofVerbosity options.verbosity)).logAll records }

end Chip8.CommandLine
