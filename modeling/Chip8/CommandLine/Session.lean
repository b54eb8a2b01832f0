import Chip8.CommandLine.Launch
import Chip8.Metronome
import Chip8.Terminal.Inbox
import Chip8.Terminal.Screen
import Chip8.Terminal.Typing

/-!
A session at the terminal: turn after turn, until the user quits or the program fails.

A turn takes in what was typed, obeys the commands and runs the frames that are due, or a single
step while the program is paused. It is a function of the time and of the bytes that the terminal
has sent; waiting, reading these bytes and writing to the terminal are left to the caller.
-/

namespace Chip8.CommandLine

open Terminal

/-- Everything that lasts from turn to turn. -/
structure Session where
  console : Console
  inbox : Inbox
  typing : Typing
  metronome : Metronome
  paused : Bool
  journal : Journal
  /-- The display that was shown last. -/
  picture : Picture

inductive Ending where
  | quit
  | failed (failure : Failure)
  deriving DecidableEq

/-- The most frames that are caught up in one turn. -/
def maxCatchUp : Nat := 10

/-- The pause between two turns while the program is paused, in nanoseconds. -/
def idlePause : Nat := 16000000

/-- A failure in a frame that started at some address. -/
def shownFrameFailure (frame : Nat) (address : UInt16) (fault : Fault) : Failure :=
  (Failure.ofFault fault).within
    ("The program failed in frame " ++ toString frame ++ " near " ++ Hex.numeral 4 address.toNat)

def stepFailure (address : UInt16) (fault : Fault) : Failure :=
  (Failure.ofFault fault).within ("The program failed at " ++ Hex.numeral 4 address.toNat)

namespace Session

/-- The first turn is about to come. -/
def start (launched : Launched) (paused : Bool) (now : Nat) : Session where
  console := launched.console
  inbox := .empty
  typing := .start
  metronome := .start now Metronome.frameInterval
  paused
  journal := launched.journal
  picture := Picture.empty.update launched.console.machine.display.pixels

/-- Takes over what a request to the console has changed. -/
def follow (s : Session) (exchange : Exchange) : Session :=
  { s with
    console := exchange.state
    journal := s.journal.logAll (exchange.events.map Event.record)
    picture :=
      match exchange.shown with
      | some display => s.picture.update display.pixels
      | none => s.picture }

def noteFault (s : Session) (fault : Fault) : Session :=
  { s with journal := s.journal.log ⟨.error, fault.message⟩ }

/-- A burst of bytes arrives from the terminal. -/
def receive (s : Session) (burst : List UInt8) : Session :=
  { s with inbox := s.inbox.receive burst }

def accept (s : Session) (now : Nat) : Session :=
  let (strokes, inbox) := s.inbox.take
  let (typing, records) := s.typing.acceptAll strokes now
  { s with inbox, typing, journal := s.journal.logAll records }

/-- Makes a single step, with the keys that are held after taking in what was typed. -/
def stepOnce (s : Session) (now : Nat) : Except (Failure × Session) Session :=
  let accepted := s.accept now
  let exchange := accepted.console.advance (accepted.typing.held now)
  match exchange.outcome with
  | .ok _ => .ok (accepted.follow exchange)
  | .error fault =>
    .error (stepFailure s.console.machine.programCounter fault,
      (accepted.follow exchange).noteFault fault)

/-- Runs frames, until one fails. Each takes in what was typed. -/
def runFrames (s : Session) (now : Nat) : (count : Nat) → Except (Failure × Session) Session
  | 0 => .ok s
  | count + 1 =>
    let accepted := s.accept now
    let exchange := accepted.console.frame (accepted.typing.held now)
    match exchange.outcome with
    | .ok _ => (accepted.follow exchange).runFrames now count
    | .error fault =>
      .error (shownFrameFailure s.console.frames s.console.machine.programCounter fault,
        (accepted.follow exchange).noteFault fault)

structure Orders where
  session : Session
  quits : Bool
  steps : Bool

/-- Obeys commands one after another; nothing is obeyed after a command to quit. -/
def obey (s : Session) (now : Nat) (steps : Bool) : List Command → Orders
  | [] => ⟨s, false, steps⟩
  | .quit :: _ =>
    let note : Record := ⟨.info, "quit after " ++ toString s.console.frames ++ " frames"⟩
    ⟨{ s with journal := s.journal.log note }, true, steps⟩
  | .step :: commands => s.obey now true commands
  | .togglePause :: commands =>
    { s with paused := !s.paused, metronome := s.metronome.resync now }.obey now steps commands

/-- Runs the frames that are due. Frames beyond the most that are caught up are dropped. -/
def catchUp (s : Session) (now : Nat) : Except (Failure × Session) Session :=
  let (due, metronome) := s.metronome.due now
  let timed : Session :=
    if maxCatchUp < due.toNat then
      let note : Record :=
        ⟨.debug, "dropping " ++ toString (due.toNat - maxCatchUp) ++ " frames"⟩
      { s with metronome := metronome.resync now, journal := s.journal.log note }
    else { s with metronome }
  timed.runFrames now (min due.toNat maxCatchUp)

/-- One turn: the session after it and the pause before the next one, or how the run ends. -/
def turn (s : Session) (now : Nat) (burst : List UInt8) :
    Except (Ending × Session) (Session × Nat) :=
  let accepted := (s.receive burst).accept now
  let (commands, typing) := accepted.typing.takeCommands
  let orders := { accepted with typing }.obey now false commands
  if orders.quits then .error (.quit, orders.session)
  else if orders.session.paused then
    match if orders.steps then orders.session.stepOnce now else .ok orders.session with
    | .ok session => .ok (session, idlePause)
    | .error (failure, session) => .error (.failed failure, session)
  else
    match orders.session.catchUp now with
    | .ok session => .ok (session, session.metronome.untilNext now)
    | .error (failure, session) => .error (.failed failure, session)

def render (s : Session) (width height : Nat) : List String :=
  Screen.render width height s.picture s.console.machine s.paused s.journal

end Session

end Chip8.CommandLine
