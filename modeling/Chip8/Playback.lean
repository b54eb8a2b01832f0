import Chip8.Console

/-!
A request to a console that is made again and again, until it fails.
-/

namespace Chip8

structure Playback where
  console : Console
  /-- How often the request was made, a failing time included. -/
  tries : Nat
  /-- The outcome of the last time. -/
  outcome : Except Fault (Option Signal)
  /-- The displays that were handed over, the latest first. -/
  shown : List Framebuffer
  /-- The events, the latest first. -/
  history : List Event

namespace Playback

def start (c : Console) : Playback := ⟨c, 0, .ok none, [], []⟩

def step (p : Playback) (request : Console.Request) : Playback :=
  let exchange := p.console.handle request
  { console := exchange.state
    tries := p.tries + 1
    outcome := exchange.outcome
    shown := exchange.shown.toList ++ p.shown
    history := exchange.events.reverse ++ p.history }

/-- Makes the request up to `count` more times, until it fails. -/
def advance (p : Playback) (request : Console.Request) : (count : Nat) → Playback
  | 0 => p
  | count + 1 =>
    let stepped := p.step request
    match stepped.outcome with
    | .error _ => stepped
    | .ok _ => stepped.advance request count

/-- The events in the order in which they happened. -/
def events (p : Playback) : List Event := p.history.reverse

end Playback

/-- Makes a request `count` times, until it fails. -/
def Console.play (c : Console) (request : Console.Request) (count : Nat) : Playback :=
  (Playback.start c).advance request count

end Chip8
