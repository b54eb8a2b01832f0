import Chip8.Event
import Chip8.Fault

/-!
The report of an operation: its outcome, the state it leaves behind and the events on the way. An
operation leaves a state behind whether or not it succeeds.
-/

namespace Chip8

/-- What an operation on a state `σ` with results in `α` comes to. -/
structure Report (σ α : Type) where
  outcome : Except Fault α
  state : σ
  /-- The events, in the order in which they happened. -/
  events : List Event := []

namespace Report

/-- The report of an operation that always succeeds and reports nothing. -/
def done {σ : Type} (state : σ) : Report σ Unit := ⟨.ok (), state, []⟩

/-- The report of an operation that yields a new state or leaves the old one as it was. -/
def ofExcept {σ : Type} (old : σ) : Except Fault σ → Report σ Unit
  | .ok new => ⟨.ok (), new, []⟩
  | .error fault => ⟨.error fault, old, []⟩

/-- Shows the state as a part of a larger one, and the result as another. -/
def map {σ τ α β : Type} (r : Report σ α) (state : σ → τ) (result : α → β) : Report τ β where
  outcome := r.outcome.map result
  state := state r.state
  events := r.events

end Report

end Chip8
