/-!
The journal: a bounded list of log lines.

A record is kept if its level is not below the journal's threshold; a journal that is off keeps none.
A full journal drops its oldest line for each new one.
-/

namespace Chip8

/-- How important a record is, the most important first. -/
inductive Level where
  | error
  | warn
  | info
  | debug
  | trace
  deriving DecidableEq

namespace Level

/-- The place of a level in the order of importance. -/
def rank : Level → Nat
  | error => 0
  | warn => 1
  | info => 2
  | debug => 3
  | trace => 4

def name : Level → String
  | error => "ERROR"
  | warn => "WARN"
  | info => "INFO"
  | debug => "DEBUG"
  | trace => "TRACE"

/-- The least important level that is kept, for a number of requests for more output. -/
def ofVerbosity : Nat → Level
  | 0 => warn
  | 1 => info
  | 2 => debug
  | _ => trace

end Level

/-- The least important level that is kept, if any is. -/
inductive Threshold where
  | off
  | upTo (level : Level)
  deriving DecidableEq

namespace Threshold

def admits : Threshold → Level → Bool
  | off, _ => false
  | upTo least, level => level.rank ≤ least.rank

def ofVerbosity (requests : Nat) : Threshold := upTo (.ofVerbosity requests)

end Threshold

structure Record where
  level : Level
  text : String
  deriving DecidableEq

/-- The line of a record: the name of the level in five columns, a blank and the message. -/
def Record.line (r : Record) : String :=
  String.ofList (r.level.name.toList.rightpad 5 ' ') ++ " " ++ r.text

/-- The lines that were kept, the oldest first. -/
structure Journal where
  threshold : Threshold
  lines : List String
  deriving DecidableEq

namespace Journal

/-- The most lines that are kept. -/
def capacity : Nat := 256

def empty (least : Level) : Journal := ⟨.upTo least, []⟩

/-- Appends a line, in place of the oldest one if the journal is full. -/
def push (j : Journal) (line : String) : Journal :=
  let kept := if j.lines.length = capacity then j.lines.tail else j.lines
  { j with lines := kept ++ [line] }

def isEnabled (j : Journal) (level : Level) : Bool :=
  j.threshold.admits level

def log (j : Journal) (r : Record) : Journal :=
  if j.isEnabled r.level then j.push r.line else j

def logAll (j : Journal) (records : List Record) : Journal :=
  records.foldl log j

/-- The lines of the records that a journal accepts, also of those that it drops later. -/
def written (j : Journal) (records : List Record) : List String :=
  (records.filter fun r => j.isEnabled r.level).map Record.line

/-- The latest `count` lines, the oldest first. -/
def latest (j : Journal) (count : Nat) : List String :=
  j.lines.drop (j.lines.length - count)

end Journal

end Chip8
