import Chip8.Fault

/-!
Why the emulator gives up, as it is told to its user: a message and, below it, the chain of causes.
-/

namespace Chip8.CommandLine

/-- A message and its causes, the nearest first. -/
structure Failure where
  message : String
  causes : List String
  deriving DecidableEq

namespace Failure

/-- The lines of the causes. Several causes are numbered. -/
def causeLines : List String → List String
  | [] => []
  | [cause] => ["    " ++ cause]
  | causes => causes.zipIdx.map fun (cause, n) => "    " ++ toString n ++ ": " ++ cause

def text (f : Failure) : String :=
  "\n".intercalate
    (f.message :: if f.causes.isEmpty then [] else "" :: "Caused by:" :: causeLines f.causes)

/-- The failure of an operation of the machine. -/
def ofFault (fault : Fault) : Failure :=
  ⟨fault.message, fault.cause?.toList⟩

/-- The same failure as the cause of another one. -/
def within (f : Failure) (message : String) : Failure :=
  ⟨message, f.message :: f.causes⟩

end Failure

/-- Why a file cannot be read. -/
inductive ReadFailure where
  | missing
  | denied
  | directory
  /-- Any other reason, in the words of the system. -/
  | other (reason : String)
  deriving DecidableEq

def ReadFailure.message : ReadFailure → String
  | .missing => "No such file or directory (os error 2)"
  | .denied => "Permission denied (os error 13)"
  | .directory => "Is a directory (os error 21)"
  | .other reason => reason

end Chip8.CommandLine
