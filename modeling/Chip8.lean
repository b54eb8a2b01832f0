import Chip8.CommandLine.Session
import Chip8.Dump
import Chip8.Hex.Lemmas
import Chip8.Main
import Chip8.Terminal.Decoding
import Chip8.Proofs.Effect
import Chip8.Proofs.Step
import Chip8.Proofs.CallStack
import Chip8.Proofs.CallReturn
import Chip8.Proofs.Sprite
import Chip8.Proofs.Redraw
import Chip8.Proofs.Viewing
import Chip8.Proofs.Periphery
import Chip8.Proofs.KeyWait
import Chip8.Proofs.Face
import Chip8.Proofs.SingleStep
import Chip8.Proofs.Raw.Access
import Chip8.Proofs.Raw.Chip
import Chip8.Proofs.Raw.Drawing
import Chip8.Proofs.Raw.Step
import Chip8.Proofs.Raw.Dump
import Chip8.Proofs.Counter
import Chip8.Proofs.Raw.History
import Chip8.Proofs.Raw.Safety
import Chip8.Proofs.Coding
import Chip8.Proofs.Refusal
import Chip8.Proofs.Span
import Chip8.Proofs.Stride
import Chip8.Proofs.FailedFrame
import Chip8.Proofs.Timers
import Chip8.Proofs.Timekeeping
import Chip8.Proofs.Indifference
import Chip8.Proofs.Writes
import Chip8.Proofs.Tape
import Chip8.Proofs.MaskedBytes
import Chip8.Proofs.Dump.Cells
import Chip8.Proofs.Dump.Folding
import Chip8.Proofs.Dump.Lines
import Chip8.Proofs.Dump.Lossless
import Chip8.Proofs.Polling
import Chip8.Proofs.Watching
import Chip8.Proofs.Disassembly
import Chip8.Proofs.RoundTrip
import Chip8.Proofs.Arithmetic
import Chip8.Proofs.Successor
import Chip8.Proofs.Stamp
import Chip8.Proofs.Superposition
import Chip8.Proofs.FastForward
import Chip8.Proofs.Transfer
import Chip8.Proofs.Dump.Layout
import Chip8.Proofs.Typing
import Chip8.Proofs.Replay
import Chip8.Proofs.Points
import Chip8.Proofs.PowerCycle
import Chip8.Proofs.Retention
import Chip8.Proofs.Panes
import Chip8.Proofs.Screen
import Chip8.Proofs.Rounding
import Chip8.Proofs.DrawnArea
import Chip8.Proofs.KeySet
import Chip8.Proofs.Waits
import Chip8.Proofs.Answers
