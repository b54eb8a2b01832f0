import Chip8.Proofs.History
import Chip8.Proofs.Periphery

/-!
Waiting for a key.

`FX0A` moves the program counter, notes the register and stops; a later request hands the key over.
In between the processor may be asked to step, its timers may tick and keys may go up and down.
`Processor.Idle` is the invariant of that time: what the program works with stays as it is. So the
wait, however long, comes to the same as loading the key at once: `Processor.key_wait`.
-/

namespace Chip8

namespace Machine

/-- Two machines whose programs work with the same data and stand at the same place. -/
structure SameContents (a b : Machine) : Prop where
  memory : b.memory = a.memory
  registers : b.registers = a.registers
  index : b.index = a.index
  programCounter : b.programCounter = a.programCounter
  stack : b.stack = a.stack
  display : b.display = a.display

theorem SameContents.refl (m : Machine) : SameContents m m := ⟨rfl, rfl, rfl, rfl, rfl, rfl⟩

theorem SameContents.trans {a b c : Machine} (hab : SameContents a b) (hbc : SameContents b c) :
    SameContents a c where
  memory := hbc.memory.trans hab.memory
  registers := hbc.registers.trans hab.registers
  index := hbc.index.trans hab.index
  programCounter := hbc.programCounter.trans hab.programCounter
  stack := hbc.stack.trans hab.stack
  display := hbc.display.trans hab.display

/-- A number that is no key changes nothing. -/
theorem resume_of_le (m : Machine) {key : Nat} (h : 16 ≤ key) :
    m.resume key = { outcome := .error (.noSuchKey key), state := m } := by
  rw [resume, dif_neg (Nat.not_lt.mpr h)]

/-- Without a wait, a key changes nothing. -/
theorem resume_of_awaiting_eq_none {m : Machine} (hwait : m.awaiting = none) {key : Nat}
    (h : key < 16) : m.resume key = { outcome := .ok (), state := m } := by
  rw [resume, dif_pos h]
  simp only [receive, hwait]

/-- The key ends the wait and goes to the register that was noted. -/
theorem resume_of_awaiting_eq_some {m : Machine} {x : Register} (hwait : m.awaiting = some x)
    {key : Nat} (h : key < 16) :
    m.resume key =
      { outcome := .ok ()
        state := { m.setRegister x (UInt8.ofNat key) with awaiting := none }
        events := [.keyReceived ⟨key, h⟩ x] } := by
  rw [resume, dif_pos h]
  simp only [receive, hwait]

end Machine

namespace Processor

open Machine

/-- The requests that leave a wait and the memory as they are: keys that go up and down, ticks,
steps, and resuming with a number that is no key. -/
def Request.leavesWait : Request → Bool
  | .step => true
  | .machine .tick | .machine (.setKeypad _) | .machine (.setKey _ _) => true
  | .machine (.toggleKey _) | .machine .clearRedraw => true
  | .machine (.resume key) => 16 ≤ key
  | .machine .reset | .machine (.load _) | .machine (.move _) => false

/-- The processor after some requests. -/
def after (p : Processor) (requests : List Request) : Processor :=
  requests.foldl (fun p request => (p.handle request).state) p

/-- Nothing has happened to the program: its data, the wait and the random bytes are the same. -/
structure Idle (before after : Processor) : Prop where
  contents : SameContents before.machine after.machine
  awaiting : after.machine.awaiting = before.machine.awaiting
  tape : after.tape = before.tape

theorem Idle.refl (p : Processor) : Idle p p := ⟨.refl p.machine, rfl, rfl⟩

theorem Idle.trans {p q r : Processor} (hpq : Idle p q) (hqr : Idle q r) : Idle p r where
  contents := hpq.contents.trans hqr.contents
  awaiting := hqr.awaiting.trans hpq.awaiting
  tape := hqr.tape.trans hpq.tape

variable {p : Processor} {x : Register}

theorem idle_ofExcept {result : Except Fault Machine}
    (h : ∀ m, result = .ok m → Idle p (p.withMachine m)) :
    Idle p (p.withMachine (Report.ofExcept p.machine result).state) := by
  cases result with
  | error fault => exact .refl p
  | ok m => exact h m rfl

/-- What may be asked for during a wait leaves the program alone. -/
theorem idle_handle (hwait : p.machine.awaiting = some x) {request : Request}
    (hleaves : request.leavesWait = true) : Idle p (p.handle request).state := by
  cases request with
  | step =>
      rw [handle, step_of_awaiting hwait]
      exact .refl p
  | machine request =>
      cases request with
      | tick | setKeypad | clearRedraw => exact ⟨⟨rfl, rfl, rfl, rfl, rfl, rfl⟩, rfl, rfl⟩
      | setKey | toggleKey =>
          refine idle_ofExcept fun m hm => ?_
          obtain ⟨keypad, -, rfl⟩ := exists_of_map_eq_ok hm
          exact ⟨⟨rfl, rfl, rfl, rfl, rfl, rfl⟩, rfl, rfl⟩
      | resume key =>
          have hkey : 16 ≤ key := by simpa [Request.leavesWait] using hleaves
          show Idle p (p.withMachine (p.machine.resume key).state)
          rw [resume_of_le p.machine hkey]
          exact .refl p
      | reset | load | move => cases hleaves

theorem idle_after (hwait : p.machine.awaiting = some x) {requests : List Request}
    (hleave : ∀ request ∈ requests, request.leavesWait = true) : Idle p (p.after requests) := by
  induction requests generalizing p with
  | nil => exact .refl p
  | cons request requests ih =>
      obtain ⟨hrequest, hrest⟩ := List.forall_mem_cons.mp hleave
      have hidle := idle_handle hwait hrequest
      exact hidle.trans (ih (hidle.awaiting.trans hwait) hrest)

/-- The key that ends a wait arrives as if it had been loaded in place of the wait. -/
theorem sameContents_resume (hi : p.machine.Executes (.unary .awaitKey x)) {q : Processor}
    (hidle : Idle p.step.state q) {key : Nat} (hkey : key < 16) :
    SameContents (p.execute (.loadByte x (UInt8.ofNat key))).state.machine
      (q.machine.resume key).state := by
  obtain ⟨opcode, -, hstep⟩ := step_of_executes hi
  rw [hstep] at hidle
  obtain ⟨hcontents, hawaiting, -⟩ := hidle
  rw [resume_of_awaiting_eq_some hawaiting hkey]
  refine { hcontents with registers := ?_ }
  show q.machine.registers.set x.val (UInt8.ofNat key) x.isLt = _
  rw [hcontents.registers]
  rfl

/-- The protocol of a wait. A step that executes `FX0A` signals a wait. From then on, whatever
happens short of a key, steps signal a wait, numbers that are no key are refused and the program
stays as it is; the first key then leaves what loading it at once would have left. A step signals
a wait exactly if the program waits after it, and without a wait a key changes nothing. -/
theorem key_wait (p : Processor) :
    (∀ x, p.machine.Executes (.unary .awaitKey x) →
      p.step.outcome = .ok .wait ∧ p.step.state.machine.awaiting = some x ∧
      ∀ requests : List Request, (∀ request ∈ requests, request.leavesWait = true) →
        let q := p.step.state.after requests
        Idle p.step.state q ∧
        (q.handle .step).outcome = .ok (some .wait) ∧
        (∀ key, 16 ≤ key →
          (q.handle (.machine (.resume key))).outcome = .error (.noSuchKey key)) ∧
        ∀ key, key < 16 →
          let resumed := q.handle (.machine (.resume key))
          let loaded := p.execute (.loadByte x (UInt8.ofNat key))
          resumed.outcome = .ok none ∧ resumed.state.machine.awaiting = none ∧
            resumed.state.tape = q.tape ∧ loaded.outcome = .ok .proceed ∧
            SameContents loaded.state.machine resumed.state.machine) ∧
    (p.step.outcome = .ok .wait ↔ p.step.state.machine.awaiting ≠ none) ∧
    (p.machine.awaiting = none → ∀ key, key < 16 →
      p.handle (.machine (.resume key)) = { outcome := .ok none, state := p }) := by
  refine ⟨?_, p.step_wait_iff, ?_⟩
  · intro x hi
    have hstep : p.step.outcome = .ok .wait ∧ p.step.state.machine.awaiting = some x := by
      obtain ⟨opcode, -, hstep⟩ := step_of_executes hi
      rw [hstep]
      exact ⟨rfl, rfl⟩
    refine ⟨hstep.1, hstep.2, ?_⟩
    intro requests hleave q
    have hidle : Idle p.step.state q := idle_after hstep.2 hleave
    have hwait : q.machine.awaiting = some x := hidle.awaiting.trans hstep.2
    refine ⟨hidle, ?_, ?_, ?_⟩
    · rw [handle, step_of_awaiting hwait]
      rfl
    · intro key hkey
      show ((q.machine.resume key).map q.withMachine fun _ => none).outcome = _
      rw [resume_of_le q.machine hkey]
      rfl
    · intro key hkey resumed loaded
      have hresumed : resumed = (q.machine.resume key).map q.withMachine fun _ => none := rfl
      refine ⟨?_, ?_, rfl, rfl, sameContents_resume hi hidle hkey⟩
      · rw [hresumed, resume_of_awaiting_eq_some hwait hkey]
        rfl
      · rw [hresumed, resume_of_awaiting_eq_some hwait hkey]
        rfl
  · intro hwait key hkey
    show (p.machine.resume key).map p.withMachine (fun _ => none) = _
    rw [resume_of_awaiting_eq_none hwait hkey]
    rfl

/-- The program `F3 0A` waits through steps, a tick, a key that goes up and down and a number that
is no key, until it is given the key 7. -/
theorem key_wait_seven :
    let m := Machine.initial.after [.request (.load [0xF3, 0x0A])]
    let p : Processor := ⟨m, .cycle #[]⟩
    let requests : List Request :=
      [.step, .machine .tick, .machine (.setKey 5 true), .machine (.resume 16),
        .machine (.toggleKey 5), .machine .clearRedraw]
    let q := p.step.state.after requests
    let resumed := (q.handle (.machine (.resume 7))).state.machine
    m.Executes (.unary .awaitKey 3) ∧ (q.handle .step).outcome = .ok (some .wait) ∧
      q.machine.register 3 = 0 ∧ resumed.register 3 = 7 ∧ resumed.programCounter = 0x202 ∧
      resumed.awaiting = none := by
  intro m p requests q resumed
  obtain ⟨memory, hload, hfetch⟩ := load_initial [0xF3, 0x0A] (by decide)
  have hm : m = { initial with memory } := hload
  have hopcode : m.fetch = .ok (.ofBytes 0xF3 0x0A) := by
    rw [hm]
    exact congrArg (Except.mapError Fault.memory) (hfetch 0 (by decide))
  have hi : m.Executes (.unary .awaitKey 3) :=
    executes_of_fetch (congrArg Machine.awaiting hm) hopcode rfl
  have hleave : ∀ request ∈ requests, request.leavesWait = true := by
    simp [requests, Request.leavesWait]
  clear_value requests
  obtain ⟨-, -, hwaits⟩ := p.key_wait.1 3 hi
  obtain ⟨hidle, hstep, -, hresume⟩ := hwaits _ hleave
  obtain ⟨-, hawaiting, -, -, hcontents⟩ := hresume 7 (by decide)
  have hregisters : m.registers = initial.registers := by rw [hm]
  have hpc : m.programCounter = 0x200 := by
    rw [hm]
    rfl
  obtain ⟨opcode, -, hawait⟩ := step_of_executes (p := p) hi
  have hwaiting : p.step.state.machine.registers = m.registers := by
    rw [hawait]
    rfl
  refine ⟨hi, hstep, ?_, ?_, ?_, hawaiting⟩
  · show q.machine.registers.get 3 = 0
    rw [hidle.contents.registers, hwaiting, hregisters]
    rfl
  · show resumed.registers.get 3 = 7
    rw [hcontents.registers]
    show (m.registers.set 3 7).get 3 = 7
    rw [hregisters]
    rfl
  · rw [hcontents.programCounter]
    show UInt16.ofNat ((m.programCounter.toNat + Opcode.size) % Move.pointerRange) = 0x202
    rw [hpc]
    rfl

end Processor

end Chip8
