import Chip8.Proofs.Refusal
import Mathlib.Order.Bounds.Defs

/-!
Spans of bytes that reach out of the memory.

Sprites, the digits of a number and blocks of registers are read and written from the index register
on. `Machine.AccessRule` is the contract of such an access, byte by byte: it fails exactly if one of
its bytes lies behind the memory, and the fault names the first of these. The machine looks at the
end of the span only. That comes to the same as long as there is a byte, and also for an empty span
that begins no later than where the memory ends: `Processor.step_span`. An empty span farther behind
is refused although nothing is read there: `Machine.empty_span_refused`.
-/

namespace Chip8

namespace Machine

variable (m : Machine) (count : Nat)

/-- Whether the byte at an address is one of the `count` bytes from the index register on. -/
def Touches (address : Nat) : Prop :=
  m.index.toNat ≤ address ∧ address < m.index.toNat + count

/-- The contract of an access to `count` bytes from the index register on. -/
structure AccessRule (outcome : Except Fault Signal) : Prop where
  fails_iff : (∃ fault, outcome = .error fault) ↔
    ∃ address, m.Touches count address ∧ Memory.size ≤ address
  first : ∀ fault, outcome = .error fault → ∃ address,
    fault = .memory (.outOfBounds address Memory.size) ∧
      IsLeast {address | m.Touches count address ∧ Memory.size ≤ address} address

variable {m count}

/-- A span with a byte in it reaches out of the memory exactly if one of its bytes does. -/
theorem exists_touches_iff :
    (∃ address, m.Touches count address ∧ Memory.size ≤ address) ↔
      0 < count ∧ Memory.size < m.index.toNat + count := by
  constructor
  · rintro ⟨address, ⟨hfrom, hto⟩, hout⟩
    omega
  · rintro ⟨hcount, hout⟩
    exact ⟨m.index.toNat + count - 1, ⟨by omega, by omega⟩, by omega⟩

theorem isLeast_touches (hcount : 0 < count) (hout : Memory.size < m.index.toNat + count) :
    IsLeast {address | m.Touches count address ∧ Memory.size ≤ address}
      (max m.index.toNat Memory.size) := by
  refine ⟨⟨⟨Nat.le_max_left _ _, ?_⟩, Nat.le_max_right _ _⟩, ?_⟩
  · omega
  · rintro address ⟨⟨hfrom, -⟩, hbehind⟩
    exact Nat.max_le.mpr ⟨hfrom, hbehind⟩

/-- The outcome of an access that succeeds or names the place where its span leaves the memory. -/
theorem accessRule_iff {signal : Signal} :
    m.AccessRule count
        (if Memory.size < m.index.toNat + count then
          .error (.memory (.outOfBounds (max m.index.toNat Memory.size) Memory.size))
        else .ok signal) ↔
      0 < count ∨ m.index.toNat ≤ Memory.size := by
  by_cases hout : Memory.size < m.index.toNat + count
  · rw [if_pos hout]
    constructor
    · intro h
      exact .inl (exists_touches_iff.mp (h.fails_iff.mp ⟨_, rfl⟩)).1
    · intro h
      have hcount : 0 < count := by omega
      refine ⟨iff_of_true ⟨_, rfl⟩ (exists_touches_iff.mpr ⟨hcount, hout⟩), fun fault hfault => ?_⟩
      cases hfault
      exact ⟨_, rfl, isLeast_touches hcount hout⟩
  · rw [if_neg hout]
    refine iff_of_true ⟨iff_of_false nofun fun h => ?_, nofun⟩ (by omega)
    exact hout (exists_touches_iff.mp h).2

end Machine

/-- What becomes of an instruction that works on a span of bytes: it fails exactly if the span ends
behind the memory, with the place where it leaves the memory. This keeps the contract of an access
unless the span is empty and begins behind the end of the memory. -/
theorem Processor.step_span {p : Processor} {i : Instruction} {count : Nat}
    (hi : p.machine.Executes i) (hspan : i.span? = some count) :
    (p.step.outcome =
      if Memory.size < p.machine.index.toNat + count then
        .error (.memory (.outOfBounds (max p.machine.index.toNat Memory.size) Memory.size))
      else .ok i.signal) ∧
    (p.machine.AccessRule count p.step.outcome ↔
      0 < count ∨ p.machine.index.toNat ≤ Memory.size) := by
  obtain ⟨opcode, -, hstep⟩ := step_of_executes hi
  have houtcome : p.step.outcome = p.machine.answer i := by
    rw [hstep]
    exact outcome_of_span? hspan
  rw [Machine.answer_of_span? hspan] at houtcome
  refine ⟨houtcome, ?_⟩
  rw [houtcome]
  exact Machine.accessRule_iff

namespace Machine

/-- The program `AF FE F2 33` writes three digits where two fit: the fault names the address of the
third. -/
theorem step_span_decimal :
    let m := initial.after [.request (.load [0xAF, 0xFE, 0xF2, 0x33]), .step (.cycle #[])]
    let outcome := (Processor.step ⟨m, .cycle #[]⟩).outcome
    m.Executes (.unary .storeDecimal 2) ∧ m.AccessRule 3 outcome ∧
      outcome = .error (.memory (.outOfBounds 4096 4096)) := by
  intro m outcome
  obtain ⟨memory, hload, hfetch⟩ := load_initial [0xAF, 0xFE, 0xF2, 0x33] (by decide)
  let loaded : Machine := { initial with memory }
  have hfirst : loaded.fetch = .ok (.ofBytes 0xAF 0xFE) := fetch_of_memory (hfetch 0 (by decide))
  have hm : m = { loaded with index := 0xFFE, programCounter := 0x202 } := by
    show initial.after _ = _
    rw [after_cons, hload, after_cons,
      perform_step_of_fetch (m := loaded) (i := .loadIndex 0xFFE) rfl hfirst rfl]
    rfl
  clear_value m
  have hsecond : m.fetch = .ok (.ofBytes 0xF2 0x33) := by
    rw [hm]
    exact fetch_of_memory (hfetch 2 (by decide))
  have hindex : m.index.toNat = 4094 := by
    rw [hm]
    rfl
  have hi : m.Executes (.unary .storeDecimal 2) :=
    executes_of_fetch (congrArg Machine.awaiting hm) hsecond rfl
  have hspan : (Instruction.unary .storeDecimal 2).span? = some 3 := rfl
  obtain ⟨houtcome, hrule⟩ := Processor.step_span (p := ⟨m, .cycle #[]⟩) hi hspan
  rw [hindex] at houtcome
  exact ⟨hi, hrule.mpr (.inl (by decide)), houtcome⟩

/-- The program `AF FF 65 02 F5 1E D0 10` draws a sprite without rows from 4097 on. It reads no
byte, and its last step fails all the same. -/
theorem empty_span_refused :
    let m := initial.after
      [.request (.load [0xAF, 0xFF, 0x65, 0x02, 0xF5, 0x1E, 0xD0, 0x10]), .step (.cycle #[]),
        .step (.cycle #[]), .step (.cycle #[])]
    let outcome := (Processor.step ⟨m, .cycle #[]⟩).outcome
    m.Reachable ∧ m.Executes (.draw 0 1 0) ∧ (Instruction.draw 0 1 0).span? = some 0 ∧
      outcome = .error (.memory (.outOfBounds 4097 4096)) ∧ ¬ m.AccessRule 0 outcome := by
  intro m outcome
  have hreach : m.Reachable := Reachable.initial.after _
  obtain ⟨memory, hload, hfetch⟩ :=
    load_initial [0xAF, 0xFF, 0x65, 0x02, 0xF5, 0x1E, 0xD0, 0x10] (by decide)
  let loaded : Machine := { initial with memory }
  let pointed : Machine := { loaded with index := 0xFFF, programCounter := 0x202 }
  let counted : Machine := { pointed.setRegister 5 2 with programCounter := 0x204 }
  have hfirst : loaded.fetch = .ok (.ofBytes 0xAF 0xFF) := fetch_of_memory (hfetch 0 (by decide))
  have hsecond : pointed.fetch = .ok (.ofBytes 0x65 0x02) := fetch_of_memory (hfetch 2 (by decide))
  have hthird : counted.fetch = .ok (.ofBytes 0xF5 0x1E) := fetch_of_memory (hfetch 4 (by decide))
  have hm : m = { counted with index := 0x1001, programCounter := 0x206 } := by
    show initial.after _ = _
    rw [after_cons, hload, after_cons,
      perform_step_of_fetch (m := loaded) (i := .loadIndex 0xFFF) rfl hfirst rfl]
    show pointed.after _ = _
    rw [after_cons, perform_step_of_fetch (m := pointed) (i := .loadByte 5 2) rfl hsecond rfl]
    show counted.after _ = _
    rw [after_cons, perform_step_of_fetch (m := counted) (i := .unary .addToIndex 5) rfl hthird rfl]
    rfl
  clear_value m
  have hfourth : m.fetch = .ok (.ofBytes 0xD0 0x10) := by
    rw [hm]
    exact fetch_of_memory (hfetch 6 (by decide))
  have hindex : m.index.toNat = 4097 := by
    rw [hm]
    rfl
  have hi : m.Executes (.draw 0 1 0) :=
    executes_of_fetch (congrArg Machine.awaiting hm) hfourth rfl
  have hspan : (Instruction.draw 0 1 0).span? = some 0 := rfl
  have houtcome : outcome = .error (.memory (.outOfBounds 4097 4096)) := by
    refine (Processor.outcome_of_executes hreach.stackBounded hi).trans ?_
    rw [answer_of_span? hspan, hindex]
    rfl
  refine ⟨hreach, hi, hspan, houtcome, fun hrule => ?_⟩
  obtain ⟨address, ⟨hfrom, hto⟩, -⟩ := hrule.fails_iff.mp ⟨_, houtcome⟩
  omega

end Machine

end Chip8
