import Chip8.Proofs.Counter
import Chip8.Proofs.Raw.History

/-!
Safety on plain lists.

Two statements about every chip that a history leads to. `Raw.Chip.ReachedBy.no_abort`: whatever
bytes stand under its program counter, a step, the end of a wait and the dump make no access out of
range. `Raw.Chip.ReachedBy.invariant`: the lists keep their lengths, the stack holds addresses of
the memory, and the program counter never loses a bit.
-/

namespace Chip8

namespace Raw.Chip

variable {c : Chip} {acts : List Machine.Act}

theorem exists_reachedBy (acts : List Machine.Act) : ∃ c : Chip, c.ReachedBy acts :=
  ⟨_, reachedBy_iff.mpr rfl⟩

/-- The chip with two bytes of any value under the program counter, as far as they lie inside the
memory. -/
def withOpcode (c : Chip) (high low : UInt8) : Chip :=
  let pointer := c.programCounter.toNat
  { c with memory := (c.memory.set pointer high).set (pointer + 1) low }

theorem withOpcode_raw (m : Machine) (high low : UInt8) :
    m.raw.withOpcode high low =
      { m with memory := m.memory.place m.programCounter.toNat [high, low] }.raw := by
  refine Chip.ext ?_ rfl rfl rfl rfl rfl rfl rfl rfl rfl rfl
  simp [withOpcode, Machine.raw, Memory.place, Vector.toList_setIfInBounds]

/-- Nothing aborts. For every history, and for every two bytes under the program counter: a step,
the end of a wait and the dump have a result, which is that of the machine. -/
theorem ReachedBy.no_abort (hc : c.ReachedBy acts) (high low : UInt8) :
    let m := Machine.initial.after acts
    let patched : Machine :=
      { m with memory := m.memory.place m.programCounter.toNat [high, low] }
    c.withOpcode high low = patched.raw ∧
      (∀ tape, (c.withOpcode high low).step tape = some (Processor.step ⟨patched, tape⟩).raw) ∧
      (∀ key, ((c.withOpcode high low).resume key).result =
        some ((patched.resume key).outcome.map fun _ => (patched.resume key).state.raw)) ∧
      (c.withOpcode high low).dump = some patched.dump := by
  intro m patched
  have hraw : c.withOpcode high low = patched.raw := by
    rw [reachedBy_iff.mp hc]
    exact withOpcode_raw m high low
  have hdepth : patched.stack.length ≤ Machine.stackCapacity :=
    (Machine.Reachable.initial.after acts).stackBounded.depth
  rw [hraw]
  refine ⟨rfl, ?_, ?_, patched.dump_raw hdepth⟩
  · intro tape
    exact Processor.step_raw ⟨patched, tape⟩ hdepth
  · intro key
    rw [Machine.resume_raw]
    rfl

/-- With an instruction that loads every register under the program counter, and the index register
at the font. -/
theorem no_abort_load_registers :
    ∃ c : Chip, c.ReachedBy [.request (.load [0xD1, 0x25]), .step (.cycle #[])] ∧
      (∀ tape, ((c.withOpcode 0xFF 0x65).step tape).isSome = true) ∧
      ((c.withOpcode 0xFF 0x65).resume 7).result.isSome = true ∧
      (c.withOpcode 0xFF 0x65).dump.isSome = true := by
  obtain ⟨c, hc⟩ := exists_reachedBy [.request (.load [0xD1, 0x25]), .step (.cycle #[])]
  obtain ⟨-, hstep, hresume, hdump⟩ := hc.no_abort 0xFF 0x65
  refine ⟨c, hc, ?_, ?_, ?_⟩
  · intro tape
    rw [hstep]
    rfl
  · rw [hresume]
    rfl
  · rw [hdump]
    rfl

/-- What holds of the parts of a chip at all times. -/
structure WellFormed (c : Chip) : Prop where
  memory : c.memory.length = Memory.size
  registers : c.registers.length = Machine.registerCount
  display : c.display.length = Framebuffer.area
  keys : c.keys.length = Keypad.size
  depth : c.stack.length ≤ Machine.stackCapacity
  /-- A return address lies behind a call and inside the memory. -/
  returns : ∀ address ∈ c.stack, Opcode.size ≤ address.toNat ∧ address.toNat < Memory.size
  awaiting : ∀ x, c.awaiting = some x → x < Machine.registerCount

theorem wellFormed_raw {m : Machine} (hm : m.StackBounded) : m.raw.WellFormed where
  memory := m.length_memory_raw
  registers := m.length_registers_raw
  display := m.length_display_raw
  keys := m.length_keys_raw
  depth := by
    rw [show m.raw.stack = m.stack.reverse from rfl, List.length_reverse]
    exact hm.depth
  returns address hmem := hm.inside address (List.mem_reverse.mp hmem)
  awaiting x hx := by
    obtain ⟨r, -, rfl⟩ := Option.map_eq_some_iff.mp hx
    exact r.isLt

/-- A step on the layout that has executed an instruction. -/
theorem programCounter_of_step_raw {m : Machine} (hm : m.StackBounded) {tape : RandomTape}
    {stepped : Stepped} {signal : Signal} (hwait : m.raw.awaiting = none)
    (hstep : m.raw.step tape = some stepped) (hok : stepped.outcome = .ok signal) :
    ∃ opcode i effect pointer, m.raw.fetch = .of (.ok opcode) ∧ decode opcode = .of (.ok i) ∧
      m.raw.effect tape i = .of (.ok effect) ∧
      target m.raw.programCounter.toNat effect.move = .of (.ok pointer) ∧
      pointer ≤ Machine.farthest ∧ stepped.chip.programCounter.toNat = pointer := by
  let p : Processor := ⟨m, tape⟩
  have hstepped : p.step.raw = stepped :=
    Option.some.inj ((Processor.step_raw p hm.depth).symm.trans hstep)
  subst hstepped
  cases p.stepCase with
  | waiting hawaits _ =>
      exact absurd (Option.map_eq_none_iff.mp hwait) hawaits
  | unreadable _ _ _ hunreadable =>
      rw [hunreadable] at hok
      cases hok
  | executes opcode i hi hfetch _ =>
      obtain ⟨e, pointer, heffect, htarget, hle, hpointer⟩ :=
        Processor.programCounter_of_step_eq_ok (p := p) hi hok
      refine ⟨opcode, i, e.raw, pointer, ?_, ?_, ?_, ?_, hle, hpointer⟩
      · rw [Machine.fetch_raw]
        exact congrArg Checked.of hfetch
      · have hdecode := hi.2
        rw [Machine.current, hfetch] at hdecode
        exact (decode_eq opcode).trans (congrArg Checked.of hdecode)
      · have heffectRaw := Processor.effect_raw p hm.depth i
        rw [heffect] at heffectRaw
        exact heffectRaw
      · have htargetRaw := Machine.target_of_lt m.programCounter.toNat_lt e.move
        refine htargetRaw.trans ?_
        rw [htarget]
        rfl

/-- Behind the last opcode of the memory, the layout of a machine is stuck. -/
theorem step_raw_of_le {m : Machine} (hm : m.StackBounded)
    (hpointer : Memory.size ≤ m.programCounter.toNat + 1) (hwait : m.raw.awaiting = none)
    (tape : RandomTape) :
    m.raw.step tape = some
      { outcome := .error (.memory (.outOfBounds m.programCounter.toNat Memory.size))
        chip := m.raw
        tape } := by
  let p : Processor := ⟨m, tape⟩
  have hfails := Processor.step_of_le_programCounter (p := p) (Option.map_eq_none_iff.mp hwait)
    hpointer
  refine (Processor.step_raw p hm.depth).trans ?_
  rw [hfails]
  rfl

/-- What holds of every chip that a history leads to. Its parts are well-formed. A step that
executes an instruction computes the place to go to without losing a bit, and that place lies at
most one opcode behind the memory. Unless the history moves the program counter directly, it lies
no farther. And a program counter without an opcode under it stays where it is until it is moved
directly or the chip is reset; all steps until then that do not wait fail. -/
theorem ReachedBy.invariant (hc : c.ReachedBy acts) :
    c.WellFormed ∧
    (∀ tape stepped signal, c.awaiting = none → c.step tape = some stepped →
      stepped.outcome = .ok signal →
      ∃ opcode i effect pointer, c.fetch = .of (.ok opcode) ∧ decode opcode = .of (.ok i) ∧
        c.effect tape i = .of (.ok effect) ∧
        target c.programCounter.toNat effect.move = .of (.ok pointer) ∧
        pointer ≤ Machine.farthest ∧ stepped.chip.programCounter.toNat = pointer) ∧
    ((∀ act ∈ acts, act.isMove = false) → c.programCounter.toNat ≤ Machine.farthest) ∧
    (Memory.size ≤ c.programCounter.toNat + 1 → ∀ more : List Machine.Act,
      (∀ act ∈ more, act.isMove = false ∧ act ≠ .request .reset) →
      ∃ later, c.after more = some later ∧ later.programCounter = c.programCounter ∧
        (later.awaiting = none → ∀ tape, later.step tape = some
          { outcome := .error (.memory (.outOfBounds c.programCounter.toNat Memory.size))
            chip := later
            tape })) := by
  have hm : (Machine.initial.after acts).StackBounded :=
    (Machine.Reachable.initial.after acts).stackBounded
  rw [reachedBy_iff.mp hc]
  refine ⟨wellFormed_raw hm, ?_, ?_, ?_⟩
  · intro tape stepped signal hwait hstep hok
    exact programCounter_of_step_raw hm hwait hstep hok
  · intro hmoves
    have hle := Machine.programCounter_after_le Machine.programCounter_initial_le hmoves
    exact hle
  · intro hpointer more hmore
    have hlater : ((Machine.initial.after acts).after more).StackBounded :=
      ((Machine.Reachable.initial.after acts).after more).stackBounded
    have hcounter := Machine.programCounter_after_of_le hpointer hmore
    have hbehind : Memory.size ≤
        ((Machine.initial.after acts).after more).programCounter.toNat + 1 := by
      rw [hcounter]
      exact hpointer
    refine ⟨_, Machine.after_raw hm more, hcounter, ?_⟩
    intro hwait tape
    have hstuck := step_raw_of_le hlater hbehind hwait tape
    rw [hcounter] at hstuck
    exact hstuck

/-- A program that jumps to the last byte of the memory fails there for ever. -/
theorem invariant_last_byte :
    let acts : List Machine.Act := [.request (.load [0x1F, 0xFF]), .step (.cycle #[])]
    let c := (Machine.initial.after acts).raw
    c.ReachedBy acts ∧ c.WellFormed ∧ c.programCounter = 4095 ∧ 4095 ≤ Machine.farthest ∧
      ∃ later, c.after [.request .tick] = some later ∧ ∀ tape, later.step tape = some
        { outcome := .error (.memory (.outOfBounds 4095 4096)), chip := later, tape } := by
  intro acts c
  have hc : c.ReachedBy acts := reachedBy_iff.mpr rfl
  obtain ⟨memory, hload, hfetch⟩ := Machine.load_initial [0x1F, 0xFF] (by decide)
  have hopcode : Machine.fetch { Machine.initial with memory } = .ok (.ofBytes 0x1F 0xFF) :=
    congrArg (Except.mapError Fault.memory) (hfetch 0 (by decide))
  have hjump : Machine.initial.after acts =
      { Machine.initial with memory, programCounter := 4095 } := by
    show ((Machine.initial.perform (.request (.load [0x1F, 0xFF]))).state.perform
      (.step (.cycle #[]))).state = _
    rw [hload, Machine.perform_step_of_fetch rfl hopcode (i := .jump 4095) rfl]
    rfl
  have hraw : c = { Machine.initial with memory, programCounter := 4095 }.raw :=
    congrArg Machine.raw hjump
  have hpc : c.programCounter = 4095 := congrArg Chip.programCounter hraw
  have hwait : c.awaiting = none := congrArg Chip.awaiting hraw
  clear_value c
  obtain ⟨hwell, -, hfar, hstuck⟩ := hc.invariant
  have hreach : c.programCounter.toNat ≤ Machine.farthest :=
    hfar (by simp [acts, Machine.Act.isMove])
  have hbehind : Memory.size ≤ c.programCounter.toNat + 1 := by
    rw [hpc]
    decide
  obtain ⟨later, hlater, -, hsteps⟩ :=
    hstuck hbehind [.request .tick] (by simp [Machine.Act.isMove])
  have htick : c.after [.request .tick] =
      some { c with delay := c.delay.tick, sound := c.sound.tick } := rfl
  have hidle : later.awaiting = none := by
    rw [← Option.some.inj (htick.symm.trans hlater)]
    exact hwait
  rw [hpc] at hreach hsteps
  exact ⟨hc, hwell, hpc, hreach, later, hlater, hsteps hidle⟩

end Raw.Chip

end Chip8
