import Chip8.Proofs.CallStack
import Chip8.Proofs.Coding
import Chip8.Proofs.Counter
import Chip8.Proofs.Periphery

/-!
Which steps fail, and with which fault.

`Machine.refusal?` tells from a machine alone why it refuses an instruction: what the instruction
needs is not there, or it leads or reaches out of the memory. A step of a reachable machine answers
with that fault, and with the signal of the instruction where there is none:
`Processor.outcome_of_executes`. Together with the two faults of reading an instruction this settles
every step: `Machine.Reachable.step_outcome`.
-/

namespace Chip8

/-- How many bytes an instruction reads or writes from the index register on. -/
def Instruction.span? : Instruction → Option Nat
  | .draw _ _ height => some height.val
  | .unary .storeDecimal _ => some 3
  | .unary .storeRegisters x | .unary .loadRegisters x => some (x.val + 1)
  | _ => none

/-- Whether a fault can be a refusal: it is not about the word of the instruction, nor about an
address of the memory. -/
def Fault.isRefusal : Fault → Bool
  | .opcode (.unsupported _) => false
  | .memory (.outOfBounds address _) => Memory.size ≤ address
  | _ => true

namespace Machine

variable (m : Machine)

/-- Why `count` bytes from the index register on are refused. -/
def spanRefusal? (count : Nat) : Option Fault :=
  if Memory.size < m.index.toNat + count then
    some (.memory (.outOfBounds (max m.index.toNat Memory.size) Memory.size))
  else none

/-- Why a machine refuses an instruction, if it does. -/
def refusal? : Instruction → Option Fault
  | .leave => if m.stack = [] then some (.stack .empty) else none
  | .call _ =>
    -- A call in the last word of the memory has no place to return to.
    if m.programCounter.toNat + Opcode.size = Memory.size then
      some (.memory (.outOfBounds Memory.size Memory.size))
    else if m.stack.length = stackCapacity then some (.stack .full)
    else none
  | .jumpOffset address =>
    if Memory.size ≤ m.offsetTarget address then
      some (.memory (.outOfBounds (m.offsetTarget address) Memory.size))
    else none
  | .skipOnKey _ x =>
    if 16 ≤ (m.register x).toNat then some (.noSuchKey (m.register x).toNat) else none
  | .unary .pointAtGlyph x =>
    if 16 ≤ (m.register x).toNat then some (.opcode (.noGlyph (m.register x))) else none
  | i => i.span?.bind m.spanRefusal?

/-- What a machine answers to an instruction. -/
def answer (i : Instruction) : Except Fault Signal :=
  match m.refusal? i with
  | some fault => .error fault
  | none => .ok i.signal

variable {m} {i : Instruction}

theorem answer_of_refusal?_eq_some {fault : Fault} (h : m.refusal? i = some fault) :
    m.answer i = .error fault := by
  rw [answer, h]

theorem answer_of_refusal?_eq_none (h : m.refusal? i = none) : m.answer i = .ok i.signal := by
  rw [answer, h]

theorem of_answer_eq_error {fault : Fault} (h : m.answer i = .error fault) :
    m.refusal? i = some fault := by
  cases hrefusal : m.refusal? i with
  | none =>
      rw [answer_of_refusal?_eq_none hrefusal] at h
      cases h
  | some refused =>
      rw [answer_of_refusal?_eq_some hrefusal] at h
      cases h
      rfl

theorem refusal?_of_span? {count : Nat} (h : i.span? = some count) :
    m.refusal? i = m.spanRefusal? count := by
  cases i with
  | draw x y height =>
      cases h
      rfl
  | unary op x => cases op <;> cases h <;> rfl
  | _ => cases h

/-- The answer to an instruction that works on a span of bytes. -/
theorem answer_of_span? {count : Nat} (h : i.span? = some count) :
    m.answer i =
      if Memory.size < m.index.toNat + count then
        .error (.memory (.outOfBounds (max m.index.toNat Memory.size) Memory.size))
      else .ok i.signal := by
  rw [answer, refusal?_of_span? h, spanRefusal?]
  by_cases hout : Memory.size < m.index.toNat + count
  · rw [if_pos hout, if_pos hout]
  · rw [if_neg hout, if_neg hout]

theorem isRefusal_of_span {count : Nat} {fault : Fault} (h : m.spanRefusal? count = some fault) :
    fault.isRefusal = true := by
  obtain ⟨-, heq⟩ := Option.ite_none_right_eq_some.mp h
  cases heq
  exact decide_eq_true (Nat.le_max_right _ _)

theorem isRefusal_of_refusal? {fault : Fault} (h : m.refusal? i = some fault) :
    fault.isRefusal = true := by
  cases i with
  | leave | skipOnKey test x =>
      obtain ⟨-, heq⟩ := Option.ite_none_right_eq_some.mp h
      cases heq
      rfl
  | call address =>
      rw [refusal?] at h
      split at h
      · cases h
        rfl
      · obtain ⟨-, heq⟩ := Option.ite_none_right_eq_some.mp h
        cases heq
        rfl
  | jumpOffset address =>
      obtain ⟨houtside, heq⟩ := Option.ite_none_right_eq_some.mp h
      cases heq
      exact decide_eq_true houtside
  | draw x y height => exact isRefusal_of_span h
  | unary op x =>
      cases op with
      | pointAtGlyph =>
          obtain ⟨-, heq⟩ := Option.ite_none_right_eq_some.mp h
          cases heq
          rfl
      | storeDecimal | storeRegisters | loadRegisters => exact isRefusal_of_span h
      | _ => cases h
  | _ => cases h

end Machine

theorem Move.skipIf_ne_jump (condition : Bool) (target : Nat) :
    Move.skipIf condition ≠ .jump target := by
  cases condition <;> nofun

namespace Processor

open Machine

variable {p : Processor} {i : Instruction} {e : Effect}

theorem outcome_of_effect_eq_error {fault : Fault} (h : p.effect i = .error fault) :
    (p.execute i).outcome = .error fault := by
  rw [execute, h]

theorem outcome_of_ne_jump (h : p.effect i = .ok e) (hmove : ∀ target, e.move ≠ .jump target) :
    (p.execute i).outcome = .ok i.signal := by
  cases hmoved : e.processor.machine.move e.move with
  | error fault =>
      obtain ⟨target, hjump, -⟩ := of_move_eq_error hmoved
      exact absurd hjump (hmove target)
  | ok machine =>
      rw [execute_of_move_eq_ok h hmoved, (periphery_of_effect h).signal]

theorem outcome_of_next (h : p.effect i = .ok e) (hmove : e.move = .next) :
    (p.execute i).outcome = .ok i.signal :=
  outcome_of_ne_jump h fun _ hjump => nomatch hmove.symm.trans hjump

theorem outcome_of_jump {target : Nat} (h : p.effect i = .ok e) (hmove : e.move = .jump target) :
    (p.execute i).outcome =
      if target < Memory.size then .ok i.signal
      else .error (.memory (.outOfBounds target Memory.size)) := by
  have hmoved : e.processor.machine.move e.move =
      if target < Memory.size then
        .ok { e.processor.machine with programCounter := UInt16.ofNat target }
      else .error (.memory (.outOfBounds target Memory.size)) := by
    rw [hmove, Machine.move, Move.target]
    by_cases hinside : target < Memory.size
    · rw [if_pos hinside, if_pos hinside]
    · rw [if_neg hinside, if_neg hinside]
  by_cases hinside : target < Memory.size
  · rw [if_pos hinside] at hmoved ⊢
    rw [execute_of_move_eq_ok h hmoved, (periphery_of_effect h).signal]
  · rw [if_neg hinside] at hmoved ⊢
    rw [execute_of_move_eq_error h hmoved]

theorem outcome_leave (hp : p.machine.StackBounded) :
    (p.execute .leave).outcome = p.machine.answer .leave := by
  cases hstack : p.machine.stack with
  | nil =>
      rw [answer_of_refusal?_eq_some (by rw [refusal?, if_pos hstack])]
      refine outcome_of_effect_eq_error ?_
      rw [effect, popReturn, hstack]
      rfl
  | cons address stack =>
      have hinside := (hp.inside address (by rw [hstack]; exact List.mem_cons_self)).2
      have heffect : p.effect .leave =
          .ok { processor := p.withMachine { p.machine with stack }
                move := .jump address.toNat
                events := [.popped address stack.length] } := by
        rw [effect, popReturn, hstack]
        rfl
      have hopen : p.machine.stack ≠ [] := by
        rw [hstack]
        exact List.cons_ne_nil address stack
      rw [answer_of_refusal?_eq_none (by rw [refusal?, if_neg hopen]),
        outcome_of_jump heffect rfl, if_pos hinside]

theorem outcome_call (hp : p.machine.programCounter.toNat + 1 < Memory.size) (address : Address) :
    (p.execute (.call address)).outcome = p.machine.answer (.call address) := by
  by_cases hlast : p.machine.programCounter.toNat + Opcode.size = Memory.size
  · rw [answer_of_refusal?_eq_some (by rw [refusal?, if_pos hlast])]
    refine outcome_of_effect_eq_error ?_
    rw [effect, pushReturn, if_pos (Nat.le_of_eq hlast.symm), hlast]
    rfl
  · have hinside : ¬ Memory.size ≤ p.machine.programCounter.toNat + Opcode.size := by
      rw [Opcode.size] at hlast ⊢
      omega
    by_cases hfull : p.machine.stack.length = stackCapacity
    · rw [answer_of_refusal?_eq_some (by rw [refusal?, if_neg hlast, if_pos hfull])]
      refine outcome_of_effect_eq_error ?_
      simp only [effect, pushReturn, if_neg hinside, if_pos hfull]
      rfl
    · rw [answer_of_refusal?_eq_none (by rw [refusal?, if_neg hlast, if_neg hfull])]
      have heffect : ∃ pushed events, p.effect (.call address) =
          .ok { processor := p.withMachine pushed, move := .jump address.val, events } := by
        simp only [effect, pushReturn, if_neg hinside, if_neg hfull]
        exact ⟨_, _, rfl⟩
      obtain ⟨pushed, events, heffect⟩ := heffect
      have htarget : address.val < Memory.size := address.isLt
      rw [outcome_of_jump heffect rfl, if_pos htarget]

theorem outcome_jumpOffset (address : Address) :
    (p.execute (.jumpOffset address)).outcome = p.machine.answer (.jumpOffset address) := by
  rw [outcome_of_jump (i := .jumpOffset address) rfl rfl, answer, refusal?]
  by_cases hinside : p.machine.offsetTarget address < Memory.size
  · rw [if_pos hinside, if_neg (Nat.not_le.mpr hinside)]
  · rw [if_neg hinside, if_pos (Nat.le_of_not_lt hinside)]

theorem outcome_skipOnKey (test : KeyTest) (x : Register) :
    (p.execute (.skipOnKey test x)).outcome = p.machine.answer (.skipOnKey test x) := by
  by_cases hkey : (p.machine.register x).toNat < 16
  · rw [answer_of_refusal?_eq_none (by rw [refusal?, if_neg (Nat.not_le.mpr hkey)])]
    have heffect : ∃ condition, p.effect (.skipOnKey test x) =
        .ok { processor := p, move := .skipIf condition } := by
      rw [effect, Keypad.isHeld, dif_pos hkey]
      exact ⟨_, rfl⟩
    obtain ⟨condition, heffect⟩ := heffect
    exact outcome_of_ne_jump heffect (Move.skipIf_ne_jump condition)
  · rw [answer_of_refusal?_eq_some (by rw [refusal?, if_pos (Nat.le_of_not_lt hkey)])]
    refine outcome_of_effect_eq_error ?_
    rw [effect, Keypad.isHeld, dif_neg hkey]
    rfl

theorem outcome_pointAtGlyph (x : Register) :
    (p.execute (.unary .pointAtGlyph x)).outcome = p.machine.answer (.unary .pointAtGlyph x) := by
  by_cases hdigit : (p.machine.register x).toNat < 16
  · rw [answer_of_refusal?_eq_none (by rw [refusal?, if_neg (Nat.not_le.mpr hdigit)])]
    have heffect : ∃ pointed, p.effect (.unary .pointAtGlyph x) = .ok { processor := pointed } := by
      simp only [effect, unaryEffect, if_pos hdigit]
      exact ⟨_, rfl⟩
    obtain ⟨pointed, heffect⟩ := heffect
    exact outcome_of_next heffect rfl
  · rw [answer_of_refusal?_eq_some (by rw [refusal?, if_pos (Nat.le_of_not_lt hdigit)])]
    refine outcome_of_effect_eq_error ?_
    simp only [effect, unaryEffect, if_neg hdigit]

/-- What an instruction does whose span is checked before anything else. -/
structure SpanEffect (p : Processor) (i : Instruction) (count : Nat) : Prop where
  outside : Memory.size < p.machine.index.toNat + count →
    p.effect i =
      .error (.memory (.outOfBounds (max p.machine.index.toNat Memory.size) Memory.size))
  inside : p.machine.index.toNat + count ≤ Memory.size → ∃ e, p.effect i = .ok e ∧ e.move = .next

theorem spanEffect_of_store {data : List UInt8}
    (h : p.effect i =
      (p.machine.store data).map fun machine => { processor := p.withMachine machine }) :
    SpanEffect p i data.length where
  outside hout := by
    rw [h, store, Memory.write_of_lt _ hout]
    rfl
  inside hin := by
    rw [h, store, Memory.write_of_le _ hin]
    exact ⟨_, rfl, rfl⟩

theorem spanEffect_of_span? {count : Nat} (h : i.span? = some count) : SpanEffect p i count := by
  cases i with
  | draw x y height =>
      cases h
      constructor
      · intro hout
        rw [effect, draw, Memory.read_of_lt _ hout]
        rfl
      · intro hin
        rw [effect, draw, Memory.read_of_le _ hin]
        exact ⟨_, rfl, rfl⟩
  | unary op x =>
      cases op with
      | storeDecimal =>
          cases h
          exact spanEffect_of_store (i := .unary .storeDecimal x) rfl
      | storeRegisters =>
          cases h
          have hlength : (p.machine.registers.toList.take (x.val + 1)).length = x.val + 1 := by
            have hx := x.isLt
            rw [List.length_take, Vector.length_toList]
            omega
          have hstore := spanEffect_of_store (p := p) (i := .unary .storeRegisters x) rfl
          rw [hlength] at hstore
          exact hstore
      | loadRegisters =>
          cases h
          constructor
          · intro hout
            rw [effect, unaryEffect, loadRegisters, Memory.read_of_lt _ hout]
            rfl
          · intro hin
            rw [effect, unaryEffect, loadRegisters, Memory.read_of_le _ hin]
            exact ⟨_, rfl, rfl⟩
      | _ => cases h
  | _ => cases h

theorem outcome_of_span? {count : Nat} (h : i.span? = some count) :
    (p.execute i).outcome = p.machine.answer i := by
  rw [answer_of_span? h]
  obtain ⟨houtside, hinside⟩ := spanEffect_of_span? (p := p) h
  by_cases hout : Memory.size < p.machine.index.toNat + count
  · rw [if_pos hout]
    exact outcome_of_effect_eq_error (houtside hout)
  · rw [if_neg hout]
    obtain ⟨e, heffect, hmove⟩ := hinside (Nat.le_of_not_lt hout)
    exact outcome_of_next heffect hmove

/-- A step answers to the instruction under the program counter as `Machine.answer` says. -/
theorem outcome_of_executes (hp : p.machine.StackBounded) (hi : p.machine.Executes i) :
    p.step.outcome = p.machine.answer i := by
  obtain ⟨opcode, -, hstep⟩ := step_of_executes hi
  rw [hstep]
  show (p.execute i).outcome = p.machine.answer i
  cases i with
  | leave => exact outcome_leave hp
  | jump address =>
      have htarget : address.val < Memory.size := address.isLt
      rw [outcome_of_jump (i := .jump address) rfl rfl, if_pos htarget]
      rfl
  | call address => exact outcome_call hi.programCounter_lt address
  | jumpOffset address => exact outcome_jumpOffset address
  | skipIfByte | skipUnlessByte | skipIfSame | skipUnlessSame =>
      rw [outcome_of_ne_jump rfl (Move.skipIf_ne_jump _)]
      rfl
  | draw => exact outcome_of_span? rfl
  | skipOnKey test x => exact outcome_skipOnKey test x
  | unary op x =>
      cases op with
      | pointAtGlyph => exact outcome_pointAtGlyph x
      | storeDecimal | storeRegisters | loadRegisters => exact outcome_of_span? rfl
      | _ => rfl
  | _ => rfl

/-- What a step comes to over a word. -/
inductive WordCase (p : Processor) (opcode : Opcode) : Prop
  | unsupported (hnone : ¬ ∃ i : Instruction, i.encode = opcode)
      (houtcome : p.step.outcome = .error (.opcode (.unsupported opcode)))
  | answered (i : Instruction) (hencode : i.encode = opcode)
      (houtcome : p.step.outcome = p.machine.answer i)

theorem wordCase (hp : p.machine.StackBounded) (hwait : p.machine.awaiting = none)
    {opcode : Opcode} (hfetch : p.machine.fetch = .ok opcode) : p.WordCase opcode := by
  cases hdecode : decode opcode with
  | error fault =>
      refine .unsupported ?_ ?_
      · rw [Instruction.exists_encode_eq_iff, hdecode]
        nofun
      · have hcurrent : p.machine.current = .error (.opcode fault) := by
          simp only [current, hfetch, hdecode]
          rfl
        rw [step_of_current_error hwait hcurrent, Instruction.of_decode_eq_error hdecode]
  | ok i =>
      have hencode := Instruction.encode_of_decode hdecode
      exact .answered i hencode (outcome_of_executes hp (executes_of_fetch hwait hfetch hdecode))

end Processor

namespace Machine

/-- When a step of a reachable machine fails, and how. It does not fail while the program waits.
Otherwise it needs a word under the program counter, the word has to encode an instruction, and the
machine must not refuse the instruction. -/
theorem Reachable.step_outcome {m : Machine} (hm : m.Reachable) (tape : RandomTape) :
    let outcome := (Processor.step ⟨m, tape⟩).outcome
    (m.awaiting ≠ none → outcome = .ok .wait) ∧
    (m.awaiting = none →
      (outcome = .error (.memory (.outOfBounds m.programCounter.toNat Memory.size)) ↔
        4095 ≤ m.programCounter.toNat) ∧
      ∀ hpc : m.programCounter.toNat + 1 < 4096,
        let opcode := Opcode.ofBytes m.memory.bytes[m.programCounter.toNat]
          m.memory.bytes[m.programCounter.toNat + 1]
        (outcome = .error (.opcode (.unsupported opcode)) ↔
          ¬ ∃ i : Instruction, i.encode = opcode) ∧
        ∀ i : Instruction, i.isCanonical = true → i.encode = opcode →
          outcome =
            match m.refusal? i with
            | some fault => .error fault
            | none => .ok i.signal) := by
  let p : Processor := ⟨m, tape⟩
  have hbounded : p.machine.StackBounded := hm.stackBounded
  refine ⟨fun hwait => ?_, fun hwait => ?_⟩
  · obtain ⟨x, hx⟩ := Option.ne_none_iff_exists'.mp hwait
    exact congrArg Report.outcome (Processor.step_of_awaiting (p := p) hx)
  have hfetch : ∀ hpc : m.programCounter.toNat + 1 < 4096,
      m.fetch = .ok (.ofBytes m.memory.bytes[m.programCounter.toNat]
        m.memory.bytes[m.programCounter.toNat + 1]) := fun hpc =>
    fetch_of_memory (Memory.fetch_of_lt _ hpc)
  refine ⟨⟨fun houtcome => ?_, fun hpc => ?_⟩, fun hpc => ⟨?_, fun i hi hencode => ?_⟩⟩
  · refine Nat.le_of_not_lt fun hlt => ?_
    cases p.wordCase hbounded hwait (hfetch (by omega)) with
    | unsupported _ hunsupported => cases houtcome.symm.trans hunsupported
    | answered i _ hanswer =>
        have hrefusal := of_answer_eq_error (hanswer.symm.trans houtcome)
        have houtside : 4096 ≤ m.programCounter.toNat :=
          of_decide_eq_true (isRefusal_of_refusal? hrefusal)
        omega
  · exact congrArg Report.outcome
      (Processor.step_of_le_programCounter (p := p) hwait (Nat.succ_le_succ hpc))
  · cases p.wordCase hbounded hwait (hfetch hpc) with
    | unsupported hnone hunsupported => exact iff_of_true hunsupported hnone
    | answered i hencode hanswer =>
        refine iff_of_false (fun houtcome => ?_) (not_not_intro ⟨i, hencode⟩)
        have hrefusal := of_answer_eq_error (hanswer.symm.trans houtcome)
        cases isRefusal_of_refusal? hrefusal
  · have hdecode : decode i.encode = .ok i :=
      Instruction.decode_eq_ok_iff.mpr (Instruction.ofOpcode?_encode hi)
    rw [hencode] at hdecode
    exact Processor.outcome_of_executes (p := p) hbounded
      (executes_of_fetch hwait (hfetch hpc) hdecode)

/-- The program `60 01 BF FF` loads one into `V0` and jumps to `V0` behind the last address. -/
theorem step_outcome_offset_jump :
    let m := initial.after [.request (.load [0x60, 0x01, 0xBF, 0xFF]), .step (.cycle #[])]
    m.Reachable ∧ m.awaiting = none ∧ m.programCounter = 0x202 ∧
      (Processor.step ⟨m, .cycle #[]⟩).outcome = .error (.memory (.outOfBounds 4096 4096)) := by
  intro m
  have hreach : m.Reachable := Reachable.initial.after _
  obtain ⟨memory, hload, hfetch⟩ := load_initial [0x60, 0x01, 0xBF, 0xFF] (by decide)
  let loaded : Machine := { initial with memory }
  have hfirst : loaded.fetch = .ok (.ofBytes 0x60 0x01) :=
    congrArg (Except.mapError Fault.memory) (hfetch 0 (by decide))
  have hm : m = { loaded.setRegister 0 1 with programCounter := 0x202 } := by
    show initial.after _ = _
    rw [after_cons, hload, after_cons,
      perform_step_of_fetch (m := loaded) (i := .loadByte 0 1) rfl hfirst rfl]
    rfl
  clear_value m
  have hwait : m.awaiting = none := by
    rw [hm]
    rfl
  have hpc : m.programCounter = 0x202 := by rw [hm]
  have hlt : m.programCounter.toNat + 1 < 4096 := by
    rw [hpc]
    decide
  have hsecond : m.memory.fetch m.programCounter.toNat = .ok (.ofBytes 0xBF 0xFF) := by
    rw [hm]
    exact hfetch 2 (by decide)
  have hword := Except.ok.inj (hsecond.symm.trans (m.memory.fetch_of_lt hlt))
  obtain ⟨-, hanswers⟩ := ((hreach.step_outcome (.cycle #[])).2 hwait).2 hlt
  have hrefusal : m.refusal? (.jumpOffset 0xFFF) = some (.memory (.outOfBounds 4096 4096)) := by
    have htarget : m.offsetTarget 0xFFF = 4096 := by
      rw [hm]
      rfl
    rw [refusal?, htarget]
    exact if_pos (Nat.le_refl 4096)
  have hanswer := hanswers (.jumpOffset 0xFFF) rfl hword
  rw [hrefusal] at hanswer
  exact ⟨hreach, hwait, hpc, hanswer⟩

end Machine

end Chip8
