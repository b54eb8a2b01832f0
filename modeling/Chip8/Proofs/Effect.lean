import Chip8.Processor.Effect

/-!
What the effect of an instruction leaves alone, and what it does to the call stack, the screen and
the course of the program.

`Machine.Footprint` states it for the parts of the machine; `Processor.footprint_of_effect` goes
through the instructions once. `Processor.jump_of_effect` says where an instruction can jump to, and
`Processor.events_of_effect` what an instruction reports.
-/

namespace Chip8

theorem exists_of_map_eq_ok {ε α β : Type} {x : Except ε α} {f : α → β} {b : β}
    (h : x.map f = .ok b) : ∃ a, x = .ok a ∧ f a = b := by
  cases x with
  | error fault => cases h
  | ok a => exact ⟨a, rfl, Except.ok.inj h⟩

/-- Whether an event tells of the effect of an instruction. -/
def Event.reportsEffect : Event → Bool
  | .pushed _ _ | .popped _ _ | .hostRoutineSkipped _ | .keyAwaited _ => true
  | .decoded _ _ _ | .loaded _ | .keyReceived _ _ => false

namespace Instruction

/-- The instructions that change the call stack. -/
def usesStack : Instruction → Bool
  | .leave | .call _ => true
  | _ => false

/-- The instructions that change the screen. -/
def draws : Instruction → Bool
  | .clearDisplay | .draw _ _ _ => true
  | _ => false

end Instruction

namespace Machine

variable {m after : Machine}

theorem of_pushReturn_eq_ok {events : List Event} (h : m.pushReturn = .ok (after, events)) :
    m.programCounter.toNat + Opcode.size < Memory.size ∧ m.stack.length ≠ stackCapacity ∧
      after = { m with
        stack := UInt16.ofNat (m.programCounter.toNat + Opcode.size) :: m.stack } ∧
      events =
        [.pushed (UInt16.ofNat (m.programCounter.toNat + Opcode.size)) m.stack.length] := by
  rw [pushReturn] at h
  split at h
  · cases h
  · rename_i hinside
    split at h
    · cases h
    · rename_i hroom
      cases h
      exact ⟨Nat.lt_of_not_le hinside, hroom, rfl, rfl⟩

theorem of_popReturn_eq_ok {address : UInt16} {events : List Event}
    (h : m.popReturn = .ok (address, after, events)) :
    m.stack = address :: after.stack ∧ after = { m with stack := after.stack } ∧
      events = [.popped address after.stack.length] := by
  rw [popReturn] at h
  split at h
  · cases h
  · rename_i hstack
    cases h
    exact ⟨hstack, rfl, rfl⟩

theorem of_draw_eq_ok {x y : Register} {height : Nibble} (h : m.draw x y height = .ok after) :
    ∃ sprite, m.memory.read m.index.toNat height.val = .ok sprite ∧
      after =
        { m with
          display := (m.display.drawSprite (m.register x).toNat (m.register y).toNat sprite).screen
          registers := m.registers.set flagRegister.val
            (if (m.display.drawSprite (m.register x).toNat (m.register y).toNat sprite).collision
              then 1 else 0)
          redraw := true } := by
  rw [draw] at h
  split at h
  · cases h
  · rename_i sprite hread
    cases h
    exact ⟨sprite, hread, rfl⟩

/-- The registers of a machine in which one register was set. -/
theorem register_of_registers_eq {x : Register} {value : UInt8}
    (h : after.registers = m.registers.set x.val value x.isLt) (r : Register) :
    after.register r = if r = x then value else m.register r := by
  rw [register, register, h]
  by_cases hr : r = x
  · subst hr
    rw [if_pos rfl]
    exact Vector.getElem_set_self r.isLt
  · rw [if_neg hr]
    exact Vector.getElem_set_ne x.isLt r.isLt fun heq => hr (Fin.ext heq.symm)

theorem of_store_eq_ok {data : List UInt8} (h : m.store data = .ok after) :
    ∃ memory, m.memory.write m.index.toNat data = .ok memory ∧ after = { m with memory } := by
  rw [store] at h
  split at h
  · cases h
  · rename_i memory hwrite
    cases h
    exact ⟨memory, hwrite, rfl⟩

/-- The registers of a machine after some data were loaded into the first of them. -/
def filledFrom (m : Machine) (data : List UInt8) : Vector UInt8 16 :=
  Vector.ofFn fun k => data.getD k.val (m.register k)

theorem read_of_loadRegisters {x : Register} (h : m.loadRegisters x = .ok after) :
    ∃ data, m.memory.read m.index.toNat (x.val + 1) = .ok data ∧
      after = { m with registers := m.filledFrom data } := by
  rw [loadRegisters] at h
  split at h
  · cases h
  · rename_i data hread
    exact ⟨data, hread, (Except.ok.inj h).symm⟩

theorem of_loadRegisters_eq_ok {x : Register} (h : m.loadRegisters x = .ok after) :
    ∃ registers, after = { m with registers } := by
  obtain ⟨data, -, hafter⟩ := read_of_loadRegisters h
  exact ⟨m.filledFrom data, hafter⟩

theorem get_filledFrom (m : Machine) (data : List UInt8) (r : Register) :
    (m.filledFrom data).get r = data[r.val]?.getD (m.register r) := by
  rw [← List.getD_eq_getElem?_getD]
  exact Vector.getElem_ofFn r.isLt

/-- What an instruction does to the parts of a machine before the program counter moves. -/
structure Footprint (i : Instruction) (before after : Machine) : Prop where
  programCounter : after.programCounter = before.programCounter
  stack : i.usesStack = false → after.stack = before.stack
  display : i.draws = false → after.display = before.display
  redraw : after.redraw = (before.redraw || i.draws)

/-- The footprint of an instruction that leaves these four parts alone. -/
theorem Footprint.of_eq {i : Instruction} {before after : Machine} (hi : i.draws = false)
    (hpc : after.programCounter = before.programCounter) (hstack : after.stack = before.stack)
    (hdisplay : after.display = before.display) (hredraw : after.redraw = before.redraw) :
    Footprint i before after where
  programCounter := hpc
  stack _ := hstack
  display _ := hdisplay
  redraw := by rw [hredraw, hi, Bool.or_false]

theorem footprint_binary (m : Machine) (op : BinaryOp) (x y : Register) :
    Footprint (.binary op x y) m (m.binary op x y) := by
  rw [binary]
  split
  · exact .of_eq rfl rfl rfl rfl rfl
  · exact .of_eq rfl rfl rfl rfl rfl

end Machine

namespace Processor

open Machine

variable {p : Processor} {i : Instruction} {e : Effect}

theorem footprint_of_unaryEffect {op : UnaryOp} {x : Register}
    (h : p.unaryEffect x op = .ok e) :
    Footprint (.unary op x) p.machine e.processor.machine := by
  cases op with
  | pointAtGlyph =>
      rw [unaryEffect] at h
      split at h
      · cases h
        exact .of_eq rfl rfl rfl rfl rfl
      · cases h
  | storeDecimal | storeRegisters =>
      obtain ⟨after, hstore, rfl⟩ := exists_of_map_eq_ok h
      obtain ⟨memory, -, rfl⟩ := of_store_eq_ok hstore
      exact .of_eq rfl rfl rfl rfl rfl
  | loadRegisters =>
      obtain ⟨after, hload, rfl⟩ := exists_of_map_eq_ok h
      obtain ⟨registers, rfl⟩ := of_loadRegisters_eq_ok hload
      exact .of_eq rfl rfl rfl rfl rfl
  | _ =>
      cases h
      exact .of_eq rfl rfl rfl rfl rfl

/-- An effect changes the stack only under a call or a return, and the screen only under the two
instructions that draw, which ask for a redraw. -/
theorem footprint_of_effect (h : p.effect i = .ok e) :
    Footprint i p.machine e.processor.machine := by
  cases i with
  | clearDisplay =>
      cases h
      exact ⟨rfl, fun _ => rfl, nofun, (Bool.or_true _).symm⟩
  | leave =>
      obtain ⟨⟨address, after, events⟩, hpop, rfl⟩ := exists_of_map_eq_ok h
      obtain ⟨-, hafter, -⟩ := of_popReturn_eq_ok hpop
      rw [hafter]
      exact ⟨rfl, nofun, fun _ => rfl, (Bool.or_false _).symm⟩
  | call address =>
      obtain ⟨⟨after, events⟩, hpush, rfl⟩ := exists_of_map_eq_ok h
      obtain ⟨-, -, rfl, -⟩ := of_pushReturn_eq_ok hpush
      exact ⟨rfl, nofun, fun _ => rfl, (Bool.or_false _).symm⟩
  | binary op x y =>
      cases h
      exact footprint_binary p.machine op x y
  | draw x y height =>
      obtain ⟨after, hdraw, rfl⟩ := exists_of_map_eq_ok h
      obtain ⟨sprite, -, rfl⟩ := of_draw_eq_ok hdraw
      exact ⟨rfl, fun _ => rfl, nofun, (Bool.or_true _).symm⟩
  | skipOnKey test x =>
      obtain ⟨held, -, rfl⟩ := exists_of_map_eq_ok h
      exact .of_eq rfl rfl rfl rfl rfl
  | unary op x => exact footprint_of_unaryEffect h
  | _ =>
      cases h
      exact .of_eq rfl rfl rfl rfl rfl

theorem move_of_unaryEffect {op : UnaryOp} {x : Register} (h : p.unaryEffect x op = .ok e) :
    e.move = .next := by
  cases op with
  | pointAtGlyph =>
      rw [unaryEffect] at h
      split at h
      · cases h
        rfl
      · cases h
  | storeDecimal | storeRegisters | loadRegisters =>
      obtain ⟨after, -, rfl⟩ := exists_of_map_eq_ok h
      rfl
  | _ =>
      cases h
      rfl

/-- A jump leads into the memory or to an address on the stack, unless it belongs to an instruction
that changes nothing and reports nothing. -/
theorem jump_of_effect {target : Nat} (h : p.effect i = .ok e) (hmove : e.move = .jump target) :
    target < Memory.size ∨ (∃ address ∈ p.machine.stack, target = address.toNat) ∨
      e.processor = p ∧ e.events = [] := by
  cases i with
  | leave =>
      obtain ⟨⟨address, after, events⟩, hpop, rfl⟩ := exists_of_map_eq_ok h
      obtain ⟨hstack, -⟩ := of_popReturn_eq_ok hpop
      cases hmove
      refine Or.inr (Or.inl ⟨address, ?_, rfl⟩)
      rw [hstack]
      exact List.mem_cons_self
  | jump address =>
      cases h
      cases hmove
      exact Or.inl address.isLt
  | call address =>
      obtain ⟨after, -, rfl⟩ := exists_of_map_eq_ok h
      cases hmove
      exact Or.inl address.isLt
  | jumpOffset address =>
      cases h
      exact Or.inr (Or.inr ⟨rfl, rfl⟩)
  | skipIfByte | skipUnlessByte | skipIfSame | skipUnlessSame =>
      cases h
      exact Or.inr (Or.inr ⟨rfl, rfl⟩)
  | skipOnKey test x =>
      obtain ⟨held, -, rfl⟩ := exists_of_map_eq_ok h
      exact Or.inr (Or.inr ⟨rfl, rfl⟩)
  | draw x y height =>
      obtain ⟨after, -, rfl⟩ := exists_of_map_eq_ok h
      cases hmove
  | unary op x =>
      rw [move_of_unaryEffect h] at hmove
      cases hmove
  | _ =>
      cases h
      cases hmove

theorem events_of_unaryEffect {op : UnaryOp} {x : Register} (h : p.unaryEffect x op = .ok e) :
    e.events = [] ∨ e.events = [.keyAwaited x] := by
  cases op with
  | awaitKey =>
      cases h
      exact .inr rfl
  | pointAtGlyph =>
      rw [unaryEffect] at h
      split at h
      · cases h
        exact .inl rfl
      · cases h
  | storeDecimal | storeRegisters | loadRegisters =>
      obtain ⟨after, -, rfl⟩ := exists_of_map_eq_ok h
      exact .inl rfl
  | _ =>
      cases h
      exact .inl rfl

/-- What an instruction that leaves the stack alone reports. -/
theorem events_of_effect (h : p.effect i = .ok e) (huses : i.usesStack = false) :
    e.events = [] ∨ (∃ address, e.events = [.hostRoutineSkipped address]) ∨
      ∃ x, e.events = [.keyAwaited x] := by
  cases i with
  | leave | call => cases huses
  | hostRoutine address =>
      cases h
      exact .inr (.inl ⟨address, rfl⟩)
  | draw x y height | skipOnKey test x =>
      obtain ⟨result, -, rfl⟩ := exists_of_map_eq_ok h
      exact .inl rfl
  | unary op x => exact (events_of_unaryEffect h).imp_right fun hevents => .inr ⟨x, hevents⟩
  | _ =>
      cases h
      exact .inl rfl

theorem reportsEffect_of_effect (h : p.effect i = .ok e) :
    ∀ event ∈ e.events, event.reportsEffect = true := by
  cases huses : i.usesStack with
  | false =>
      obtain hevents | ⟨address, hevents⟩ | ⟨x, hevents⟩ := events_of_effect h huses
      · rw [hevents]
        exact List.forall_mem_nil _
      · rw [hevents]
        exact List.forall_mem_singleton.mpr rfl
      · rw [hevents]
        exact List.forall_mem_singleton.mpr rfl
  | true =>
      cases i with
      | leave =>
          obtain ⟨⟨address, after, events⟩, hpop, rfl⟩ := exists_of_map_eq_ok h
          obtain ⟨-, -, rfl⟩ := of_popReturn_eq_ok hpop
          exact List.forall_mem_singleton.mpr rfl
      | call address =>
          obtain ⟨⟨after, events⟩, hpush, rfl⟩ := exists_of_map_eq_ok h
          obtain ⟨-, -, -, rfl⟩ := of_pushReturn_eq_ok hpush
          exact List.forall_mem_singleton.mpr rfl
      | _ => cases huses

/-- Effects are reported at one level. -/
theorem level_of_effect (h : p.effect i = .ok e) : ∀ event ∈ e.events, event.level = .debug := by
  intro event hmem
  have hreports := reportsEffect_of_effect h event hmem
  cases event with
  | decoded => cases hreports
  | _ => rfl

end Processor

end Chip8
