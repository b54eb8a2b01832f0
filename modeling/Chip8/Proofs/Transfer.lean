import Chip8.Proofs.Step

/-!
Registers through the memory and back.

What an instruction stores from the index register on is loaded again by any machine that points at
the same bytes: `Processor.loads_of_stores`. So registers come back as they were, and the digits of
a number make up that number. A block of registers that was loaded is stored where it came from
without a trace. `Processor.registers_through_memory` puts the three together.
-/

namespace Chip8

/-- The digits of a byte make up its value. -/
theorem decimalDigits_value (value : UInt8) :
    (value / 100).toNat ≤ 9 ∧ (value / 10 % 10).toNat ≤ 9 ∧ (value % 10).toNat ≤ 9 ∧
      100 * (value / 100).toNat + 10 * (value / 10 % 10).toNat + (value % 10).toNat =
        value.toNat := by
  have hlt := value.toNat_lt
  have hhundreds : (value / 100).toNat = value.toNat / 100 := UInt8.toNat_div _ _
  have htens : (value / 10 % 10).toNat = value.toNat / 10 % 10 := UInt8.toNat_mod _ _
  have hones : (value % 10).toNat = value.toNat % 10 := UInt8.toNat_mod _ _
  omega

namespace Machine

/-- The index registers of two machines point at the same `count` bytes. -/
structure SameSpan (count : Nat) (a b : Machine) : Prop where
  index : b.index = a.index
  bytes : ∀ k < count, b.memory.bytes[a.index.toNat + k]? = a.memory.bytes[a.index.toNat + k]?

theorem SameSpan.refl (count : Nat) (m : Machine) : SameSpan count m m := ⟨rfl, fun _ _ => rfl⟩

/-- The registers up to `x` have been filled with some values; the others, the memory and the index
register are as they were. -/
structure Filled (x : Register) (value : Register → UInt8) (before after : Machine) : Prop where
  filled : ∀ r ≤ x, after.register r = value r
  others : ∀ r, x < r → after.register r = before.register r
  memory : after.memory = before.memory
  index : after.index = before.index

variable {m : Machine} {x : Register} {data : List UInt8}

theorem loadRegisters_of_read (h : m.memory.read m.index.toNat (x.val + 1) = .ok data) :
    m.loadRegisters x = .ok { m with registers := m.filledFrom data } := by
  rw [loadRegisters, h]
  rfl

theorem filled_of_registers {after : Machine} (hlength : data.length = x.val + 1)
    (hregisters : after.registers = m.filledFrom data) (hmemory : after.memory = m.memory)
    (hindex : after.index = m.index) : Filled x (fun r => data[r.val]?.getD 0) m after := by
  have hregister : ∀ r, after.register r = data[r.val]?.getD (m.register r) := fun r => by
    rw [register, hregisters, get_filledFrom]
  refine ⟨fun r hr => ?_, fun r hr => ?_, hmemory, hindex⟩
  · have hinside : r.val < data.length := by
      rw [hlength]
      exact Nat.lt_succ_of_le hr
    rw [hregister, List.getElem?_eq_getElem hinside, Option.getD_some, Option.getD_some]
  · have houtside : data.length ≤ r.val := by
      rw [hlength]
      exact hr
    rw [hregister, List.getElem?_eq_none houtside, Option.getD_none]

/-- The registers that data were loaded into hold just these data. -/
theorem take_filledFrom (m : Machine) (hlength : data.length = x.val + 1) :
    (m.filledFrom data).toList.take (x.val + 1) = data := by
  refine List.ext_getElem? fun k => ?_
  by_cases hk : k < x.val + 1
  · have hregister : k < 16 := Nat.lt_of_lt_of_le hk x.isLt
    have hget := get_filledFrom m data ⟨k, hregister⟩
    have hinside : k < data.length := hlength ▸ hk
    rw [List.getElem?_eq_getElem hinside, Option.getD_some] at hget
    rw [List.getElem?_take_of_lt hk, List.getElem?_eq_getElem hinside, ← hget,
      Vector.getElem?_toList, Vector.getElem?_eq_getElem hregister]
    rfl
  · have hout := Nat.le_of_not_lt hk
    rw [List.getElem?_take_eq_none hout, List.getElem?_eq_none (by rw [hlength]; exact hout)]

end Machine

namespace Processor

open Machine

/-- Whether an instruction is executed without a fault. -/
def Succeeds (p : Processor) (i : Instruction) : Prop :=
  ∃ signal, (p.execute i).outcome = .ok signal

/-- Loading the registers up to `x` succeeds and fills them with some values. -/
structure Loads (t : Processor) (x : Register) (value : Register → UInt8) : Prop where
  outcome : (t.execute (.unary .loadRegisters x)).outcome = .ok .proceed
  filled : Filled x value t.machine (t.execute (.unary .loadRegisters x)).state.machine

variable {p t : Processor} {x : Register}

theorem loads_of_read (data : List UInt8)
    (h : t.machine.memory.read t.machine.index.toNat (x.val + 1) = .ok data) :
    t.Loads x fun r => data[r.val]?.getD 0 := by
  have heffect : t.effect (.unary .loadRegisters x) =
      .ok { processor := t.withMachine { t.machine with
              registers := t.machine.filledFrom data } } := by
    rw [effect, unaryEffect, loadRegisters_of_read h]
    rfl
  obtain ⟨hlength, -⟩ := Memory.of_read_eq_ok h
  obtain ⟨houtcome, programCounter, hstate⟩ := execute_of_next heffect rfl
  refine ⟨houtcome, ?_⟩
  rw [hstate]
  dsimp only [withMachine]
  exact filled_of_registers hlength rfl rfl rfl

/-- Data that were stored are loaded again by a machine that points at the same bytes. -/
theorem loads_of_stores {i : Instruction} (data : List UInt8)
    (heffect : p.effect i =
      (p.machine.store data).map fun machine => { processor := p.withMachine machine })
    (hok : p.Succeeds i) (hlength : data.length = x.val + 1)
    (hspan : SameSpan (x.val + 1) (p.execute i).state.machine t.machine) :
    t.Loads x fun r => data[r.val]?.getD 0 := by
  obtain ⟨signal, houtcome⟩ := hok
  obtain ⟨e, machine, hstored, hmove, -, hstate⟩ := of_execute_eq_ok houtcome
  rw [heffect] at hstored
  obtain ⟨stored, hstore, rfl⟩ := exists_of_map_eq_ok hstored
  obtain ⟨memory, hwrite, rfl⟩ := of_store_eq_ok hstore
  obtain ⟨target, -, rfl⟩ := of_move_eq_ok hmove
  obtain ⟨hfit, rfl⟩ := Memory.of_write_eq_ok hwrite
  rw [hstate] at hspan
  obtain ⟨hindex, hbytes⟩ := hspan
  refine loads_of_read data ?_
  rw [hindex, ← hlength]
  refine Memory.read_eq_ok_of_bytes hfit fun k hk => ?_
  rw [List.getElem?_eq_getElem hk]
  exact (hbytes k (hlength ▸ hk)).trans (Memory.getElem?_place _ hk hfit)

/-- A block of registers that was loaded is stored where it came from. -/
theorem stores_of_loads {loaded : Processor} (hok : p.Succeeds (.unary .loadRegisters x))
    (hloaded : (p.execute (.unary .loadRegisters x)).state = loaded) :
    (loaded.execute (.unary .storeRegisters x)).outcome = .ok .proceed ∧
      (loaded.execute (.unary .storeRegisters x)).state.machine.memory = p.machine.memory := by
  obtain ⟨signal, houtcome⟩ := hok
  obtain ⟨e, machine, heffect, hmove, -, hstate⟩ := of_execute_eq_ok houtcome
  obtain ⟨filled, hload, rfl⟩ := exists_of_map_eq_ok heffect
  obtain ⟨data, hread, rfl⟩ := read_of_loadRegisters hload
  obtain ⟨target, -, rfl⟩ := of_move_eq_ok hmove
  obtain ⟨hlength, -⟩ := Memory.of_read_eq_ok hread
  have hfit : p.machine.index.toNat + data.length ≤ Memory.size := by
    rw [hlength]
    exact Memory.le_size_of_read hread
  have hmachine : loaded.machine = { p.machine with
      registers := p.machine.filledFrom data, programCounter := UInt16.ofNat target } := by
    rw [← hloaded, hstate]
    dsimp only [withMachine]
  have hstore : loaded.machine.store (loaded.machine.registers.toList.take (x.val + 1)) =
      .ok loaded.machine := by
    rw [hmachine]
    simp only [take_filledFrom p.machine hlength]
    rw [store, Memory.write_of_le _ hfit, Memory.place_eq_self hread]
  have hstored : loaded.effect (.unary .storeRegisters x) =
      .ok { processor := loaded.withMachine loaded.machine } := by
    rw [effect, unaryEffect, hstore]
    rfl
  obtain ⟨hproceed, programCounter, hafter⟩ := execute_of_next hstored rfl
  refine ⟨hproceed, ?_⟩
  rw [hafter]
  show loaded.machine.memory = _
  rw [hmachine]

/-- Registers go through the memory unchanged. Registers that were stored are loaded by every
machine that points at the same bytes, registers that were loaded are stored without a change of
the memory, and the digits of a number are loaded as the three digits that make it up. -/
theorem registers_through_memory (p : Processor) (x : Register) :
    (p.Succeeds (.unary .storeRegisters x) → ∀ t : Processor,
      SameSpan (x.val + 1) (p.execute (.unary .storeRegisters x)).state.machine t.machine →
      t.Loads x p.machine.register) ∧
    (p.Succeeds (.unary .loadRegisters x) →
      let loaded := (p.execute (.unary .loadRegisters x)).state
      (loaded.execute (.unary .storeRegisters x)).outcome = .ok .proceed ∧
        (loaded.execute (.unary .storeRegisters x)).state.machine.memory = p.machine.memory) ∧
    (p.Succeeds (.unary .storeDecimal x) → ∀ t : Processor,
      SameSpan 3 (p.execute (.unary .storeDecimal x)).state.machine t.machine →
      ∃ digit : Register → UInt8, t.Loads 2 digit ∧ (∀ r ≤ 2, (digit r).toNat ≤ 9) ∧
        100 * (digit 0).toNat + 10 * (digit 1).toNat + (digit 2).toNat =
          (p.machine.register x).toNat) := by
  refine ⟨fun hok t hspan => ?_, fun hok => stores_of_loads hok rfl, fun hok t hspan => ?_⟩
  · let data := p.machine.registers.toList.take (x.val + 1)
    have hlength : data.length = x.val + 1 := by
      rw [List.length_take, Vector.length_toList]
      exact Nat.min_eq_left x.isLt
    obtain ⟨houtcome, hfilled⟩ := loads_of_stores data rfl hok hlength hspan
    refine ⟨houtcome, fun r hr => (hfilled.filled r hr).trans ?_, hfilled.others, hfilled.memory,
      hfilled.index⟩
    have hregister : data[r.val]? = some (p.machine.register r) := by
      rw [List.getElem?_take_of_lt (Nat.lt_succ_of_le hr), Vector.getElem?_toList]
      exact Vector.getElem?_eq_getElem r.isLt
    rw [hregister, Option.getD_some]
  · have hloads := loads_of_stores (x := 2) (decimalDigits (p.machine.register x)) rfl hok
      rfl hspan
    obtain ⟨hhundreds, htens, hones, hvalue⟩ := decimalDigits_value (p.machine.register x)
    refine ⟨_, hloads, fun r hr => ?_, hvalue⟩
    have hthree : ∀ r : Register, r ≤ 2 → r = 0 ∨ r = 1 ∨ r = 2 := by decide
    rcases hthree r hr with rfl | rfl | rfl
    · exact hhundreds
    · exact htens
    · exact hones

/-- Three bytes fit behind the address 4092: registers go there and come back after they were
cleared, the memory survives that it is loaded and stored, and 246 becomes three digits. -/
theorem registers_through_memory_last_bytes :
    let p : Processor := ⟨{ initial with index := 0xFFD }.setRegister 2 246, .cycle #[]⟩
    let stored := (p.execute (.unary .storeRegisters 2)).state.machine
    let cleared : Processor := ⟨{ stored with registers := initial.registers }, .cycle #[]⟩
    let split := (p.execute (.unary .storeDecimal 2)).state
    p.Succeeds (.unary .storeRegisters 2) ∧ p.Succeeds (.unary .loadRegisters 2) ∧
      p.Succeeds (.unary .storeDecimal 2) ∧ cleared.machine.register 2 = 0 ∧
      (cleared.execute (.unary .loadRegisters 2)).state.machine.register 2 = 246 ∧
      ((p.execute (.unary .loadRegisters 2)).state.execute
        (.unary .storeRegisters 2)).state.machine.memory = p.machine.memory ∧
      ∃ digit : Register → UInt8, split.Loads 2 digit ∧
        100 * (digit 0).toNat + 10 * (digit 1).toNat + (digit 2).toNat = 246 := by
  intro p stored cleared split
  have hstores : p.Succeeds (.unary .storeRegisters 2) := ⟨.proceed, rfl⟩
  have hloads : p.Succeeds (.unary .loadRegisters 2) := ⟨.proceed, rfl⟩
  have hsplits : p.Succeeds (.unary .storeDecimal 2) := ⟨.proceed, rfl⟩
  have hregister : p.machine.register 2 = 246 := rfl
  have hcleared : SameSpan 3 stored cleared.machine := ⟨rfl, fun _ _ => rfl⟩
  have hzero : cleared.machine.register 2 = 0 := rfl
  obtain ⟨hstore, hload, hdecimal⟩ := registers_through_memory p 2
  have hback := (hstore hstores cleared hcleared).filled.filled 2 (by decide)
  have hmemory := (hload hloads).2
  obtain ⟨digit, hdigits, -, hvalue⟩ := hdecimal hsplits split (.refl 3 split.machine)
  rw [hregister] at hback hvalue
  exact ⟨hstores, hloads, hsplits, hzero, hback, hmemory, digit, hdigits, hvalue⟩

end Processor

end Chip8
