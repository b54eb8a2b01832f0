import Chip8.Proofs.CallStack
import Chip8.Proofs.Dump.Folding
import Chip8.Proofs.Dump.Lines

/-!
What the dump of a machine tells.

`Machine.Dumped` lists the parts of a machine that a dump shows, and `Machine.dumped_of_dump_eq`
says that equal dumps show equal parts. A free slot of the stack looks like a return address of
zero, but no return address of a reachable machine is zero, so even the depth of the stack is told:
`Machine.Reachable.eq_of_dumpText_eq`.
-/

namespace Chip8

namespace Dump

theorem headed_inj {name : String} {body body' : List String}
    (h : headed name body = headed name body') : body = body' := by
  refine List.map_injective_iff.mpr (fun a b hab => ?_) (List.cons.inj h).2
  have htext := congrArg String.toList hab
  rw [String.toList_append, String.toList_append] at htext
  exact String.toList_injective (List.append_cancel_left htext)

theorem length_headed_table {name : String} {cells cells' : List String}
    (h : cells.length = cells'.length) :
    (headed name (table cells)).length = (headed name (table cells')).length := by
  rw [headed, headed, List.length_cons, List.length_cons, List.length_map, List.length_map,
    length_table_eq h]

theorem headed_numberCell_inj {name : String} {n n' : Nat}
    (h : headed name [numberCell n] = headed name [numberCell n']) : n = n' :=
  Hex.numeral_inj (List.cons.inj (headed_inj h)).1

theorem length_stackSlots {stack : List UInt16} (h : stack.length ≤ Machine.stackCapacity) :
    (stackSlots stack).length = Machine.stackCapacity := by
  rw [stackSlots, List.rightpad, List.length_append, List.length_replicate, List.length_map,
    List.length_reverse]
  omega

theorem stackSlots_lt (stack : List UInt16) : ∀ slot ∈ stackSlots stack, slot < cellRange := by
  rw [stackSlots, List.rightpad, List.forall_mem_append]
  refine ⟨List.forall_mem_map.mpr fun address _ => address.toNat_lt, fun slot hslot => ?_⟩
  rw [List.eq_of_mem_replicate hslot]
  decide

/-- Slots that hold no zero are in use. -/
theorem takeWhile_stackSlots {stack : List UInt16} (h : ∀ address ∈ stack, address.toNat ≠ 0) :
    (stackSlots stack).takeWhile (· ≠ 0) = stack.reverse.map UInt16.toNat := by
  have hused : ∀ slot ∈ stack.reverse.map UInt16.toNat, decide (slot ≠ 0) = true :=
    List.forall_mem_map.mpr fun address haddress =>
      decide_eq_true (h address (List.mem_reverse.mp haddress))
  rw [stackSlots, List.rightpad, List.takeWhile_append_of_pos hused, List.takeWhile_replicate,
    if_neg (by decide), List.append_nil]

theorem stackSlots_inj {stack stack' : List UInt16} (hstack : ∀ address ∈ stack, address.toNat ≠ 0)
    (hstack' : ∀ address ∈ stack', address.toNat ≠ 0) (h : stackSlots stack = stackSlots stack') :
    stack = stack' := by
  have hslots := congrArg (List.takeWhile (· ≠ 0)) h
  rw [takeWhile_stackSlots hstack, takeWhile_stackSlots hstack'] at hslots
  exact List.reverse_injective
    (List.map_injective_iff.mpr (fun _ _ => UInt16.toNat_inj.mp) hslots)

end Dump

namespace Machine

open Dump

/-- Two machines that agree in the parts that a dump shows. -/
structure Dumped (m m' : Machine) : Prop where
  programCounter : m.programCounter = m'.programCounter
  index : m.index = m'.index
  delay : m.delay = m'.delay
  sound : m.sound = m'.sound
  memory : m.memory = m'.memory
  keypad : m.keypad = m'.keypad
  slots : stackSlots m.stack = stackSlots m'.stack
  registers : m.registers = m'.registers

theorem dumped_of_dump_eq {m m' : Machine} (hdepth : m.stack.length ≤ stackCapacity)
    (hdepth' : m'.stack.length ≤ stackCapacity) (h : m.dump = m'.dump) : Dumped m m' := by
  rw [dump, dump] at h
  -- Behind the memory, every part has a fixed number of lines.
  obtain ⟨h, -⟩ := List.append_inj' h rfl
  obtain ⟨h, hregisters⟩ := List.append_inj' h (length_headed_table (by simp))
  obtain ⟨h, hstack⟩ := List.append_inj' h (length_headed_table (by
    rw [List.length_map, List.length_map, length_stackSlots hdepth, length_stackSlots hdepth']))
  obtain ⟨h, hkeys⟩ := List.append_inj' h (length_headed_table (by simp))
  -- In front of it as well.
  obtain ⟨h, hmemory⟩ := List.append_inj h rfl
  obtain ⟨h, hsound⟩ := List.append_inj' h rfl
  obtain ⟨h, hdelay⟩ := List.append_inj' h rfl
  obtain ⟨h, hindex⟩ := List.append_inj' h rfl
  obtain ⟨h, -⟩ := List.append_inj' h rfl
  obtain ⟨-, hcounter⟩ := List.append_inj' h rfl
  have hbytes : m.memory.bytes.toList = m'.memory.bytes.toList :=
    eq_of_memoryLines_eq (by simp [cellRange]) (by simp [cellRange]) (headed_inj hmemory)
  have hheld : m.keypad.held.toList = m'.keypad.held.toList :=
    eq_of_table_toString_eq (by simp [cellRange]) (by simp [cellRange]) (headed_inj hkeys)
  have hvalues : m.registers.toList = m'.registers.toList :=
    eq_of_table_bytes_eq (by simp [cellRange]) (by simp [cellRange]) (headed_inj hregisters)
  have hroom : stackCapacity ≤ cellRange := by decide
  constructor
  · exact UInt16.toNat_inj.mp (headed_numberCell_inj hcounter)
  · exact UInt16.toNat_inj.mp (headed_numberCell_inj hindex)
  · exact congrArg Countdown.mk (UInt8.toNat_inj.mp (headed_numberCell_inj hdelay))
  · exact congrArg Countdown.mk (UInt8.toNat_inj.mp (headed_numberCell_inj hsound))
  · exact congrArg Memory.mk (Vector.toList_inj.mp hbytes)
  · exact congrArg Keypad.mk (Vector.toList_inj.mp hheld)
  · exact eq_of_table_numberCell_eq (stackSlots_lt _) (stackSlots_lt _)
      ((length_stackSlots hdepth).trans_le hroom) ((length_stackSlots hdepth').trans_le hroom)
      (headed_inj hstack)
  · exact Vector.toList_inj.mp hvalues

/-- The text of a dump tells everything about a reachable machine but its display, the mark that the
display has changed and the register that waits for a key. -/
theorem Reachable.eq_of_dumpText_eq {m m' : Machine} (hm : m.Reachable) (hm' : m'.Reachable)
    (h : m.dumpText = m'.dumpText) :
    m' = { m with display := m'.display, redraw := m'.redraw, awaiting := m'.awaiting } := by
  have hused : ∀ {m : Machine}, m.StackBounded → ∀ address ∈ m.stack, address.toNat ≠ 0 := by
    intro m hm address haddress
    have hsize := (hm.inside address haddress).1
    rw [Opcode.size] at hsize
    omega
  have hstack := hm.stackBounded
  have hstack' := hm'.stackBounded
  have hdumped := dumped_of_dump_eq hstack.depth hstack'.depth (dump_eq_of_dumpText_eq h)
  have hcalls := stackSlots_inj (hused hstack) (hused hstack') hdumped.slots
  obtain ⟨hcounter, hindex, hdelay, hsound, hmemory, hkeypad, -, hregisters⟩ := hdumped
  obtain ⟨⟩ := m
  obtain ⟨⟩ := m'
  cases hcounter
  cases hindex
  cases hdelay
  cases hsound
  cases hmemory
  cases hkeypad
  cases hregisters
  cases hcalls
  rfl

/-- A dump does not show the display, its mark and the register that waits for a key. -/
theorem dumpText_of_hidden (m : Machine) (display : Framebuffer) (redraw : Bool)
    (awaiting : Option Register) :
    ({ m with display, redraw, awaiting } : Machine).dumpText = m.dumpText := rfl

/-- The program `00 E0 F0 0A` clears the display and waits for a key. Back at its start, its dump is
that of the loaded program, and only the mark and the waiting register tell them apart. -/
theorem eq_of_dumpText_eq_waiting :
    let load : Act := .request (.load [0x00, 0xE0, 0xF0, 0x0A])
    let step : Act := .step (.cycle #[])
    let m := initial.after [load]
    let m' := initial.after [load, step, step, .request (.move (.jump 0x200))]
    m.dumpText = m'.dumpText ∧ m'.redraw ≠ m.redraw ∧ m'.awaiting ≠ m.awaiting ∧
      m' = { m with display := m'.display, redraw := m'.redraw, awaiting := m'.awaiting } := by
  intro load step m m'
  obtain ⟨memory, hload, hfetch⟩ := load_initial [0x00, 0xE0, 0xF0, 0x0A] (by decide)
  let loaded : Machine := { initial with memory }
  let cleared : Machine := { loaded.clearDisplay with programCounter := 0x202 }
  have hm : m = loaded := hload
  have hm' : m' = { loaded.clearDisplay with awaiting := some 0 } := by
    show initial.after _ = _
    rw [after_cons, hload, after_cons,
      perform_step_of_fetch (m := loaded) (i := .clearDisplay) rfl
        (fetch_of_memory (hfetch 0 (by decide))) rfl, after_cons]
    show (cleared.perform step).state.after _ = _
    rw [perform_step_of_fetch (m := cleared) (i := .unary .awaitKey 0) rfl
        (fetch_of_memory (hfetch 2 (by decide))) rfl]
    rfl
  have htext : m.dumpText = m'.dumpText := by
    rw [hm, hm']
    exact (loaded.dumpText_of_hidden loaded.display.clear true (some 0)).symm
  refine ⟨htext, ?_, ?_, ?_⟩
  · rw [hm, hm']
    exact Bool.noConfusion
  · rw [hm, hm']
    exact Option.some_ne_none 0
  · exact Reachable.eq_of_dumpText_eq (.after .initial _) (.after .initial _) htext

end Machine

end Chip8
