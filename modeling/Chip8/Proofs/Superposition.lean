import Chip8.Proofs.Stamp
import Chip8.Proofs.Timers

/-!
Drawing in any order.

`Machine.stamps` lists what is drawn in the course of some acts. A step that does not clear the
screen adds to it the mask of what it draws, if it draws at all, and so a run that never clears the
screen adds up the masks of its stamps (`Machine.display_after`). A sum depends neither on the order
nor on what is added twice: `Machine.superposition`.
-/

namespace Chip8

theorem Memory.read_eq_ok_iff {m : Memory} {address count : Nat} {data : List UInt8} :
    m.read address count = .ok data ↔
      address + count ≤ size ∧ data = (m.bytes.toList.drop address).take count := by
  have hextract : (m.bytes.toArray.extract address (address + count)).toList =
      (m.bytes.toList.drop address).take count := by
    rw [Array.toList_extract, List.extract_eq_take_drop, Nat.add_sub_cancel_left]
    rfl
  by_cases hin : address + count ≤ size
  · rw [read_of_le m hin, hextract, Except.ok.injEq, eq_comm]
    exact (and_iff_right hin).symm
  · rw [read_of_lt m (Nat.lt_of_not_le hin)]
    exact iff_of_false nofun fun h => hin h.1

namespace Machine

/-- What `DXYN` draws: a corner that wraps on both axes, and the bytes under the index register. -/
def stamp (m : Machine) (x y : Register) (height : Nibble) : Stamp where
  column := (m.register x).toNat % 64
  row := (m.register y).toNat % 32
  sprite := (m.memory.bytes.toList.drop m.index.toNat).take height.val

/-- What an act draws, if it is a step that executes `DXYN` with success. -/
def stamp? (m : Machine) : Act → Option Stamp
  | .step tape =>
    match m.next?, (Processor.step ⟨m, tape⟩).outcome with
    | some (.draw x y height), .ok _ => some (m.stamp x y height)
    | _, _ => none
  | .request _ => none

/-- What is drawn in the course of some acts, the first stamp first. -/
def stamps (m : Machine) : List Act → List Stamp
  | [] => []
  | act :: acts => (m.stamp? act).toList ++ (m.perform act).state.stamps acts

/-- An act that clears the screen: the instruction for it, or a reset. -/
def clears (m : Machine) : Act → Prop
  | .step _ => m.Executes .clearDisplay
  | .request request => request = .reset

/-- None of some acts clears the screen. -/
def NeverClears (m : Machine) : List Act → Prop
  | [] => True
  | act :: acts => ¬ m.clears act ∧ (m.perform act).state.NeverClears acts

variable {m : Machine}

theorem stamp?_step_of_draw {x y : Register} {height : Nibble} {tape : RandomTape}
    {signal : Signal} (hi : m.Executes (.draw x y height))
    (h : (Processor.step ⟨m, tape⟩).outcome = .ok signal) :
    m.stamp? (.step tape) = some (m.stamp x y height) := by
  simp only [stamp?, next?_eq_some_iff.mpr hi, h]

theorem stamp?_step_of_ne_draw {tape : RandomTape}
    (hi : ∀ x y height, ¬ m.Executes (.draw x y height)) : m.stamp? (.step tape) = none := by
  rw [stamp?]
  split
  · rename_i hnext _
    exact absurd (next?_eq_some_iff.mp hnext) (hi _ _ _)
  · rfl

theorem stamp?_step_of_error {tape : RandomTape} {fault : Fault}
    (h : (Processor.step ⟨m, tape⟩).outcome = .error fault) : m.stamp? (.step tape) = none := by
  rw [stamp?, h]
  split
  · rename_i hok
    cases hok
  · rfl

/-- What a successful `DXYN` makes of the screen. -/
theorem display_of_draw_eq_ok {x y : Register} {height : Nibble} {drawn : Machine}
    (h : m.draw x y height = .ok drawn) :
    drawn.display = m.display + (m.stamp x y height).mask := by
  obtain ⟨sprite, hread, rfl⟩ := of_draw_eq_ok h
  obtain ⟨-, hsprite⟩ := Memory.read_eq_ok_iff.mp hread
  exact hsprite ▸ Framebuffer.screen_drawSprite _ _ _ _

end Machine

namespace Processor

open Machine

variable {p : Processor}

theorem display_execute {i : Instruction} (hi : i.draws = false) :
    (p.execute i).state.machine.display = p.machine.display := by
  cases p.executeCase i with
  | refused _ _ hexecute => rw [hexecute]
  | astray e _ heffect _ hexecute =>
      rw [hexecute]
      exact (footprint_of_effect heffect).display hi
  | done e machine heffect hmove hexecute =>
      obtain ⟨target, -, rfl⟩ := of_move_eq_ok hmove
      rw [hexecute]
      exact (footprint_of_effect heffect).display hi

/-- `DXYN` either fails and changes nothing, or adds its stamp to the screen. -/
theorem drawCase {x y : Register} {height : Nibble} (hi : p.machine.Executes (.draw x y height)) :
    (∃ fault, p.step.outcome = .error fault ∧ p.step.state = p) ∨
      p.step.outcome = .ok .draw ∧
        p.step.state.machine.display = p.machine.display + (p.machine.stamp x y height).mask := by
  cases hdraw : p.machine.draw x y height with
  | error fault =>
      left
      obtain ⟨opcode, -, hstep⟩ := step_of_executes hi
      refine ⟨fault, ?_, ?_⟩
      · simp only [hstep, execute, effect, hdraw, Except.map]
      · simp only [hstep, execute, effect, hdraw, Except.map]
  | ok drawn =>
      right
      have heffect : p.effect (.draw x y height) =
          .ok { processor := p.withMachine drawn, signal := .draw } := by
        rw [effect, hdraw]
        rfl
      obtain ⟨houtcome, programCounter, hstate⟩ := step_of_next hi heffect rfl
      refine ⟨houtcome, ?_⟩
      have hdisplay := display_of_draw_eq_ok hdraw
      rw [hstate]
      exact hdisplay

/-- A step that does not clear the screen adds to it what it draws. -/
theorem display_step (hclear : ¬ p.machine.Executes .clearDisplay) :
    p.step.state.machine.display =
      p.machine.display + ((p.machine.stamp? (.step p.tape)).toList.map Stamp.mask).sum := by
  by_cases hdraw : ∃ x y height, p.machine.Executes (.draw x y height)
  · obtain ⟨x, y, height, hi⟩ := hdraw
    rcases drawCase hi with ⟨fault, houtcome, hstate⟩ | ⟨houtcome, hdisplay⟩
    · rw [hstate, stamp?_step_of_error houtcome]
      exact (add_zero _).symm
    · rw [hdisplay, stamp?_step_of_draw hi houtcome]
      exact congrArg _ (List.sum_singleton).symm
  · have hstamp : p.machine.stamp? (.step p.tape) = none :=
      stamp?_step_of_ne_draw fun x y height hi => hdraw ⟨x, y, height, hi⟩
    rw [hstamp, Option.toList_none, List.map_nil, List.sum_nil, add_zero]
    cases p.stepCase with
    | waiting _ hstep | unreadable _ _ _ hstep => rw [hstep]
    | executes opcode i hi _ hstep =>
        have hquiet : i.draws = false := by
          cases i with
          | clearDisplay => exact absurd hi hclear
          | draw x y height => exact absurd ⟨x, y, height, hi⟩ hdraw
          | _ => rfl
        rw [hstep]
        exact display_execute hquiet

end Processor

namespace Machine

variable {m : Machine}

/-- An act that does not clear the screen adds to it what it draws. -/
theorem display_perform {act : Act} (h : ¬ m.clears act) :
    (m.perform act).state.display =
      m.display + ((m.stamp? act).toList.map Stamp.mask).sum := by
  cases act with
  | step tape => exact Processor.display_step (p := ⟨m, tape⟩) h
  | request request => exact (m.display_handle h).trans (add_zero _).symm

/-- Acts that never clear the screen add to it all that they draw. -/
theorem display_after {acts : List Act} (h : m.NeverClears acts) :
    (m.after acts).display = m.display + ((m.stamps acts).map Stamp.mask).sum := by
  induction acts generalizing m with
  | nil => exact (add_zero _).symm
  | cons act acts ih =>
      obtain ⟨hact, hacts⟩ := h
      rw [after_cons, ih hacts, display_perform hact, stamps, List.map_append, List.sum_append,
        add_assoc]

/-- Drawing does not depend on its order. Two runs that never clear the screen, start with the same
screen and draw the same stamps, each as often as the other, end with the same screen, whatever else
they do; and a run that draws every stamp an even number of times ends with the screen it started
from. -/
theorem superposition {a b : Machine} {acts acts' : List Act} (ha : a.NeverClears acts)
    (hb : b.NeverClears acts') :
    (a.display = b.display → (a.stamps acts).Perm (b.stamps acts') →
      (a.after acts).display = (b.after acts').display) ∧
    ((∀ s, Even ((a.stamps acts).count s)) → (a.after acts).display = a.display) := by
  constructor
  · intro hdisplay hperm
    calc (a.after acts).display
        = a.display + ((a.stamps acts).map Stamp.mask).sum := display_after ha
      _ = b.display + ((b.stamps acts').map Stamp.mask).sum := by
          rw [hdisplay, (hperm.map Stamp.mask).sum_eq]
      _ = (b.after acts').display := (display_after hb).symm
  · intro heven
    rw [display_after ha, Stamp.sum_mask_of_even heven, add_zero]

theorem stamps_append (m : Machine) (acts acts' : List Act) :
    m.stamps (acts ++ acts') = m.stamps acts ++ (m.after acts).stamps acts' := by
  induction acts generalizing m with
  | nil => rfl
  | cons act acts ih =>
      rw [List.cons_append, stamps, stamps, ih, after_cons, List.append_assoc]

theorem neverClears_append {acts acts' : List Act} :
    m.NeverClears (acts ++ acts') ↔ m.NeverClears acts ∧ (m.after acts).NeverClears acts' := by
  induction acts generalizing m with
  | nil => exact iff_and_self.mpr fun _ => trivial
  | cons act acts ih =>
      rw [List.cons_append, NeverClears, NeverClears, ih, after_cons, and_assoc]

/-- Two machines from which a `DXYN` draws the same, unless `VF` is one of its operands. -/
structure SameBrush (before after : Machine) : Prop where
  memory : after.memory = before.memory
  index : after.index = before.index
  awaiting : after.awaiting = before.awaiting
  register : ∀ r, r ≠ flagRegister → after.register r = before.register r

theorem SameBrush.trans {a b c : Machine} (hab : SameBrush a b) (hbc : SameBrush b c) :
    SameBrush a c where
  memory := hbc.memory.trans hab.memory
  index := hbc.index.trans hab.index
  awaiting := hbc.awaiting.trans hab.awaiting
  register r hr := (hbc.register r hr).trans (hab.register r hr)

theorem SameBrush.stamp_eq {after : Machine} (h : SameBrush m after) {x y : Register}
    (hx : x ≠ flagRegister) (hy : y ≠ flagRegister) (height : Nibble) :
    after.stamp x y height = m.stamp x y height := by
  rw [stamp, stamp, h.register x hx, h.register y hy, h.memory, h.index]

/-- Drawing changes nothing that the next `DXYN` draws with but `VF`. -/
theorem sameBrush_perform_draw {x y : Register} {height : Nibble} (tape : RandomTape)
    (hi : m.Executes (.draw x y height)) (hin : m.index.toNat + height.val ≤ Memory.size) :
    m.stamp? (.step tape) = some (m.stamp x y height) ∧
      SameBrush m (m.perform (.step tape)).state := by
  obtain ⟨drawn, hdraw⟩ : ∃ drawn, m.draw x y height = .ok drawn := by
    rw [draw, Memory.read_of_le m.memory hin]
    exact ⟨_, rfl⟩
  have heffect : Processor.effect ⟨m, tape⟩ (.draw x y height) =
      .ok { processor := ⟨drawn, tape⟩, signal := .draw } := by
    rw [Processor.effect, hdraw]
    rfl
  obtain ⟨houtcome, programCounter, hstate⟩ := Processor.step_of_next hi heffect rfl
  obtain ⟨sprite, -, rfl⟩ := of_draw_eq_ok hdraw
  have hafter := congrArg Processor.machine hstate
  refine ⟨stamp?_step_of_draw hi houtcome, ?_⟩
  change SameBrush m (Processor.step ⟨m, tape⟩).state.machine
  rw [hafter]
  refine ⟨rfl, rfl, rfl, fun r hr => ?_⟩
  exact (register_of_registers_eq (m := m) rfl r).trans (if_neg hr)

theorem sameBrush_perform_jump (m : Machine) {address : Nat} (hin : address < Memory.size) :
    let jumped := (m.perform (.request (.move (.jump address)))).state
    SameBrush m jumped ∧ jumped.programCounter.toNat = address := by
  have hlt : address < 2 ^ 16 := Nat.lt_trans hin (by decide)
  have hjumped : (m.perform (.request (.move (.jump address)))).state =
      { m with programCounter := UInt16.ofNat address } := by
    show (Report.ofExcept m (m.move (.jump address))).state = _
    rw [move, Move.target, if_pos hin]
    rfl
  intro jumped
  change jumped = _ at hjumped
  rw [hjumped]
  exact ⟨⟨rfl, rfl, rfl, fun _ _ => rfl⟩, UInt16.toNat_ofNat_of_lt' hlt⟩

/-- With that brush, acts draw these stamps. -/
def Paints (brush : Machine) (acts : List Act) (stamps : List Stamp) : Prop :=
  ∀ m, SameBrush brush m →
    m.stamps acts = stamps ∧ m.NeverClears acts ∧ SameBrush brush (m.after acts)

theorem Paints.append {brush : Machine} {acts acts' : List Act} {stamps stamps' : List Stamp}
    (h : brush.Paints acts stamps) (h' : brush.Paints acts' stamps') :
    brush.Paints (acts ++ acts') (stamps ++ stamps') := by
  intro m hm
  obtain ⟨hstamps, hnever, hsame⟩ := h m hm
  obtain ⟨hstamps', hnever', hsame'⟩ := h' _ hsame
  refine ⟨?_, neverClears_append.mpr ⟨hnever, hnever'⟩, ?_⟩
  · rw [stamps_append, hstamps, hstamps']
  · rw [after_append]
    exact hsame'

/-- To jump to a `DXYN` and execute it draws its stamp. -/
theorem paints_stroke {brush : Machine} {address : Nat} {opcode : Opcode} {x y : Register}
    {height : Nibble} (hwait : brush.awaiting = none)
    (hin : brush.index.toNat + height.val ≤ Memory.size)
    (hfetch : brush.memory.fetch address = .ok opcode)
    (hdecode : decode opcode = .ok (.draw x y height)) (hx : x ≠ flagRegister)
    (hy : y ≠ flagRegister) (tape : RandomTape) :
    brush.Paints [.request (.move (.jump address)), .step tape] [brush.stamp x y height] := by
  intro m h
  obtain ⟨hjump, haddress⟩ :=
    m.sameBrush_perform_jump (Nat.lt_of_succ_lt (Memory.lt_of_fetch_eq_ok hfetch))
  let jumped := (m.perform (.request (.move (.jump address)))).state
  have hsame : SameBrush brush jumped := h.trans hjump
  have hi : jumped.Executes (.draw x y height) := by
    refine executes_of_fetch (hsame.awaiting.trans hwait) (fetch_of_memory ?_) hdecode
    rw [haddress, hsame.memory]
    exact hfetch
  obtain ⟨hstamp, hdrawn⟩ := sameBrush_perform_draw tape hi (hsame.index ▸ hin)
  refine ⟨?_, ⟨nofun, fun hclear => ?_, trivial⟩, hsame.trans hdrawn⟩
  · show (jumped.stamp? (.step tape)).toList ++ [] = _
    rw [hstamp, hsame.stamp_eq hx hy]
    rfl
  · cases hi.unique hclear

/-- The program `61 05 D0 01 D1 01` has set `V1` to 5. From there on the upper row of the zero is
drawn in column 0 and in column 5, in either order, and both are gone again once they were drawn
twice. -/
theorem superposition_glyph_rows :
    let step := Act.step (.cycle #[])
    let m := initial.after [.request (.load [0x61, 0x05, 0xD0, 0x01, 0xD1, 0x01]), step]
    let left := [.request (.move (.jump 0x202)), step]
    let right := [.request (.move (.jump 0x204)), step]
    m.stamps (left ++ right) = [⟨0, 0, [0xF0]⟩, ⟨5, 0, [0xF0]⟩] ∧
      (m.after (left ++ right)).display = (m.after (right ++ left)).display ∧
      (m.after ((left ++ right) ++ (right ++ left))).display = m.display := by
  intro step m left right
  let program : List UInt8 := [0x61, 0x05, 0xD0, 0x01, 0xD1, 0x01]
  let memory := initial.memory.place Memory.programStart program
  let loaded : Machine := { initial with memory }
  have hload : (initial.perform (.request (.load program))).state = loaded := by
    show (initial.load program).state = _
    rw [load, if_pos (by decide)]
  have hfetch : ∀ (k : Nat) (hk : k + 1 < program.length),
      memory.fetch (Memory.programStart + k) = .ok (.ofBytes program[k] program[k + 1]) :=
    fun k hk => Memory.fetch_place _ hk (by decide)
  have hfont : memory.bytes[0]? = some 0xF0 := font_of_load program
  clear_value memory
  have hset : loaded.fetch = .ok (.ofBytes 0x61 0x05) := fetch_of_memory (hfetch 0 (by decide))
  have hm : m = { loaded.setRegister 1 5 with programCounter := 0x202 } := by
    show initial.after _ = _
    rw [after_cons, hload, after_cons, perform_step_of_fetch (i := .loadByte 1 5) rfl hset rfl]
    rfl
  clear_value m
  have hmemory : m.memory = memory := congrArg Machine.memory hm
  have hindex : m.index = 0 := congrArg Machine.index hm
  have hsprite : (m.memory.bytes.toList.drop m.index.toNat).take 1 = [0xF0] := by
    rw [hmemory, hindex]
    show (memory.bytes.toList.drop 0).take 1 = _
    rw [List.drop_zero, List.take_one, List.head?_eq_getElem?, Vector.getElem?_toList, hfont]
    rfl
  have hstroke : ∀ (x : Register) (address : Nat) (opcode : Opcode),
      memory.fetch address = .ok opcode → decode opcode = .ok (.draw x 0 1) → x ≠ flagRegister →
      m.Paints [.request (.move (.jump address)), step]
        [⟨(m.register x).toNat % 64, 0, [0xF0]⟩] := by
    intro x address opcode hopcode hdecode hx
    have hin : m.index.toNat + (1 : Nibble).val ≤ Memory.size := by
      rw [hindex]
      decide
    have hstamp : m.stamp x 0 1 = ⟨(m.register x).toNat % 64, 0, [0xF0]⟩ := by
      rw [← hsprite, stamp, hm]
      rfl
    rw [← hstamp]
    exact paints_stroke (congrArg Machine.awaiting hm) hin (hmemory ▸ hopcode) hdecode hx
      (by decide) _
  have hleft : m.Paints left [⟨0, 0, [0xF0]⟩] := by
    have hcolumn : (m.register 0).toNat % 64 = 0 := by
      rw [hm]
      rfl
    have hpaints := hstroke 0 0x202 (.ofBytes 0xD0 0x01) (hfetch 2 (by decide)) rfl (by decide)
    rw [hcolumn] at hpaints
    exact hpaints
  have hright : m.Paints right [⟨5, 0, [0xF0]⟩] := by
    have hcolumn : (m.register 1).toNat % 64 = 5 := by
      rw [hm]
      rfl
    have hpaints := hstroke 1 0x204 (.ofBytes 0xD1 0x01) (hfetch 4 (by decide)) rfl (by decide)
    rw [hcolumn] at hpaints
    exact hpaints
  have hbrush : SameBrush m m := ⟨rfl, rfl, rfl, fun _ _ => rfl⟩
  obtain ⟨hforth, hnever, -⟩ := hleft.append hright m hbrush
  obtain ⟨hback, hnever', -⟩ := hright.append hleft m hbrush
  obtain ⟨hboth, hnever'', -⟩ := (hleft.append hright).append (hright.append hleft) m hbrush
  have hswap : [(⟨5, 0, [0xF0]⟩ : Stamp), ⟨0, 0, [0xF0]⟩].Perm [⟨0, 0, [0xF0]⟩, ⟨5, 0, [0xF0]⟩] :=
    List.Perm.swap _ _ _
  refine ⟨hforth, (superposition hnever hnever').1 rfl ?_, (superposition hnever'' hnever'').2 ?_⟩
  · rw [hforth, hback]
    exact hswap.symm
  · intro s
    rw [hboth, List.count_append, List.singleton_append, List.singleton_append, hswap.count_eq]
    exact Even.add_self _

end Machine

end Chip8
