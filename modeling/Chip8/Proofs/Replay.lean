import Chip8.Hex.Lemmas
import Chip8.Proofs.CallStack
import Chip8.Proofs.KeyWait

/-!
The journal of a run tells which instructions were decoded and what became of the stack.

The lines are read as text. `Replay.stack?` follows the lines of calls and returns and checks each of
them against the stack so far. What a step writes of the stack is what it does to the stack, whether
or not it succeeds (`Processor.tells_step`), so the lines of a run pass and tell the stack of the
machine: `Machine.journal_replays`.
-/

namespace Chip8

namespace Journal

theorem written_trace (records : List Record) :
    (empty .trace).written records = records.map Record.line := by
  have hall : ∀ r ∈ records, (empty .trace).isEnabled r.level = true := by
    rintro ⟨level, text⟩ -
    cases level <;> rfl
  rw [written, List.filter_eq_self.mpr hall]

end Journal

namespace Replay

def Begins (front line : String) : Prop :=
  front.toList <+: line.toList

instance (front line : String) : Decidable (Begins front line) :=
  inferInstanceAs (Decidable (_ <+: _))

/-- The line of a call: the return address, and the depth of the stack before. -/
def pushLine (address depth : Nat) : String :=
  "DEBUG push " ++ Hex.numeral 4 address ++ " at depth " ++ toString depth

/-- The line of a return: the address that was on top, and the depth of the stack that is left. -/
def popLine (address depth : Nat) : String :=
  "DEBUG pop " ++ Hex.numeral 4 address ++ " at depth " ++ toString depth

/-- The address that is read off the line of a call. -/
def addressOf (line : String) : Nat :=
  Hex.valueOfDigits ((line.toList.drop "DEBUG push 0x".length).take 4)

/-- The stack behind a line. A line of a call or a return that does not fit the stack is refused, and
a line of another kind is passed over. -/
def restack (stack : List UInt16) (line : String) : Option (List UInt16) :=
  if Begins "DEBUG push " line then
    if line = pushLine (addressOf line) stack.length then
      some (UInt16.ofNat (addressOf line) :: stack)
    else none
  else if Begins "DEBUG pop " line then
    match stack with
    | address :: rest => if line = popLine address.toNat rest.length then some rest else none
    | [] => none
  else some stack

/-- The stack that lines tell of, from the empty one on. -/
def stack? (lines : List String) : Option (List UInt16) :=
  lines.foldlM restack []

theorem toList_line (e : Event) :
    e.record.line.toList = e.level.name.toList.rightpad 5 ' ' ++ ' ' :: e.text.toList := by
  simp [Event.record, Record.line]

theorem begins_trace_iff (e : Event) : Begins "TRACE " e.record.line ↔ e.level = .trace := by
  rw [Begins, toList_line]
  cases e.level <;> simp [Level.name, List.rightpad]

theorem begins_pushLine (address depth : Nat) : Begins "DEBUG push " (pushLine address depth) := by
  simp [Begins, pushLine]

theorem begins_popLine (address depth : Nat) :
    Begins "DEBUG pop " (popLine address depth) ∧ ¬ Begins "DEBUG push " (popLine address depth) := by
  simp [Begins, popLine]

theorem addressOf_pushLine {address : Nat} (h : address < 16 ^ 4) (depth : Nat) :
    addressOf (pushLine address depth) = address := by
  have hline : (pushLine address depth).toList =
      "DEBUG push 0x".toList ++ (Hex.digits 4 address ++ (" at depth " ++ toString depth).toList) := by
    simp [pushLine, Hex.numeral]
  rw [addressOf, hline, List.drop_left' (by rfl), List.take_left' (Hex.length_digits (by decide) h),
    Hex.valueOfDigits_digits]

theorem line_decoded (address : UInt16) (opcode : Opcode) (i : Instruction) :
    (Event.decoded address opcode i).record.line =
      "TRACE " ++ Hex.numeral 4 address.toNat ++ ": " ++ Hex.numeral 4 opcode.toNat ++ " " ++
        i.text := by
  refine String.toList_injective ?_
  rw [toList_line]
  unfold Event.text
  simp [Event.level, Level.name, List.rightpad]

theorem line_pushed (address : UInt16) (depth : Nat) :
    (Event.pushed address depth).record.line = pushLine address.toNat depth := by
  refine String.toList_injective ?_
  rw [toList_line]
  unfold Event.text
  simp [Event.level, Level.name, List.rightpad, pushLine]

theorem line_popped (address : UInt16) (depth : Nat) :
    (Event.popped address depth).record.line = popLine address.toNat depth := by
  refine String.toList_injective ?_
  rw [toList_line]
  unfold Event.text
  simp [Event.level, Level.name, List.rightpad, popLine]

theorem restack_pushed (stack : List UInt16) (address : UInt16) :
    restack stack (Event.pushed address stack.length).record.line = some (address :: stack) := by
  unfold restack
  rw [line_pushed, if_pos (begins_pushLine _ _), addressOf_pushLine address.toNat_lt, if_pos rfl,
    UInt16.ofNat_toNat]

theorem restack_popped (stack : List UInt16) (address : UInt16) :
    restack (address :: stack) (Event.popped address stack.length).record.line = some stack := by
  obtain ⟨hpop, hpush⟩ := begins_popLine address.toNat stack.length
  unfold restack
  rw [line_popped, if_neg hpush, if_pos hpop]
  exact if_pos rfl

/-- Whether an event is a call or a return. -/
def tellsStack : Event → Bool
  | .pushed .. | .popped .. => true
  | _ => false

theorem not_begins_of_not_tellsStack {e : Event} (h : tellsStack e = false) :
    ¬ Begins "DEBUG push " e.record.line ∧ ¬ Begins "DEBUG pop " e.record.line := by
  rw [Begins, Begins, toList_line]
  unfold Event.text
  cases e with
  | pushed | popped => cases h
  | _ => simp [Event.level, Level.name, List.rightpad]

theorem restack_of_not_tellsStack (stack : List UInt16) {e : Event} (h : tellsStack e = false) :
    restack stack e.record.line = some stack := by
  obtain ⟨hpush, hpop⟩ := not_begins_of_not_tellsStack h
  unfold restack
  rw [if_neg hpush, if_neg hpop]

/-- The lines of events in a journal that accepts all of them. -/
def linesOf (events : List Event) : List String :=
  (Journal.empty .trace).written (events.map Event.record)

theorem linesOf_cons (e : Event) (events : List Event) :
    linesOf (e :: events) = e.record.line :: linesOf events := by
  simp only [linesOf, Journal.written_trace, List.map_cons]

theorem filter_trace_of_debug {events : List Event} (h : ∀ e ∈ events, e.level = .debug) :
    (linesOf events).filter (Begins "TRACE ") = [] := by
  rw [linesOf, Journal.written_trace, List.map_map]
  refine List.filter_eq_nil_iff.mpr (List.forall_mem_map.mpr fun e hmem hbegins => ?_)
  have htrace : e.level = .trace := (begins_trace_iff e).mp (of_decide_eq_true hbegins)
  cases (h e hmem).symm.trans htrace

theorem begins_trace_of_trace {events : List Event} (h : ∀ e ∈ events, e.level = .trace) :
    ∀ line ∈ linesOf events, Begins "TRACE " line := by
  rw [linesOf, Journal.written_trace, List.map_map]
  exact List.forall_mem_map.mpr fun e hmem => (begins_trace_iff e).mpr (h e hmem)

/-- From one stack on, lines tell of another. -/
def Tells (before : List UInt16) (lines : List String) (after : List UInt16) : Prop :=
  lines.foldlM restack before = some after

theorem Tells.append {a b c : List UInt16} {lines lines' : List String} (h : Tells a lines b)
    (h' : Tells b lines' c) : Tells a (lines ++ lines') c := by
  rw [Tells, List.foldlM_append, h]
  exact h'

theorem tells_linesOf_nil (stack : List UInt16) : Tells stack (linesOf []) stack := rfl

theorem Tells.cons {a b c : List UInt16} {e : Event} {events : List Event}
    (h : restack a e.record.line = some b) (h' : Tells b (linesOf events) c) :
    Tells a (linesOf (e :: events)) c := by
  rw [Tells, linesOf_cons, List.foldlM_cons, h]
  exact h'

theorem tells_singleton {before after : List UInt16} {e : Event}
    (h : restack before e.record.line = some after) : Tells before (linesOf [e]) after :=
  .cons h (tells_linesOf_nil after)

end Replay

namespace Processor

open Replay

variable {p : Processor} {i : Instruction} {e : Effect}

/-- An effect reports what it does to the stack. -/
theorem tells_effect (h : p.effect i = .ok e) :
    Tells p.machine.stack (linesOf e.events) e.processor.machine.stack := by
  cases huses : i.usesStack with
  | false =>
      rw [(footprint_of_effect h).stack huses]
      obtain hevents | ⟨address, hevents⟩ | ⟨x, hevents⟩ := events_of_effect h huses
      · rw [hevents]
        exact tells_linesOf_nil _
      · rw [hevents]
        exact tells_singleton (restack_of_not_tellsStack _ rfl)
      · rw [hevents]
        exact tells_singleton (restack_of_not_tellsStack _ rfl)
  | true =>
      cases i with
      | leave =>
          obtain ⟨⟨address, after, events⟩, hpop, rfl⟩ := exists_of_map_eq_ok h
          obtain ⟨hstack, -, rfl⟩ := Machine.of_popReturn_eq_ok hpop
          rw [hstack]
          exact tells_singleton (restack_popped after.stack address)
      | call address =>
          obtain ⟨⟨after, events⟩, hpush, rfl⟩ := exists_of_map_eq_ok h
          obtain ⟨-, -, rfl, rfl⟩ := Machine.of_pushReturn_eq_ok hpush
          exact tells_singleton (restack_pushed _ _)
      | _ => cases huses

/-- An execution reports what it does to the stack, also when the program counter cannot move. -/
theorem tells_execute (p : Processor) (i : Instruction) :
    Tells p.machine.stack (linesOf (p.execute i).events) (p.execute i).state.machine.stack := by
  cases p.executeCase i with
  | refused _ _ hexecute =>
      rw [hexecute]
      exact tells_linesOf_nil _
  | astray e _ heffect _ hexecute =>
      rw [hexecute]
      exact tells_effect heffect
  | done e machine heffect hmove hexecute =>
      rw [hexecute]
      -- The move changes the program counter only.
      obtain ⟨target, -, rfl⟩ := Machine.of_move_eq_ok hmove
      exact tells_effect heffect

theorem tells_step (p : Processor) :
    Tells p.machine.stack (linesOf p.step.events) p.step.state.machine.stack := by
  cases p.stepCase with
  | waiting _ hstep | unreadable _ _ _ hstep =>
      rw [hstep]
      exact tells_linesOf_nil _
  | executes opcode i _ _ hstep =>
      rw [hstep]
      exact .cons (restack_of_not_tellsStack _ rfl) (tells_execute p i)

theorem level_execute (p : Processor) (i : Instruction) :
    ∀ event ∈ (p.execute i).events, event.level = .debug := by
  cases p.executeCase i with
  | refused _ _ hexecute =>
      rw [hexecute]
      exact List.forall_mem_nil _
  | astray e _ heffect _ hexecute | done e _ heffect _ hexecute =>
      rw [hexecute]
      exact level_of_effect heffect

/-- A step that fails reports nothing behind the decoding. -/
theorem level_of_step_error {fault : Fault}
    (hstack : ∀ address ∈ p.machine.stack, address.toNat < Memory.size)
    (h : p.step.outcome = .error fault) : ∀ event ∈ p.step.events, event.level = .trace := by
  cases p.stepCase with
  | waiting _ hstep | unreadable _ _ _ hstep =>
      rw [hstep]
      exact List.forall_mem_nil _
  | executes opcode i _ _ hstep =>
      rw [hstep] at h ⊢
      rw [execute_eq_of_error hstack h]
      exact List.forall_mem_singleton.mpr rfl

end Processor

namespace Machine

open Replay

theorem events_ofExcept (m : Machine) (result : Except Fault Machine) :
    (Report.ofExcept m result).events = [] := by
  cases result <;> rfl

/-- What a request reports; one that fails reports nothing. -/
theorem events_handle (m : Machine) (r : Request) :
    (m.handle r).events = [] ∨
      (m.handle r).outcome = .ok () ∧
        ((∃ size, (m.handle r).events = [.loaded size]) ∨
          ∃ key x, (m.handle r).events = [.keyReceived key x]) := by
  cases r with
  | tick | setKeypad | clearRedraw | reset => exact .inl rfl
  | setKey | toggleKey | move => exact .inl (events_ofExcept m _)
  | resume key =>
      rw [handle]
      by_cases hkey : key < 16
      · cases hwait : m.awaiting with
        | none =>
            rw [resume_of_awaiting_eq_none hwait hkey]
            exact .inl rfl
        | some x =>
            rw [resume_of_awaiting_eq_some hwait hkey]
            exact .inr ⟨rfl, .inr ⟨_, x, rfl⟩⟩
      · rw [resume_of_le m (Nat.le_of_not_lt hkey)]
        exact .inl rfl
  | load program =>
      rw [handle, load]
      split
      · exact .inr ⟨rfl, .inl ⟨_, rfl⟩⟩
      · exact .inl rfl

theorem tells_handle (m : Machine) {r : Request} (hreset : r ≠ .reset) :
    Tells m.stack (linesOf (m.handle r).events) (m.handle r).state.stack := by
  rw [stack_handle m hreset]
  obtain hevents | ⟨-, ⟨size, hevents⟩ | ⟨key, x, hevents⟩⟩ := m.events_handle r
  · rw [hevents]
    exact tells_linesOf_nil _
  · rw [hevents]
    exact tells_singleton (restack_of_not_tellsStack _ rfl)
  · rw [hevents]
    exact tells_singleton (restack_of_not_tellsStack _ rfl)

theorem tells_perform (m : Machine) {act : Act} (hact : act ≠ .request .reset) :
    Tells m.stack (linesOf (m.perform act).events) (m.perform act).state.stack := by
  cases act with
  | step tape => exact Processor.tells_step ⟨m, tape⟩
  | request request => exact tells_handle m fun h => hact (congrArg Act.request h)

/-- The lines that some acts write to a journal that accepts all of them. -/
def lines (m : Machine) : List Act → List String
  | [] => []
  | act :: acts => linesOf (m.perform act).events ++ (m.perform act).state.lines acts

theorem tells_after (m : Machine) {acts : List Act} (hacts : ∀ act ∈ acts, act ≠ .request .reset) :
    Tells m.stack (m.lines acts) (m.after acts).stack := by
  induction acts generalizing m with
  | nil => exact tells_linesOf_nil _
  | cons act acts ih =>
      obtain ⟨hact, hrest⟩ := List.forall_mem_cons.mp hacts
      exact (tells_perform m hact).append (ih _ hrest)

/-- The line of an act that decodes an instruction: the address and the word under the program
counter, and the text of the instruction. -/
def decodeLine? (m : Machine) : Act → Option String
  | .request _ => none
  | .step _ =>
    match m.awaiting, m.fetch with
    | none, .ok opcode =>
      match decode opcode with
      | .ok i =>
        some ("TRACE " ++ Hex.numeral 4 m.programCounter.toNat ++ ": " ++
          Hex.numeral 4 opcode.toNat ++ " " ++ i.text)
      | .error _ => none
    | _, _ => none

theorem decodeLine?_of_fetch {m : Machine} {opcode : Opcode} {i : Instruction}
    (hwait : m.awaiting = none) (hfetch : m.fetch = .ok opcode) (hdecode : decode opcode = .ok i)
    (tape : RandomTape) :
    m.decodeLine? (.step tape) =
      some ("TRACE " ++ Hex.numeral 4 m.programCounter.toNat ++ ": " ++
        Hex.numeral 4 opcode.toNat ++ " " ++ i.text) := by
  simp only [decodeLine?, hwait, hfetch, hdecode]

/-- These lines over a run. -/
def decodeLines (m : Machine) : List Act → List String
  | [] => []
  | act :: acts => (m.decodeLine? act).toList ++ (m.perform act).state.decodeLines acts

theorem level_handle (m : Machine) (r : Request) :
    ∀ event ∈ (m.handle r).events, event.level = .debug := by
  obtain hevents | ⟨-, ⟨size, hevents⟩ | ⟨key, x, hevents⟩⟩ := m.events_handle r
  · rw [hevents]
    exact List.forall_mem_nil _
  · rw [hevents]
    exact List.forall_mem_singleton.mpr rfl
  · rw [hevents]
    exact List.forall_mem_singleton.mpr rfl

theorem filter_trace_step (m : Machine) (tape : RandomTape) :
    (linesOf (Processor.step ⟨m, tape⟩).events).filter (Begins "TRACE ") =
      (m.decodeLine? (.step tape)).toList := by
  cases hwait : m.awaiting with
  | some x =>
      rw [Processor.step_of_awaiting (p := ⟨m, tape⟩) hwait]
      simp only [decodeLine?, hwait]
      rfl
  | none =>
      cases hfetch : m.fetch with
      | error fault =>
          have hcurrent : m.current = .error fault := by
            rw [current, hfetch]
          rw [Processor.step_of_current_error (p := ⟨m, tape⟩) hwait hcurrent]
          simp only [decodeLine?, hwait, hfetch]
          rfl
      | ok opcode =>
          cases hdecode : decode opcode with
          | error fault =>
              have hcurrent : m.current = .error (.opcode fault) := by
                simp only [current, hfetch, hdecode]
                rfl
              rw [Processor.step_of_current_error (p := ⟨m, tape⟩) hwait hcurrent]
              simp only [decodeLine?, hwait, hfetch, hdecode]
              rfl
          | ok i =>
              have hdebug := filter_trace_of_debug (Processor.level_execute ⟨m, tape⟩ i)
              have htrace : Begins "TRACE " (Event.decoded m.programCounter opcode i).record.line :=
                (begins_trace_iff _).mpr rfl
              rw [Processor.step_of_fetch (p := ⟨m, tape⟩) hwait hfetch hdecode,
                decodeLine?_of_fetch hwait hfetch hdecode, linesOf_cons, List.filter_cons,
                if_pos (decide_eq_true htrace), hdebug, line_decoded]
              rfl

theorem filter_trace_perform (m : Machine) (act : Act) :
    (linesOf (m.perform act).events).filter (Begins "TRACE ") = (m.decodeLine? act).toList := by
  cases act with
  | step tape => exact m.filter_trace_step tape
  | request request => exact filter_trace_of_debug (m.level_handle request)

theorem filter_trace_lines (m : Machine) (acts : List Act) :
    (m.lines acts).filter (Begins "TRACE ") = m.decodeLines acts := by
  induction acts generalizing m with
  | nil => rfl
  | cons act acts ih =>
      rw [lines, List.filter_append, filter_trace_perform, ih, decodeLines]

/-- An act that fails reports no more than the decoding of an instruction. -/
theorem level_of_perform_error {m : Machine} (hm : m.StackBounded) {act : Act}
    {fault : Fault} (h : (m.perform act).outcome = .error fault) :
    ∀ event ∈ (m.perform act).events, event.level = .trace := by
  cases act with
  | step tape =>
      cases hstep : (Processor.step ⟨m, tape⟩).outcome with
      | error fault =>
          exact Processor.level_of_step_error (p := ⟨m, tape⟩)
            (fun address hmem => (hm.inside address hmem).2) hstep
      | ok signal =>
          rw [perform, Report.map, hstep] at h
          cases h
  | request request =>
      obtain hevents | ⟨hok, -⟩ := m.events_handle request
      · rw [show (m.perform (.request request)).events = [] from hevents]
        exact List.forall_mem_nil _
      · rw [perform, Report.map, hok] at h
        cases h

/-- What a journal that accepts all records tells of a run that begins with an empty stack: its TRACE
lines are those of the steps that decode an instruction; as long as there is no reset, the lines of
calls and returns tell the stack at any time; and an act that fails writes TRACE lines only. -/
theorem journal_replays {m : Machine} (hempty : m.stack = []) (acts : List Act) :
    (m.lines acts).filter (Begins "TRACE ") = m.decodeLines acts ∧
      ((∀ act ∈ acts, act ≠ .request .reset) →
        ∀ done, done <+: acts → stack? (m.lines done) = some (m.after done).stack) ∧
      ∀ act fault, ((m.after acts).perform act).outcome = .error fault →
        ∀ line ∈ (m.after acts).lines [act], Begins "TRACE " line := by
  refine ⟨m.filter_trace_lines acts, fun hacts done hdone => ?_, fun act fault hfail => ?_⟩
  · have htells := m.tells_after fun act hact => hacts act (hdone.subset hact)
    rw [hempty] at htells
    exact htells
  · have hbounded := (stackBounded_of_empty hempty).after acts
    rw [lines, lines, List.append_nil]
    exact begins_trace_of_trace (level_of_perform_error hbounded hfail)

/-- A call, its return, a routine that is passed over, and a return without a call. -/
theorem journal_replays_lone_return :
    let step := Act.step (.cycle #[])
    let acts := [.request (.load [0x22, 0x04, 0x00, 0x00, 0x00, 0xEE]), step, step, step]
    initial.stack = [] ∧ (∀ act ∈ acts, act ≠ .request .reset) ∧
      (initial.lines acts).filter (Begins "TRACE ") =
        ["TRACE 0x0200: 0x2204 CALL 0x204", "TRACE 0x0204: 0x00EE RET",
          "TRACE 0x0202: 0x0000 SYS 0x000"] ∧
      stack? (initial.lines (acts.take 2)) = some [0x0202] ∧
      stack? (initial.lines acts) = some [] ∧
      ((initial.after acts).perform step).outcome = .error (.stack .empty) ∧
      ∀ line ∈ (initial.after acts).lines [step], Begins "TRACE " line := by
  intro step acts
  obtain ⟨memory, hload, hfetch⟩ :=
    load_initial [0x22, 0x04, 0x00, 0x00, 0x00, 0xEE] (by decide)
  -- The machine differs along the run in its program counter and its stack only.
  let running (pc : UInt16) (stack : List UInt16) : Machine :=
    { initial with memory, programCounter := pc, stack }
  have h1 : (initial.perform (.request (.load [0x22, 0x04, 0x00, 0x00, 0x00, 0xEE]))).state =
      running 0x200 [] := hload
  have hcall : (running 0x200 []).fetch = .ok (.ofBytes 0x22 0x04) :=
    fetch_of_memory (hfetch 0 (by decide))
  have hreturn (stack : List UInt16) : (running 0x204 stack).fetch = .ok (.ofBytes 0x00 0xEE) :=
    fetch_of_memory (hfetch 4 (by decide))
  have hroutine : (running 0x202 []).fetch = .ok (.ofBytes 0x00 0x00) :=
    fetch_of_memory (hfetch 2 (by decide))
  have h2 : ((running 0x200 []).perform step).state = running 0x204 [0x202] := by
    rw [perform_step_of_fetch (i := .call 0x204) rfl hcall rfl]
    rfl
  have h3 : ((running 0x204 [0x202]).perform step).state = running 0x202 [] := by
    rw [perform_step_of_fetch (i := .leave) rfl (hreturn _) rfl]
    rfl
  have h4 : ((running 0x202 []).perform step).state = running 0x204 [] := by
    rw [perform_step_of_fetch (i := .hostRoutine 0x000) rfl hroutine rfl]
    rfl
  have hacts : ∀ act ∈ acts, act ≠ .request .reset := by
    simp [acts, step]
  have hafter : initial.after acts = running 0x204 [] := by
    rw [after_cons, h1, after_cons, h2, after_cons, h3, after_cons, h4, after_nil]
  have hcalled : initial.after (acts.take 2) = running 0x204 [0x202] := by
    show initial.after [_, _] = _
    rw [after_cons, h1, after_cons, h2, after_nil]
  have hlines :
      ["TRACE " ++ Hex.numeral 4 (0x200 : UInt16).toNat ++ ": " ++
          Hex.numeral 4 (Opcode.ofBytes 0x22 0x04).toNat ++ " " ++ (Instruction.call 0x204).text,
        "TRACE " ++ Hex.numeral 4 (0x204 : UInt16).toNat ++ ": " ++
          Hex.numeral 4 (Opcode.ofBytes 0x00 0xEE).toNat ++ " " ++ Instruction.leave.text,
        "TRACE " ++ Hex.numeral 4 (0x202 : UInt16).toNat ++ ": " ++
          Hex.numeral 4 (Opcode.ofBytes 0x00 0x00).toNat ++ " " ++
            (Instruction.hostRoutine 0x000).text] =
        ["TRACE 0x0200: 0x2204 CALL 0x204", "TRACE 0x0204: 0x00EE RET",
          "TRACE 0x0202: 0x0000 SYS 0x000"] := by
    decide
  have hfail : ((initial.after acts).perform step).outcome = .error (.stack .empty) := by
    have hstep : (Processor.step ⟨running 0x204 [], .cycle #[]⟩).outcome =
        .error (.stack .empty) := by
      rw [Processor.step_of_fetch (p := ⟨running 0x204 [], .cycle #[]⟩) (i := .leave) rfl
        (hreturn []) rfl]
      rfl
    rw [hafter, perform, Report.map, hstep]
    rfl
  obtain ⟨htrace, hreplay, hfailed⟩ := journal_replays (m := initial) rfl acts
  refine ⟨rfl, hacts, ?_, ?_, ?_, hfail, hfailed step _ hfail⟩
  · rw [htrace, decodeLines, h1, decodeLines, h2, decodeLines, h3, decodeLines, decodeLines,
      decodeLine?_of_fetch (i := .call 0x204) rfl hcall rfl,
      decodeLine?_of_fetch (i := .leave) rfl (hreturn _) rfl,
      decodeLine?_of_fetch (i := .hostRoutine 0x000) rfl hroutine rfl]
    exact hlines
  · rw [hreplay hacts _ (List.take_prefix 2 acts), hcalled]
  · rw [hreplay hacts acts (List.prefix_refl acts), hafter]

end Machine

end Chip8
