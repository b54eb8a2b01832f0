import Chip8.CommandLine.Launch
import Chip8.Proofs.FailedFrame

/-!
The frames that are run before anything is shown.

`Console.Forwarded` is the course of frames without keys, frame by frame, as far as they succeed,
and `Console.FailsAt` the place where it breaks off. The course is determined by its start, so it
breaks off in one place at most, and how a program is launched depends only on whether this place
lies among the frames that were asked for. A program that waits for a key at the end of a frame
waits for ever, since no key is ever held: no frame fails behind it.
`CommandLine.launch_hidden_frames` puts this together.
-/

namespace Chip8

namespace Console

/-- What some frames without keys make of a console, if all of them succeed. -/
inductive Forwarded (start : Console) : (frames : Nat) → Console → Prop
  | start : Forwarded start 0 start
  | frame {frames : Nat} {c : Console} {signal : Option Signal} (hc : Forwarded start frames c)
      (h : (c.frame .released).outcome = .ok signal) :
      Forwarded start (frames + 1) (c.frame .released).state

/-- The frames without keys succeed up to the one with this number, which fails. -/
def FailsAt (start : Console) (frame : Nat) (fault : Fault) : Prop :=
  ∃ c, start.Forwarded frame c ∧ (c.frame .released).outcome = .error fault

variable {start c c' : Console} {frames frames' : Nat} {fault fault' : Fault}

theorem Forwarded.unique (h : start.Forwarded frames c) (h' : start.Forwarded frames c') :
    c = c' := by
  induction h generalizing c' with
  | start =>
      cases h'
      rfl
  | frame _ _ ih =>
      cases h' with
      | frame hc' _ => rw [ih hc']

/-- A course of frames has gone through all shorter ones. -/
theorem Forwarded.exists_of_lt (h : start.Forwarded frames c) (hlt : frames' < frames) :
    ∃ between signal, start.Forwarded frames' between ∧
      (between.frame .released).outcome = .ok signal := by
  induction h with
  | start => exact absurd hlt (Nat.not_lt_zero frames')
  | @frame frames c signal hc hok ih =>
      rcases Nat.lt_succ_iff_lt_or_eq.mp hlt with hless | rfl
      · exact ih hless
      · exact ⟨c, signal, hc, hok⟩

/-- Nothing succeeds beyond a failure. -/
theorem FailsAt.le (hfails : start.FailsAt frames' fault) (h : start.Forwarded frames c) :
    frames ≤ frames' := by
  obtain ⟨failing, hfailing, herror⟩ := hfails
  refine Nat.le_of_not_lt fun hlt => ?_
  obtain ⟨between, signal, hbetween, hok⟩ := h.exists_of_lt hlt
  rw [hbetween.unique hfailing, herror] at hok
  cases hok

theorem FailsAt.unique (h : start.FailsAt frames fault) (h' : start.FailsAt frames' fault') :
    frames = frames' ∧ fault = fault' := by
  obtain ⟨c, hc, herror⟩ := id h
  obtain ⟨c', hc', herror'⟩ := id h'
  obtain rfl : frames = frames' := Nat.le_antisymm (h'.le hc) (h.le hc')
  rw [hc.unique hc', herror'] at herror
  exact ⟨rfl, (Except.error.inj herror).symm⟩

/-- The console that a frame leaves: it counts the frame exactly if it succeeds. -/
theorem counters_frame (c : Console) (keys : Keypad) :
    (c.frame keys).state.cyclesPerFrame = c.cyclesPerFrame ∧
      (∀ signal, (c.frame keys).outcome = .ok signal →
        (c.frame keys).state.counter = c.counter + 1) ∧
      ∀ fault, (c.frame keys).outcome = .error fault →
        (c.frame keys).state.counter = c.counter := by
  cases houtcome : ((c.poll keys).1.processor.run c.cyclesPerFrame).outcome with
  | error fault =>
      rw [frame_of_run_error houtcome]
      exact ⟨rfl, nofun, fun _ _ => rfl⟩
  | ok signal =>
      rw [frame_of_run_ok houtcome]
      exact ⟨rfl, fun _ _ => rfl, nofun⟩

theorem Forwarded.counter_eq (h : start.Forwarded frames c) :
    c.counter = start.counter + UInt64.ofNat frames := by
  induction h with
  | start => exact (UInt64.add_zero start.counter).symm
  | @frame frames c signal _ hok ih =>
      obtain ⟨-, hcounted, -⟩ := c.counters_frame .released
      rw [hcounted signal hok, ih, UInt64.add_assoc, UInt64.ofNat_add]
      rfl

theorem Forwarded.cyclesPerFrame_eq (h : start.Forwarded frames c) :
    c.cyclesPerFrame = start.cyclesPerFrame := by
  induction h with
  | start => rfl
  | @frame frames c signal _ _ ih => exact (c.counters_frame .released).1.trans ih

end Console

namespace Run

variable {p : Processor} {count : Nat}

/-- A run that ends with a wait leaves a program that waits. -/
theorem awaiting_of_run_eq_wait (h : (p.run count).outcome = .ok .wait) :
    (p.run count).processor.machine.awaiting ≠ none := by
  obtain ⟨made, -, hprocessor, -, -, houtcome⟩ := (Run.start p).exists_stop count
  rcases houtcome with ⟨-, houtcome⟩ | ⟨done, rfl, houtcome⟩
  · cases houtcome.symm.trans h
  · rw [show (p.run count).processor = _ from hprocessor, Processor.stepped_succ']
    exact (Processor.step_wait_iff _).mp (houtcome.symm.trans h)

theorem run_of_awaiting {x : Register} (hcount : 0 < count) (hwait : p.machine.awaiting = some x) :
    (p.run count).outcome = .ok .wait := by
  obtain ⟨rest, rfl⟩ : ∃ rest, count = rest + 1 := ⟨count - 1, by omega⟩
  have houtcome : (Run.start p).step.outcome = .ok .wait :=
    congrArg Report.outcome (Processor.step_of_awaiting hwait)
  have hover : (Run.start p).step.isOver = true := by rw [isOver, houtcome]
  rw [show p.run (rest + 1) = _ from advance_succ_of_isOver hover rest]
  exact houtcome

end Run

namespace Machine

theorem awaiting_present (m : Machine) : m.present.1.awaiting = m.awaiting := by
  rw [present]
  split <;> rfl

end Machine

namespace Console

variable {start c : Console} {frames : Nat}

/-- A frame that ends with a wait leaves a program that waits. -/
theorem awaiting_of_frame_eq_wait {keys : Keypad} (h : (c.frame keys).outcome = .ok (some .wait)) :
    (c.frame keys).state.machine.awaiting ≠ none := by
  cases houtcome : ((c.poll keys).1.processor.run c.cyclesPerFrame).outcome with
  | error fault =>
      rw [frame_of_run_error houtcome] at h
      cases h
  | ok signal =>
      rw [frame_of_run_ok houtcome] at h ⊢
      cases h
      show Machine.awaiting (Machine.present _).1 ≠ none
      rw [Machine.awaiting_present]
      exact Run.awaiting_of_run_eq_wait houtcome

/-- Without keys, a program that waits goes on waiting. -/
theorem frame_of_awaiting (hcycles : 0 < c.cyclesPerFrame) (hwait : c.machine.awaiting ≠ none) :
    (c.frame .released).outcome = .ok (some .wait) ∧
      (c.frame .released).state.machine.awaiting ≠ none := by
  obtain ⟨x, hx⟩ := Option.ne_none_iff_exists'.mp hwait
  have hnone : Keypad.released.lowest? = none := by decide
  have hpoll : (c.poll .released).1.machine.awaiting = some x := by
    rw [poll, Machine.poll, hnone]
    exact hx
  have houtcome := Run.run_of_awaiting hcycles hpoll
  have hframe : (c.frame .released).outcome = .ok (some .wait) := by
    rw [frame_of_run_ok houtcome]
  exact ⟨hframe, awaiting_of_frame_eq_wait hframe⟩

/-- Behind a wait the frames without keys go on for ever, and the program goes on waiting. -/
theorem Forwarded.exists_awaiting (h : start.Forwarded frames c)
    (hcycles : 0 < start.cyclesPerFrame) (hwait : c.machine.awaiting ≠ none) (more : Nat) :
    ∃ waiting, start.Forwarded (frames + more) waiting ∧ waiting.machine.awaiting ≠ none := by
  induction more with
  | zero => exact ⟨c, h, hwait⟩
  | succ more ih =>
      obtain ⟨waiting, hforwarded, hwaiting⟩ := ih
      obtain ⟨hok, hstill⟩ := frame_of_awaiting (hforwarded.cyclesPerFrame_eq ▸ hcycles) hwaiting
      exact ⟨_, hforwarded.frame hok, hstill⟩

/-- A program that waits after some frame without keys fails in none of them. -/
theorem Forwarded.not_failsAt_of_awaiting (h : start.Forwarded frames c)
    (hcycles : 0 < start.cyclesPerFrame) (hwait : c.machine.awaiting ≠ none) (frame : Nat)
    (fault : Fault) : ¬ start.FailsAt frame fault := by
  intro hfails
  obtain ⟨waiting, hforwarded, -⟩ := h.exists_awaiting hcycles hwait (frame + 1)
  have := hfails.le hforwarded
  omega

end Console

namespace Playback

variable {start : Console} {b : Playback}

/-- What further frames without keys come to: either all of them succeed, or the playback has
stopped in the one that fails, which is not counted. -/
theorem advance_released {made : Nat} {signal : Option Signal}
    (hb : start.Forwarded made b.console) (hok : b.outcome = .ok signal) (count : Nat) :
    let played := b.advance (.frame .released) count
    (∃ last, played.outcome = .ok last ∧ start.Forwarded (made + count) played.console) ∨
      ∃ frame fault, frame < made + count ∧ start.FailsAt frame fault ∧
        played.outcome = .error fault ∧
          played.console.counter = start.counter + UInt64.ofNat frame := by
  induction count generalizing b made signal with
  | zero => exact .inl ⟨signal, hok, hb⟩
  | succ count ih =>
      cases hframe : (b.step (.frame .released)).outcome with
      | error fault =>
          right
          obtain ⟨-, -, hcounted⟩ := b.console.counters_frame .released
          refine ⟨made, fault, by omega, ⟨b.console, hb, hframe⟩, ?_, ?_⟩
          · rw [advance_succ_of_error hframe]
            exact hframe
          · rw [advance_succ_of_error hframe, ← hb.counter_eq]
            exact hcounted fault hframe
      | ok next =>
          rw [advance_succ_of_ok hframe, ← Nat.succ_add_eq_add_succ]
          exact ih (hb.frame hframe) hframe

end Playback

namespace CommandLine

/-- The console on which a program that fits is launched. -/
def loaded (hertz : Nat) (bytes : List UInt8) (tape : RandomTape) : Console :=
  .start ⟨(Machine.initial.load bytes).state, tape⟩ (Console.cyclesOfHertz hertz)

variable {options : Options} {bytes : List UInt8} {tape : RandomTape}

/-- The frames are counted from zero, and the count comes round behind its last number. -/
theorem frames_of_counter {hertz : Nat} {c : Console} {frames : Nat}
    (h : c.counter = (loaded hertz bytes tape).counter + UInt64.ofNat frames) :
    c.frames = frames % UInt64.size := by
  have hcounter : c.counter = UInt64.ofNat frames := h.trans (UInt64.zero_add _)
  rw [Console.frames, hcounter, UInt64.toNat_ofNat']

/-- What comes of the frames that are not shown. -/
def hidden (options : Options) (bytes : List UInt8) (tape : RandomTape) : Playback :=
  fastForward (loaded options.hertz bytes tape) options.startFrame.toNat

theorem launch_of_error (hfit : bytes.length ≤ Memory.programCapacity) {fault : Fault}
    (h : (hidden options bytes tape).outcome = .error fault) :
    launch options (.ok bytes) tape =
      .error (hiddenFrameFailure (hidden options bytes tape).console.frames fault) := by
  have hload : (Machine.initial.load bytes).outcome = .ok () := by
    rw [Machine.load, if_pos hfit]
  rw [hidden, loaded] at h
  simp only [launch, hload, h]
  rfl

theorem launch_of_ok (hfit : bytes.length ≤ Memory.programCapacity) {signal : Option Signal}
    (h : (hidden options bytes tape).outcome = .ok signal) :
    ∃ launched, launch options (.ok bytes) tape = .ok launched ∧
      launched.console = (hidden options bytes tape).console := by
  have hload : (Machine.initial.load bytes).outcome = .ok () := by
    rw [Machine.load, if_pos hfit]
  rw [hidden, loaded] at h
  simp only [launch, hload, h]
  exact ⟨_, rfl, rfl⟩

/-- How a program that fits is launched: by what comes of the frames that are not shown. -/
theorem launchCase (options : Options) (hfit : bytes.length ≤ Memory.programCapacity)
    (tape : RandomTape) :
    (∃ launched, launch options (.ok bytes) tape = .ok launched ∧
        (loaded options.hertz bytes tape).Forwarded options.startFrame.toNat launched.console) ∨
      ∃ frame fault, frame < options.startFrame.toNat ∧
        (loaded options.hertz bytes tape).FailsAt frame fault ∧
        launch options (.ok bytes) tape = .error (hiddenFrameFailure frame fault) := by
  have hplayed := Playback.advance_released
    (b := .start (loaded options.hertz bytes tape)) .start rfl options.startFrame.toNat
  rw [Nat.zero_add] at hplayed
  rcases hplayed with ⟨last, hok, hforwarded⟩ | ⟨frame, fault, hlt, hfails, herror, hcounter⟩
  · left
    obtain ⟨launched, hlaunch, hconsole⟩ := launch_of_ok hfit hok
    refine ⟨launched, hlaunch, ?_⟩
    rw [hconsole]
    exact hforwarded
  · right
    -- The count has not come round: a frame that is asked for has a 64-bit number.
    have hlow : frame < UInt64.size := Nat.lt_trans hlt options.startFrame.toNat_lt
    have hframes : (hidden options bytes tape).console.frames = frame :=
      (frames_of_counter hcounter).trans (Nat.mod_eq_of_lt hlow)
    refine ⟨frame, fault, hlt, hfails, (launch_of_error hfit herror).trans ?_⟩
    rw [hframes]

theorem launch_of_failsAt (options : Options) (hfit : bytes.length ≤ Memory.programCapacity)
    {frame : Nat} {fault : Fault} (hfails : (loaded options.hertz bytes tape).FailsAt frame fault)
    (hlt : frame < options.startFrame.toNat) :
    launch options (.ok bytes) tape = .error (hiddenFrameFailure frame fault) := by
  rcases launchCase options hfit tape with
    ⟨launched, -, hforwarded⟩ | ⟨frame', fault', -, hfails', hlaunch⟩
  · exact absurd (hfails.le hforwarded) (Nat.not_le_of_lt hlt)
  · obtain ⟨rfl, rfl⟩ := hfails.unique hfails'
    exact hlaunch

theorem launch_of_failsAt_le (options : Options) (hfit : bytes.length ≤ Memory.programCapacity)
    (hlate : ∀ frame fault, (loaded options.hertz bytes tape).FailsAt frame fault →
      options.startFrame.toNat ≤ frame) :
    ∃ launched, launch options (.ok bytes) tape = .ok launched ∧
      (loaded options.hertz bytes tape).Forwarded options.startFrame.toNat launched.console := by
  rcases launchCase options hfit tape with hdone | ⟨frame, fault, hlt, hfails, -⟩
  · exact hdone
  · exact absurd (hlate frame fault hfails) (Nat.not_le_of_lt hlt)

/-- More frames to run do not change how a launch fails. -/
theorem launch_error_mono (hfit : bytes.length ≤ Memory.programCapacity) {failure : Failure}
    (h : launch options (.ok bytes) tape = .error failure) {startFrame : UInt64}
    (hle : options.startFrame ≤ startFrame) :
    launch { options with startFrame } (.ok bytes) tape = .error failure := by
  rcases launchCase options hfit tape with
    ⟨launched, hlaunch, -⟩ | ⟨frame, fault, hlt, hfails, hlaunch⟩
  · rw [hlaunch] at h
    cases h
  · rw [← h, hlaunch]
    exact launch_of_failsAt { options with startFrame } hfit hfails
      (Nat.lt_of_lt_of_le hlt (UInt64.le_iff_toNat_le.mp hle))

/-- A program that waits at the end of some frame is launched, and still waits if that frame is one
of those that are not shown. -/
theorem launch_of_wait (hfit : bytes.length ≤ Memory.programCapacity) {frames : Nat} {c : Console}
    (hc : (loaded options.hertz bytes tape).Forwarded (frames + 1) c)
    (hwait : c.machine.awaiting ≠ none) :
    ∃ launched, launch options (.ok bytes) tape = .ok launched ∧
      (loaded options.hertz bytes tape).Forwarded options.startFrame.toNat launched.console ∧
      (frames < options.startFrame.toNat → launched.console.machine.awaiting ≠ none) := by
  have hcycles : 0 < (loaded options.hertz bytes tape).cyclesPerFrame :=
    Console.one_le_cyclesOfHertz options.hertz
  obtain ⟨launched, hlaunch, hforwarded⟩ := launch_of_failsAt_le options hfit
    fun frame fault h => absurd h (hc.not_failsAt_of_awaiting hcycles hwait frame fault)
  refine ⟨launched, hlaunch, hforwarded, fun hlt => ?_⟩
  obtain ⟨more, hmore⟩ := Nat.exists_eq_add_of_le (Nat.succ_le_of_lt hlt)
  obtain ⟨waiting, hthere, hstill⟩ := hc.exists_awaiting hcycles hwait more
  rw [hmore] at hforwarded
  rw [hforwarded.unique hthere]
  exact hstill

/-- Whatever program fits, whatever its speed and the random bytes, the frames without keys fail in
one place at most. If it lies among the frames that are asked for, the launch fails there: the
failure names the frame by the number of frames completed before it and has the fault as its cause,
and it is the same for any larger number of frames. Otherwise as many frames as are asked for have
succeeded, and are counted, when the program is shown. If one of them ends with a wait for a key,
none fails at all, and the program still waits whenever it is shown later. -/
theorem launch_hidden_frames (options : Options) {bytes : List UInt8}
    (hfit : bytes.length ≤ Memory.programCapacity) (tape : RandomTape) :
    let start := loaded options.hertz bytes tape
    let launchAt (n : UInt64) := launch { options with startFrame := n } (.ok bytes) tape
    (∀ f f' fault fault', start.FailsAt f fault → start.FailsAt f' fault' →
      f = f' ∧ fault = fault') ∧
    (∀ n c, start.Forwarded n c → c.frames = n % UInt64.size) ∧
    (∀ n f fault, start.FailsAt f fault → f < n.toNat →
      launchAt n =
        .error ⟨"The program failed in frame " ++ toString f,
          fault.message :: fault.cause?.toList⟩) ∧
    (∀ n, (∀ f fault, start.FailsAt f fault → n.toNat ≤ f) →
      ∃ launched, launchAt n = .ok launched ∧ start.Forwarded n.toNat launched.console ∧
        launched.console.frames = n.toNat) ∧
    (∀ n m failure, launchAt n = .error failure → n ≤ m → launchAt m = .error failure) ∧
    (∀ k c, start.Forwarded k c → (c.frame .released).outcome = .ok (some .wait) →
      (∀ f fault, ¬ start.FailsAt f fault) ∧
      ∀ n, ∃ launched, launchAt n = .ok launched ∧ start.Forwarded n.toNat launched.console ∧
        (k < n.toNat → launched.console.machine.awaiting ≠ none)) := by
  intro start launchAt
  have hcount : ∀ n c, start.Forwarded n c → c.frames = n % UInt64.size :=
    fun n c hc => frames_of_counter hc.counter_eq
  refine ⟨fun f f' fault fault' => Console.FailsAt.unique, hcount, ?_, ?_, ?_, ?_⟩
  · intro n f fault hfails hlt
    exact launch_of_failsAt _ hfit hfails hlt
  · intro n hlate
    obtain ⟨launched, hlaunch, hforwarded⟩ :=
      launch_of_failsAt_le { options with startFrame := n } hfit hlate
    refine ⟨launched, hlaunch, hforwarded, ?_⟩
    exact (hcount _ _ hforwarded).trans (Nat.mod_eq_of_lt n.toNat_lt)
  · intro n m failure hfailed hle
    exact launch_error_mono hfit hfailed hle
  · intro k c hc hwait
    have hcycles : 0 < start.cyclesPerFrame := Console.one_le_cyclesOfHertz options.hertz
    have hwaiting := hc.frame hwait
    have hawaiting := Console.awaiting_of_frame_eq_wait hwait
    refine ⟨hwaiting.not_failsAt_of_awaiting hcycles hawaiting, fun n => ?_⟩
    exact launch_of_wait hfit hwaiting hawaiting

theorem loaded_eq (hertz : Nat) {memory : Memory}
    (hload : (Machine.initial.perform (.request (.load bytes))).state =
      { Machine.initial with memory }) :
    loaded hertz bytes tape =
      .start ⟨{ Machine.initial with memory }, tape⟩ (Console.cyclesOfHertz hertz) := by
  have hstate : (Machine.initial.load bytes).state = { Machine.initial with memory } := hload
  rw [loaded, hstate]

/-- With a step in each frame, the program `61 07 00 EE` returns without a call in frame 1: to run
one frame unseen succeeds, to run seven fails there. The program `F0 0A` waits for a key, and still
does so after a thousand frames. -/
theorem launch_hidden_frames_lone_return :
    let program : List UInt8 := [0x61, 0x07, 0x00, 0xEE]
    let launchAt n :=
      launch { path := "lone-return.ch8", hertz := 60, startFrame := n } (.ok program) (.cycle #[])
    program.length ≤ Memory.programCapacity ∧
      launchAt 7 = .error ⟨"The program failed in frame 1",
        ["Invalid stack state 'Stack is empty!'.", "Stack is empty!"]⟩ ∧
      (∃ launched, launchAt 1 = .ok launched ∧ launched.console.frames = 1) ∧
      ∃ launched,
        launch { path := "wait.ch8", startFrame := 1000 } (.ok [0xF0, 0x0A]) (.cycle #[]) =
          .ok launched ∧ launched.console.machine.awaiting ≠ none := by
  intro program launchAt
  let tape : RandomTape := .cycle #[]
  have hfit : program.length ≤ Memory.programCapacity := by decide
  have hfails : (loaded 60 program tape).FailsAt 1 (.stack .empty) := by
    obtain ⟨memory, hload, hfetch⟩ := Machine.load_initial program hfit
    let first : Machine := { Machine.initial with memory }
    let second : Machine := { first.setRegister 1 7 with programCounter := 0x202 }
    let c : Console := ⟨⟨first, tape⟩, 1, 0⟩
    let c' : Console := ⟨⟨second, tape⟩, 1, 1⟩
    have hpoll : (c.poll .released).1 = c := Console.poll_eq_self rfl rfl
    have hpoll' : (c'.poll .released).1 = c' := Console.poll_eq_self rfl rfl
    have hset : first.fetch = .ok (.ofBytes 0x61 0x07) :=
      Machine.fetch_of_memory (hfetch 0 (by decide))
    have hreturn : second.fetch = .ok (.ofBytes 0x00 0xEE) :=
      Machine.fetch_of_memory (hfetch 2 (by decide))
    have hrun : (c.poll .released).1.processor.run c.cyclesPerFrame =
        ⟨⟨second, tape⟩, 1, .ok .proceed,
          [.decoded 0x200 (.ofBytes 0x61 0x07) (.loadByte 1 7)]⟩ := by
      have hstep := Processor.step_of_fetch (p := ⟨first, tape⟩) (i := .loadByte 1 7) rfl hset rfl
      rw [hpoll]
      show Processor.run ⟨first, tape⟩ 1 = _
      simp only [Processor.run, Run.advance, Run.step, Run.start, hstep]
      rfl
    have hreturns : ((c'.poll .released).1.processor.run c'.cyclesPerFrame).outcome =
        .error (.stack .empty) := by
      have hstep := Processor.step_of_fetch (p := ⟨second, tape⟩) (i := .leave) rfl hreturn rfl
      rw [hpoll']
      show (Processor.run ⟨second, tape⟩ 1).outcome = _
      simp only [Processor.run, Run.advance, Run.step, Run.start, hstep]
      rfl
    have hframe := Console.frame_of_run_ok (congrArg Run.outcome hrun)
    have hok : (c.frame .released).outcome = .ok (some .proceed) := by rw [hframe]
    have hnext : (c.frame .released).state = c' := by
      rw [hframe, hrun]
      rfl
    have hforwarded : (loaded 60 program tape).Forwarded 1 c' := by
      rw [loaded_eq 60 hload, ← hnext]
      exact Console.Forwarded.start.frame hok
    refine ⟨c', hforwarded, ?_⟩
    rw [Console.frame_of_run_error hreturns]
  have hfit' : ([0xF0, 0x0A] : List UInt8).length ≤ Memory.programCapacity := by decide
  have hwaits : ((loaded Console.defaultHertz [0xF0, 0x0A] tape).frame .released).outcome =
      .ok (some .wait) := by
    obtain ⟨memory, hload, hfetch⟩ := Machine.load_initial _ hfit'
    let m : Machine := { Machine.initial with memory }
    let c : Console := ⟨⟨m, tape⟩, 8, 0⟩
    have hpoll : (c.poll .released).1 = c := Console.poll_eq_self rfl rfl
    have hwait : m.fetch = .ok (.ofBytes 0xF0 0x0A) :=
      Machine.fetch_of_memory (hfetch 0 (by decide))
    have hrun : ((c.poll .released).1.processor.run c.cyclesPerFrame).outcome = .ok .wait := by
      have hstep := Processor.step_of_fetch (p := ⟨m, tape⟩) (i := .unary .awaitKey 0) rfl hwait rfl
      rw [hpoll]
      show (Processor.run ⟨m, tape⟩ 8).outcome = _
      simp only [Processor.run, Run.advance, Run.step, Run.start, hstep]
      rfl
    rw [loaded_eq _ hload]
    show (c.frame .released).outcome = _
    rw [Console.frame_of_run_ok hrun]
  obtain ⟨-, -, hearly, hlate, -⟩ :=
    launch_hidden_frames { path := "lone-return.ch8", hertz := 60 } hfit tape
  obtain ⟨-, -, -, -, -, hwaiting⟩ := launch_hidden_frames { path := "wait.ch8" } hfit' tape
  obtain ⟨launched, hlaunch, -, hdone⟩ := hlate 1 fun f fault h => Nat.le_of_eq (hfails.unique h).1
  obtain ⟨-, hshown⟩ := hwaiting 0 (loaded Console.defaultHertz _ tape) .start hwaits
  obtain ⟨launched', hlaunch', -, hstill⟩ := hshown 1000
  exact ⟨hfit, hearly 7 1 _ hfails (by decide), ⟨launched, hlaunch, hdone⟩,
    launched', hlaunch', hstill (by decide)⟩

end CommandLine

end Chip8
