import Chip8.Terminal.Typing

/-!
What is typed over any run of keystrokes, of takings of the commands and of looks at the held keys,
at times that may also run backwards.

A keystroke gives a command (`Keystroke.command?`) or presses a key (`Keystroke.Presses`), both said
of the keystroke alone. A run neither loses a command nor hands one out twice, and a key is held
while the hold time of its latest press has not passed, where the latest press is the one that was
handled last: `Typing.every_keystroke_counts`.
-/

namespace Chip8.Terminal

/-- The command that a keystroke gives. -/
def Keystroke.command? : Keystroke → Option Command
  | ⟨.escape, _, _, _⟩ => some .quit
  | ⟨.character 'c', true, _, _⟩ => some .quit
  | ⟨.character ' ', _, _, _⟩ => some .step
  | ⟨.character 'p', _, _, _⟩ => some .togglePause
  | ⟨.character 'P', _, _, _⟩ => some .togglePause
  | _ => none

/-- A character lies over a key: in the same row of the block and the keypad, at the same place. -/
def LiesOver (c : Char) (k : Fin 16) : Prop :=
  ∃ row ∈ keyBlock.zip Keypad.layout, (c, k) ∈ row.1.zip row.2

/-- A keystroke presses a key when it gives no command and its character, as a small letter, lies
over the key. -/
def Keystroke.Presses (stroke : Keystroke) (k : Fin 16) : Prop :=
  stroke.command? = none ∧ ∃ c, stroke.key = .character c ∧ LiesOver c.toLower k

theorem mem_keymap_iff {c : Char} {k : Fin 16} : (c, k) ∈ keymap ↔ LiesOver c k := by
  have hrows : keymap = (keyBlock.zip Keypad.layout).flatMap fun row => row.1.zip row.2 := rfl
  rw [hrows, List.mem_flatMap]
  rfl

theorem keypadKey?_eq_some_iff {c : Char} {k : Fin 16} :
    keypadKey? c = some k ↔ LiesOver c.toLower k := by
  have hfound : ∀ entry ∈ keymap, keymap.lookup entry.1 = some entry.2 := by decide
  rw [keypadKey?, ← mem_keymap_iff]
  constructor
  · intro h
    obtain ⟨before, after, hsplit, -⟩ := List.lookup_eq_some_iff.mp h
    rw [hsplit]
    exact List.mem_append_cons_self
  · exact hfound (c.toLower, k)

namespace Keystroke

/-- A keystroke without a command is read as a character of the keypad. -/
theorem meaning_of_command?_eq_none {stroke : Keystroke} (h : stroke.command? = none) :
    stroke.meaning =
      match stroke.key with
      | .character c => ((keypadKey? c).map Meaning.press).getD (.unmapped c)
      | _ => .nothing := by
  obtain ⟨key, control, shift, alt⟩ := stroke
  cases key with
  | character c =>
    have hquit : ¬ (c = 'c' && control) = true := by
      rw [Bool.and_eq_true, decide_eq_true_eq]
      rintro ⟨rfl, rfl⟩
      cases h
    have hstep : c ≠ ' ' := by
      rintro rfl
      cases h
    have hpause : ¬ (c = 'p' || c = 'P') = true := by
      rw [Bool.or_eq_true, decide_eq_true_eq, decide_eq_true_eq]
      rintro (rfl | rfl) <;> cases h
    dsimp only [meaning]
    rw [if_neg hquit, if_neg hstep, if_neg hpause]
    cases keypadKey? c <;> rfl
  | escape => cases h
  | _ => rfl

theorem meaning_of_command?_eq_some {stroke : Keystroke} {command : Command}
    (h : stroke.command? = some command) : stroke.meaning = .command command := by
  unfold command? at h
  split at h <;> cases h <;> rfl

theorem presses_iff {stroke : Keystroke} {k : Fin 16} (h : stroke.command? = none) :
    stroke.Presses k ↔ ∃ c, stroke.key = .character c ∧ keypadKey? c = some k := by
  simp only [Presses, keypadKey?_eq_some_iff, h, true_and]

/-- A keystroke gives a command and presses no key, or presses one key, or does neither. -/
theorem meaning_cases (stroke : Keystroke) :
    (∃ command, stroke.command? = some command ∧ stroke.meaning = .command command) ∨
      stroke.command? = none ∧
        ((∃ key, (∀ k, stroke.Presses k ↔ k = key) ∧ stroke.meaning = .press key) ∨
          (∀ k, ¬ stroke.Presses k) ∧
            ((∃ c, stroke.meaning = .unmapped c) ∨ stroke.meaning = .nothing)) := by
  cases hcommand : stroke.command? with
  | some command => exact .inl ⟨command, rfl, meaning_of_command?_eq_some hcommand⟩
  | none =>
    refine .inr ⟨rfl, ?_⟩
    simp only [presses_iff hcommand, meaning_of_command?_eq_none hcommand]
    cases stroke.key with
    | character c =>
      dsimp only
      cases hkey : keypadKey? c with
      | some key =>
        refine .inl ⟨key, fun k => ⟨?_, ?_⟩, rfl⟩
        · rintro ⟨c', hc, hk⟩
          cases hc
          exact Option.some.inj (hk.symm.trans hkey)
        · rintro rfl
          exact ⟨c, rfl, hkey⟩
      | none =>
        refine .inr ⟨?_, .inl ⟨c, rfl⟩⟩
        rintro k ⟨c', hc, hk⟩
        cases hc
        cases hkey.symm.trans hk
    | _ => exact .inr ⟨fun k => nofun, .inr rfl⟩

end Keystroke

namespace Typing

/-- What a keystroke does to what was typed before. -/
structure Responds (before after : Typing) (stroke : Keystroke) (now : Nat) : Prop where
  commands : after.commands = before.commands ++ stroke.command?.toList
  pressed : ∀ k, stroke.Presses k → after.pressedAt.get k = some now
  untouched : ∀ k, ¬ stroke.Presses k → after.pressedAt.get k = before.pressedAt.get k
  /-- A keystroke does not both give a command and press a key. -/
  exclusive : after.commands = before.commands ∨ after.pressedAt = before.pressedAt

theorem responds_accept (t : Typing) (stroke : Keystroke) (now : Nat) :
    Responds t (t.accept stroke now).1 stroke now := by
  rw [accept]
  obtain ⟨command, hcommand, hmeaning⟩ |
    ⟨hcommand, ⟨key, hpresses, hmeaning⟩ | ⟨hpresses, hmeaning⟩⟩ := stroke.meaning_cases
  · rw [hmeaning]
    have hpresses : ∀ k, ¬ stroke.Presses k := by
      rintro k ⟨hnone, -⟩
      cases hcommand.symm.trans hnone
    exact ⟨by rw [hcommand]; rfl, fun k hk => absurd hk (hpresses k), fun _ _ => rfl, .inr rfl⟩
  · rw [hmeaning]
    refine ⟨by rw [hcommand, Option.toList_none, List.append_nil], fun k hk => ?_,
      fun k hk => ?_, .inl rfl⟩
    · obtain rfl := (hpresses k).mp hk
      exact Vector.getElem_set_self _
    · refine Vector.getElem_set_ne key.isLt k.isLt fun heq => hk ?_
      exact (hpresses k).mpr (Fin.ext heq.symm)
  · have hidle : Responds t t stroke now :=
      ⟨by rw [hcommand, Option.toList_none, List.append_nil],
        fun k hk => absurd hk (hpresses k), fun _ _ => rfl, .inl rfl⟩
    obtain ⟨c, hmeaning⟩ | hmeaning := hmeaning <;>
    · rw [hmeaning]
      exact hidle

/-- Something that is done to what was typed. -/
inductive Act where
  | accept (stroke : Keystroke) (now : Nat)
  /-- Takes the commands. -/
  | take
  /-- Asks for the held keys. -/
  | look (now : Nat)

namespace Act

def command? : Act → Option Command
  | .accept stroke _ => stroke.command?
  | .take | .look _ => none

def PressesAt (k : Fin 16) (time : Nat) : Act → Prop
  | .accept stroke now => stroke.Presses k ∧ now = time
  | .take | .look _ => False

end Act

/-- The last act that presses a key presses it at this time. -/
def LatestPress (k : Fin 16) (pressed : Nat) (acts : List Act) : Prop :=
  ∃ earlier act later, acts = earlier ++ act :: later ∧ act.PressesAt k pressed ∧
    ∀ other ∈ later, ∀ time, ¬ other.PressesAt k time

/-- The result of an act. -/
inductive Answer where
  | accepted
  | taken (commands : List Command)
  | seen (keys : Keypad)
  deriving DecidableEq

def Answer.commands : Answer → List Command
  | .taken commands => commands
  | .accepted | .seen _ => []

/-- Does something to what was typed. -/
def perform (t : Typing) : Act → Answer × Typing
  | .accept stroke now => (.accepted, (t.accept stroke now).1)
  | .take => (.taken t.takeCommands.1, t.takeCommands.2)
  | .look now => (.seen (t.held now), t)

/-- What was typed after some acts. -/
def after (t : Typing) (acts : List Act) : Typing :=
  acts.foldl (fun t act => (t.perform act).2) t

/-- All the commands that some acts take, the earliest first. -/
def taken : Typing → List Act → List Command
  | _, [] => []
  | t, act :: acts => (t.perform act).1.commands ++ taken (t.perform act).2 acts

theorem after_cons (t : Typing) (act : Act) (acts : List Act) :
    t.after (act :: acts) = (t.perform act).2.after acts := rfl

theorem after_append_singleton (t : Typing) (acts : List Act) (act : Act) :
    t.after (acts ++ [act]) = ((t.after acts).perform act).2 :=
  List.foldl_append

theorem commands_perform (t : Typing) (act : Act) :
    (t.perform act).1.commands ++ (t.perform act).2.commands =
      t.commands ++ act.command?.toList := by
  cases act with
  | accept stroke now => exact (responds_accept t stroke now).commands
  | take => rfl
  | look now => exact (List.append_nil _).symm

theorem commands_after (t : Typing) (acts : List Act) :
    t.taken acts ++ (t.after acts).commands = t.commands ++ acts.filterMap Act.command? := by
  induction acts generalizing t with
  | nil => exact (List.append_nil _).symm
  | cons act acts ih =>
    have hgiven : act.command?.toList ++ acts.filterMap Act.command? =
        (act :: acts).filterMap Act.command? := by
      rw [List.filterMap_cons]
      cases act.command? <;> rfl
    calc t.taken (act :: acts) ++ (t.after (act :: acts)).commands
        = (t.perform act).1.commands ++
            ((t.perform act).2.taken acts ++ ((t.perform act).2.after acts).commands) :=
          List.append_assoc _ _ _
      _ = (t.perform act).1.commands ++
            ((t.perform act).2.commands ++ acts.filterMap Act.command?) := by rw [ih]
      _ = t.commands ++ act.command?.toList ++ acts.filterMap Act.command? := by
          rw [← List.append_assoc, commands_perform]
      _ = t.commands ++ (act :: acts).filterMap Act.command? := by
          rw [List.append_assoc, hgiven]

theorem pressedAt_perform (t : Typing) (act : Act) (k : Fin 16) (pressed : Nat) :
    (t.perform act).2.pressedAt.get k = some pressed ↔
      act.PressesAt k pressed ∨
        (∀ time, ¬ act.PressesAt k time) ∧ t.pressedAt.get k = some pressed := by
  cases act with
  | accept stroke now =>
    have hresponds := responds_accept t stroke now
    by_cases hk : stroke.Presses k
    · rw [perform, hresponds.pressed k hk, Option.some_inj]
      simp [Act.PressesAt, hk]
    · rw [perform, hresponds.untouched k hk]
      simp [Act.PressesAt, hk]
  | take | look => simp [perform, takeCommands, Act.PressesAt]

theorem latestPress_cons {k : Fin 16} {pressed : Nat} {act : Act} {acts : List Act} :
    LatestPress k pressed (act :: acts) ↔
      LatestPress k pressed acts ∨
        act.PressesAt k pressed ∧ ∀ other ∈ acts, ∀ time, ¬ other.PressesAt k time := by
  constructor
  · rintro ⟨_ | ⟨first, earlier⟩, act', later, hsplit, hpress, hlater⟩
    · cases hsplit
      exact .inr ⟨hpress, hlater⟩
    · cases hsplit
      exact .inl ⟨earlier, act', later, rfl, hpress, hlater⟩
  · rintro (⟨earlier, act', later, rfl, hpress, hlater⟩ | ⟨hpress, hlater⟩)
    · exact ⟨act :: earlier, act', later, rfl, hpress, hlater⟩
    · exact ⟨[], act, acts, rfl, hpress, hlater⟩

theorem pressedAt_after (t : Typing) (acts : List Act) (k : Fin 16) (pressed : Nat) :
    (t.after acts).pressedAt.get k = some pressed ↔
      LatestPress k pressed acts ∨
        (∀ act ∈ acts, ∀ time, ¬ act.PressesAt k time) ∧ t.pressedAt.get k = some pressed := by
  induction acts generalizing t with
  | nil => simp [LatestPress, after]
  | cons act acts ih =>
    rw [after_cons, ih, pressedAt_perform, latestPress_cons, List.forall_mem_cons]
    grind

/-- A press earlier than the hold time ago does not count; one that is yet to come does. -/
theorem held_get (t : Typing) (now : Nat) (k : Fin 16) :
    (t.held now).held.get k = true ↔
      ∃ pressed, t.pressedAt.get k = some pressed ∧ now < pressed + 200000000 := by
  have hget : (t.held now).held.get k = isFresh now (t.pressedAt.get k) :=
    Vector.getElem_map _ k.isLt
  rw [hget]
  cases t.pressedAt.get k with
  | none => simp [isFresh]
  | some pressed =>
    rw [isFresh, decide_eq_true_eq, holdTime]
    simp only [Option.some_inj, exists_eq_left']
    omega

/-- Over every run: the commands that were taken, followed by those that wait, are those that the
keystrokes give, in their order; a key is held when less than the hold time has passed since its
latest press; a keystroke gives its command or presses its key and does nothing else; and neither
taking the commands nor asking for the held keys changes which keys are held. -/
theorem every_keystroke_counts (acts : List Act) :
    start.taken acts ++ (start.after acts).commands = acts.filterMap Act.command? ∧
      (∀ now, ∃ keys, ((start.after acts).perform (.look now)).1 = .seen keys ∧
        ∀ k, keys.held.get k = true ↔
          ∃ pressed, LatestPress k pressed acts ∧ now < pressed + 200000000) ∧
      (∀ stroke now,
        Responds (start.after acts) (start.after (acts ++ [.accept stroke now])) stroke now) ∧
      (start.after (acts ++ [.take])).held = (start.after acts).held ∧
      ∀ now, (start.after (acts ++ [.look now])).held = (start.after acts).held := by
  have hlatest : ∀ k pressed,
      (start.after acts).pressedAt.get k = some pressed ↔ LatestPress k pressed acts := by
    intro k pressed
    have hnone : start.pressedAt.get k ≠ some pressed := by
      simp [start, Vector.get]
    rw [pressedAt_after, or_iff_left fun h => hnone h.2]
  refine ⟨commands_after start acts, fun now => ⟨_, rfl, fun k => ?_⟩, fun stroke now => ?_, ?_,
    fun now => ?_⟩
  · rw [held_get]
    simp only [hlatest]
  · rw [after_append_singleton]
    exact responds_accept _ stroke now
  · rw [after_append_singleton]
    rfl
  · rw [after_append_singleton]
    rfl

/-- The press that is handled last counts, also when its time is the earlier one. -/
example :
    let t := start.after [.accept { key := .character 'w' } 900000000, .take,
      .accept { key := .character 'W' } 100000000]
    (t.held 299999999).held.get 5 = true ∧ t.held 300000000 = .released := by
  cbv

end Typing

end Chip8.Terminal
