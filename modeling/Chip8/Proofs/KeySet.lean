import Chip8.Keypad
import Mathlib.Data.Finset.Max
import Mathlib.Data.Finset.SymmDiff

/-!
The keypad as a set of numbers.

`Keypad.keySet` reads a keypad as the set of the keys that are held, and `KeySet.handle` says what
the operations mean for a set: an insertion, a removal, a symmetric difference, a minimum. Each
operation commutes with this reading, its answer and its refusals included (`Keypad.handle_keySet`),
hence so does every sequence of operations: `Keypad.refines_set`.
-/

namespace Chip8

namespace Keypad

/-- The keys that are held, as a set of numbers. -/
def keySet (k : Keypad) : Finset Nat :=
  (Finset.range 16).filter fun key => k.held[key]? = some true

variable {k : Keypad} {key : Nat}

@[simp]
theorem mem_keySet : key ∈ k.keySet ↔ k.held[key]? = some true := by
  rw [keySet, Finset.mem_filter, Finset.mem_range, and_iff_right_iff_imp]
  intro h
  exact (Vector.getElem?_eq_some_iff.mp h).1

theorem lt_of_mem_keySet (h : key ∈ k.keySet) : key < 16 :=
  Finset.mem_range.mp (Finset.mem_filter.mp h).1

theorem getElem_eq_decide (h : key < 16) : k.held[key] = decide (key ∈ k.keySet) := by
  rw [Bool.eq_iff_iff, decide_eq_true_iff, mem_keySet, Vector.getElem?_eq_getElem h,
    Option.some.injEq]

/-- A keypad is determined by the set of its keys. -/
theorem held_eq_ofFn (k : Keypad) :
    k.held = Vector.ofFn fun key : Fin 16 => decide (key.val ∈ k.keySet) := by
  refine Vector.ext fun key hkey => ?_
  rw [Vector.getElem_ofFn]
  exact getElem_eq_decide hkey

@[simp]
theorem keySet_released : released.keySet = ∅ := by
  decide

theorem keySet_releaseAll (k : Keypad) : k.releaseAll.keySet = ∅ := by
  rw [releaseAll_eq_released, keySet_released]

theorem isHeld_of_lt (h : key < 16) : k.isHeld key = .ok (decide (key ∈ k.keySet)) := by
  rw [isHeld, dif_pos h, getElem_eq_decide h]

theorem isHeld_of_le (h : 16 ≤ key) : k.isHeld key = .error (.noSuchKey key) := by
  rw [isHeld, dif_neg (Nat.not_lt.mpr h)]

theorem set_of_le (h : 16 ≤ key) (down : Bool) : k.set key down = .error (.noSuchKey key) := by
  rw [set, dif_neg (Nat.not_lt.mpr h)]

theorem toggle_of_le (h : 16 ≤ key) : k.toggle key = .error (.noSuchKey key) := by
  rw [toggle, isHeld_of_le h]

/-- Setting a key inserts or removes its number. -/
theorem set_of_lt (h : key < 16) (down : Bool) :
    ∃ changed, k.set key down = .ok changed ∧
      changed.keySet = if down then insert key k.keySet else k.keySet.erase key := by
  refine ⟨⟨k.held.set key down⟩, by rw [set, dif_pos h], Finset.ext fun other => ?_⟩
  rw [mem_keySet, Vector.getElem?_set]
  by_cases heq : key = other
  · subst heq
    cases down <;> simp
  · cases down <;> simp [heq, Ne.symm heq]

/-- A toggled key is the only one that changes sides. -/
theorem toggle_of_lt (h : key < 16) :
    ∃ changed, k.toggle key = .ok changed ∧ changed.keySet = symmDiff k.keySet {key} := by
  obtain ⟨changed, hset, hchanged⟩ := k.set_of_lt h !decide (key ∈ k.keySet)
  refine ⟨changed, ?_, ?_⟩
  · rw [toggle, isHeld_of_lt h]
    exact hset
  · rw [hchanged]
    refine Finset.ext fun other => ?_
    rw [Finset.mem_symmDiff, Finset.mem_singleton]
    by_cases hmem : key ∈ k.keySet
    · rw [decide_eq_true hmem, Bool.not_true, if_neg Bool.false_ne_true, Finset.mem_erase]
      constructor
      · rintro ⟨hne, hother⟩
        exact .inl ⟨hother, hne⟩
      · rintro (⟨hother, hne⟩ | ⟨rfl, hnot⟩)
        · exact ⟨hne, hother⟩
        · exact absurd hmem hnot
    · rw [decide_eq_false hmem, Bool.not_false, if_pos rfl, Finset.mem_insert]
      constructor
      · rintro (rfl | hother)
        · exact .inr ⟨rfl, hmem⟩
        · exact .inl ⟨hother, fun heq => hmem (heq ▸ hother)⟩
      · rintro (⟨hother, -⟩ | ⟨rfl, -⟩)
        · exact .inr hother
        · exact .inl rfl

/-- The lowest key is the least number of the set. -/
theorem lowest?_eq_some_iff {low : Fin 16} :
    k.lowest? = some low ↔ IsLeast (k.keySet : Set Nat) low.val := by
  have hget : ∀ j : Fin 16, k.held.get j = decide (j.val ∈ k.keySet) := fun j =>
    getElem_eq_decide j.isLt
  rw [lowest?, List.find?_eq_some_iff_getElem]
  simp only [List.length_finRange, List.getElem_finRange, hget, decide_eq_true_iff]
  constructor
  · rintro ⟨hlow, i, hi, rfl, hbefore⟩
    refine ⟨hlow, fun other hother => Nat.le_of_not_lt fun hlt => ?_⟩
    have hnot := hbefore other hlt
    rw [Bool.not_eq_true', decide_eq_false_iff_not] at hnot
    exact hnot hother
  · rintro ⟨hlow, hleast⟩
    refine ⟨hlow, low.val, low.isLt, rfl, fun j hj => ?_⟩
    rw [Bool.not_eq_true', decide_eq_false_iff_not]
    exact fun hmem => Nat.not_lt.mpr (hleast hmem) hj

theorem lowest?_eq_none_iff : k.lowest? = none ↔ k.keySet = ∅ := by
  have hget : ∀ j : Fin 16, k.held.get j = decide (j.val ∈ k.keySet) := fun j =>
    getElem_eq_decide j.isLt
  rw [lowest?, List.find?_eq_none, Finset.eq_empty_iff_forall_notMem]
  simp only [hget, decide_eq_true_iff]
  constructor
  · intro h key hkey
    exact h ⟨key, lt_of_mem_keySet hkey⟩ (List.mem_finRange _) hkey
  · intro h key _
    exact h key.val

theorem min_keySet (k : Keypad) :
    k.keySet.min = k.lowest?.elim ⊤ fun key => .some key.val := by
  cases h : k.lowest? with
  | none => exact Finset.min_eq_top.mpr (lowest?_eq_none_iff.mp h)
  | some low =>
      have hleast := lowest?_eq_some_iff.mp h
      have hkeys : k.keySet.Nonempty := ⟨low.val, hleast.1⟩
      rw [← Finset.coe_min' hkeys, (Finset.isLeast_min' _ hkeys).unique hleast]
      rfl

end Keypad

namespace KeySet

/-- What a set of numbers says to an operation that succeeds. -/
inductive Answer where
  | done
  | member (isMember : Bool)
  /-- The least number, or the top if there is none. -/
  | minimum (least : WithTop Nat)

/-- Changes a set on behalf of a key; a number that is no key is refused. -/
def change (s : Finset Nat) (key : Nat) (changed : Finset Nat) : Except Fault Answer × Finset Nat :=
  if key < 16 then (.ok .done, changed) else (.error (.noSuchKey key), s)

/-- What an operation means for a set of numbers: the answer, and the set after it. -/
def handle (s : Finset Nat) : Keypad.Request → Except Fault Answer × Finset Nat
  | .set key down => change s key (if down then insert key s else s.erase key)
  | .toggle key => change s key (symmDiff s {key})
  | .isHeld key =>
    (if key < 16 then .ok (.member (key ∈ s)) else .error (.noSuchKey key), s)
  | .lowest => (.ok (.minimum s.min), s)
  | .replace keys => (.ok .done, keys.keySet)
  | .release => (.ok .done, ∅)

end KeySet

namespace Keypad

/-- The number that an operation is given, if it is about a single key. -/
def Request.key? : Request → Option Nat
  | .set key _ | .toggle key | .isHeld key => some key
  | .lowest | .replace _ | .release => none

/-- The answer of a keypad as that of a set of numbers. -/
def Answer.onSet : Answer → KeySet.Answer
  | .done => .done
  | .held isHeld => .member isHeld
  | .lowest key => .minimum (key.elim ⊤ fun key => .some key.val)

/-- Carries out some operations with a handler: the answers, and what is left behind them. -/
def handleAll {σ α : Type} (handler : σ → Request → α × σ) (s : σ) : List Request → List α × σ
  | [] => ([], s)
  | request :: requests =>
    let (answer, next) := handler s request
    let (answers, last) := handleAll handler next requests
    (answer :: answers, last)

variable {k : Keypad} {key : Nat}

/-- An operation that is given a number that is no key reports it and changes nothing. -/
theorem handle_of_le {r : Request} (hkey : r.key? = some key) (h : 16 ≤ key) :
    k.handle r = (.error (.noSuchKey key), k) := by
  cases r with
  | set _ down =>
      cases hkey
      rw [handle, set_of_le h]
      rfl
  | toggle =>
      cases hkey
      rw [handle, toggle_of_le h]
      rfl
  | isHeld =>
      cases hkey
      rw [handle, isHeld_of_le h]
      rfl
  | lowest | replace | release => cases hkey

/-- A set refuses the same numbers. -/
theorem handle_set_of_le {r : Request} (hkey : r.key? = some key) (h : 16 ≤ key) (s : Finset Nat) :
    KeySet.handle s r = (.error (.noSuchKey key), s) := by
  have hnot : ¬key < 16 := Nat.not_lt.mpr h
  cases r with
  | set | toggle =>
      cases hkey
      exact if_neg hnot
  | isHeld =>
      cases hkey
      rw [KeySet.handle, if_neg hnot]
  | lowest | replace | release => cases hkey

/-- Each operation does to the set of the keys what it does to the keypad. -/
theorem handle_keySet (k : Keypad) (r : Request) :
    KeySet.handle k.keySet r = Prod.map (Except.map Answer.onSet) keySet (k.handle r) := by
  cases r with
  | set key down =>
      rcases Nat.lt_or_ge key 16 with h | h
      · obtain ⟨changed, hset, hchanged⟩ := k.set_of_lt h down
        rw [handle, hset, KeySet.handle, KeySet.change, if_pos h, ← hchanged]
        rfl
      · rw [handle_of_le rfl h, handle_set_of_le rfl h]
        rfl
  | toggle key =>
      rcases Nat.lt_or_ge key 16 with h | h
      · obtain ⟨changed, htoggle, hchanged⟩ := k.toggle_of_lt h
        rw [handle, htoggle, KeySet.handle, KeySet.change, if_pos h, ← hchanged]
        rfl
      · rw [handle_of_le rfl h, handle_set_of_le rfl h]
        rfl
  | isHeld key =>
      rcases Nat.lt_or_ge key 16 with h | h
      · rw [handle, isHeld_of_lt h, KeySet.handle, if_pos h]
        rfl
      · rw [handle_of_le rfl h, handle_set_of_le rfl h]
        rfl
  | lowest =>
      rw [KeySet.handle, min_keySet]
      rfl
  | replace keys => rfl
  | release =>
      rw [handle, KeySet.handle, ← k.keySet_releaseAll]
      rfl

theorem handleAll_keySet (k : Keypad) (requests : List Request) :
    handleAll KeySet.handle k.keySet requests =
      Prod.map (List.map (Except.map Answer.onSet)) keySet (handleAll handle k requests) := by
  induction requests generalizing k with
  | nil => rfl
  | cons r requests ih =>
      simp only [handleAll, handle_keySet, Prod.map_fst, Prod.map_snd, ih]
      rfl

/-- A keypad is a set of numbers below sixteen that starts empty: whatever operations it is given,
in whatever order and with whatever numbers, its answers are those of the set, and in the end a key
is held exactly if its number is in the set. No other number ever is, and an operation that is given
one reports it and leaves keypad and set as they are. -/
theorem refines_set (requests : List Request) :
    let keypad := handleAll handle released requests
    let set := handleAll KeySet.handle ∅ requests
    keypad.1.map (Except.map Answer.onSet) = set.1 ∧
    keypad.2.held = Vector.ofFn (fun key : Fin 16 => decide (key.val ∈ set.2)) ∧
    (∀ key ∈ set.2, key < 16) ∧
    ∀ (r : Request) (key : Nat), r.key? = some key → 16 ≤ key →
      keypad.2.handle r = (.error (.noSuchKey key), keypad.2) ∧
        KeySet.handle set.2 r = (.error (.noSuchKey key), set.2) := by
  intro keypad set
  have hset : set = Prod.map (List.map (Except.map Answer.onSet)) keySet keypad := by
    rw [← handleAll_keySet, keySet_released]
  have hkeys : set.2 = keypad.2.keySet := congrArg Prod.snd hset
  refine ⟨(congrArg Prod.fst hset).symm, ?_, ?_, fun r key hkey hle => ⟨?_, ?_⟩⟩
  · rw [hkeys]
    exact keypad.2.held_eq_ofFn
  · intro key hmem
    rw [hkeys] at hmem
    exact lt_of_mem_keySet hmem
  · exact handle_of_le hkey hle
  · exact handle_set_of_le hkey hle set.2

/-- There is no key 16, and of the keys 5 and 3 the least is 3. -/
example : (handleAll handle released [.toggle 5, .set 16 true, .set 3 true, .lowest]).1 =
    [.ok .done, .error (.noSuchKey 16), .ok .done, .ok (.lowest (some 3))] := by
  rfl

end Keypad

end Chip8
