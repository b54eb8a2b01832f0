import Chip8.Journal

/-!
What a journal keeps of everything that is logged.

A line goes in at the end and at most one goes out at the front, so a journal that holds no more than
its capacity holds the end of what was written to it, as much of it as it has room for. This is an
induction over the records: `Journal.isEnd_log` says it of one record, and ends of ends are ends
(`IsEnd.append`). A record that is not accepted might as well not be logged.
-/

namespace Chip8

/-- The last `count` elements of a list, or all of them if there are fewer. -/
structure IsEnd {α : Type} (count : Nat) (all last : List α) : Prop where
  suffix : last <:+ all
  length : last.length = min count all.length

namespace IsEnd

variable {α : Type} {count : Nat} {all last : List α}

theorem of_length_le (h : all.length ≤ count) : IsEnd count all all :=
  ⟨List.suffix_refl all, (Nat.min_eq_right h).symm⟩

theorem drop (count : Nat) (all : List α) : IsEnd count all (all.drop (all.length - count)) := by
  refine ⟨List.drop_suffix _ all, ?_⟩
  rw [List.length_drop]
  omega

/-- The end of a list with more behind it is found behind the end of the list. -/
theorem append {more last' : List α} (h : IsEnd count all last)
    (h' : IsEnd count (last ++ more) last') : IsEnd count (all ++ more) last' := by
  obtain ⟨front, hfront⟩ := h.suffix
  have hsuffix : last ++ more <:+ all ++ more := by
    refine ⟨front, ?_⟩
    rw [← List.append_assoc, hfront]
  refine ⟨h'.suffix.trans hsuffix, ?_⟩
  rw [h'.length, List.length_append, h.length, List.length_append]
  omega

end IsEnd

namespace Journal

variable (j : Journal)

theorem threshold_log (r : Record) : (j.log r).threshold = j.threshold := by
  rw [log]
  split <;> rfl

theorem written_log (r : Record) (records : List Record) :
    (j.log r).written records = j.written records := by
  simp only [written, isEnabled, threshold_log]

theorem written_cons (r : Record) (records : List Record) :
    j.written (r :: records) = j.written [r] ++ j.written records := by
  rw [← List.singleton_append, written, List.filter_append, List.map_append]
  rfl

theorem isEnd_push (hj : j.lines.length ≤ capacity) (line : String) :
    IsEnd capacity (j.lines ++ [line]) (j.push line).lines := by
  unfold push
  by_cases hfull : j.lines.length = capacity
  · rw [if_pos hfull]
    have hpositive : 0 < j.lines.length := by
      rw [hfull]
      decide
    have htail : j.lines.tail ++ [line] = (j.lines ++ [line]).tail :=
      (List.tail_append_of_ne_nil (List.ne_nil_of_length_pos hpositive)).symm
    refine ⟨?_, ?_⟩
    · show j.lines.tail ++ [line] <:+ _
      rw [htail]
      exact List.tail_suffix _
    · simp only [List.length_append, List.length_tail, List.length_singleton]
      omega
  · rw [if_neg hfull]
    apply IsEnd.of_length_le
    rw [List.length_append, List.length_singleton]
    omega

/-- What one record does to a journal. -/
theorem isEnd_log (hj : j.lines.length ≤ capacity) (r : Record) :
    IsEnd capacity (j.lines ++ j.written [r]) (j.log r).lines := by
  unfold log
  by_cases hr : j.isEnabled r.level = true
  · have hwritten : j.written [r] = [r.line] := by simp [written, hr]
    rw [if_pos hr, hwritten]
    exact j.isEnd_push hj r.line
  · have hwritten : j.written [r] = [] := by simp [written, hr]
    rw [if_neg hr, hwritten, List.append_nil]
    exact .of_length_le hj

/-- What any number of records do to a journal. -/
theorem isEnd_logAll (hj : j.lines.length ≤ capacity) (records : List Record) :
    IsEnd capacity (j.lines ++ j.written records) (j.logAll records).lines := by
  induction records generalizing j with
  | nil =>
    show IsEnd capacity (j.lines ++ []) j.lines
    rw [List.append_nil]
    exact .of_length_le hj
  | cons r records ih =>
    have hfirst := j.isEnd_log hj r
    have hroom : (j.log r).lines.length ≤ capacity := by
      rw [hfirst.length]
      exact Nat.min_le_left _ _
    have hrest := ih (j.log r) hroom
    rw [written_log] at hrest
    rw [written_cons, ← List.append_assoc]
    exact hfirst.append hrest

theorem log_of_not_isEnabled {r : Record} (h : j.isEnabled r.level = false) : j.log r = j := by
  rw [log, h]
  rfl

theorem logAll_append (records more : List Record) :
    j.logAll (records ++ more) = (j.logAll records).logAll more :=
  List.foldl_append

theorem threshold_logAll (records : List Record) :
    (j.logAll records).threshold = j.threshold := by
  induction records generalizing j with
  | nil => rfl
  | cons r records ih => exact (ih (j.log r)).trans (j.threshold_log r)

/-- A level is accepted when there is a threshold and the level is not below it. -/
theorem isEnabled_iff (level : Level) :
    j.isEnabled level = true ↔
      ∃ least, j.threshold = .upTo least ∧ level.rank ≤ least.rank := by
  unfold isEnabled
  cases j.threshold with
  | off => simp [Threshold.admits]
  | upTo least => simp [Threshold.admits]

/-- A journal with no more lines than its capacity keeps the end of everything: of the lines it held
and of those of the accepted records, in their order, the last ones that it has room for. What it is
asked for is the end of what it keeps. A record that is not accepted changes nothing, wherever it
stands. -/
theorem keeps_latest (hj : j.lines.length ≤ 256) (records : List Record) :
    (∀ level, j.isEnabled level = true ↔
        ∃ least, j.threshold = .upTo least ∧ level.rank ≤ least.rank) ∧
      IsEnd 256 (j.lines ++ j.written records) (j.logAll records).lines ∧
      (∀ count, IsEnd count (j.logAll records).lines ((j.logAll records).latest count)) ∧
      ∀ before r after, records = before ++ r :: after → j.isEnabled r.level = false →
        (j.logAll before).log r = j.logAll before ∧
          j.logAll records = j.logAll (before ++ after) := by
  refine ⟨j.isEnabled_iff, j.isEnd_logAll hj records, fun count => .drop count _, ?_⟩
  rintro before r after rfl hr
  have hskip : (j.logAll before).log r = j.logAll before := by
    apply log_of_not_isEnabled
    rwa [isEnabled, threshold_logAll]
  refine ⟨hskip, ?_⟩
  calc j.logAll (before ++ r :: after)
      = ((j.logAll before).log r).logAll after := j.logAll_append before (r :: after)
    _ = j.logAll (before ++ after) := by rw [hskip, logAll_append]

/-- Two lines go into a full journal that only takes warnings and errors, and two go out. -/
theorem keeps_latest_full :
    let j : Journal := ⟨.upTo .warn, List.replicate 256 "ERROR -"⟩
    let records : List Record := [⟨.error, "a"⟩, ⟨.info, "b"⟩, ⟨.warn, "c"⟩]
    j.lines.length ≤ 256 ∧ j.isEnabled .info = false ∧
      IsEnd 256 (List.replicate 256 "ERROR -" ++ ["ERROR a", "WARN  c"]) (j.logAll records).lines ∧
      IsEnd 3 (j.logAll records).lines ((j.logAll records).latest 3) ∧
      j.logAll records = j.logAll [⟨.error, "a"⟩, ⟨.warn, "c"⟩] := by
  intro j records
  have hj : j.lines.length ≤ 256 := Nat.le_of_eq List.length_replicate
  have hinfo : j.isEnabled .info = false := by decide
  obtain ⟨-, hkept, hlatest, hskipped⟩ := keeps_latest j hj records
  have hwithout := hskipped [⟨.error, "a"⟩] ⟨.info, "b"⟩ [⟨.warn, "c"⟩] rfl hinfo
  exact ⟨hj, hinfo, hkept, hlatest 3, hwithout.2⟩

end Journal

end Chip8
