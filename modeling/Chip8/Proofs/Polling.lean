import Chip8.Metronome
import Mathlib.Algebra.Order.Group.Int
import Mathlib.Algebra.Order.Ring.Int

/-!
Frames over a whole course of questions.

The metronome counts in a loop. `Metronome.count_eq` is its closed form, and
`Metronome.exists_counts_iff` says when the loop ends at all. From an origin on, frames are due at
the multiples of their distance; `Metronome.Paced` says that so many of them are reported and the
following one is next. A question reports what is missing up to its own time and keeps this. So the
reports add up to the intervals that have passed, however the questions were put:
`Metronome.Begins.sum_reports`.
-/

namespace Chip8

namespace Metronome

variable {m : Metronome} {now : Nat}

/-- The metronome with some more frames behind it. -/
def skip (m : Metronome) (frames : Nat) : Metronome :=
  { m with next := m.next + frames * m.interval }

theorem skip_zero (m : Metronome) : m.skip 0 = m := by
  rw [skip, Nat.zero_mul, Nat.add_zero]

theorem skip_skip (m : Metronome) (a b : Nat) : (m.skip a).skip b = m.skip (a + b) := by
  simp only [skip, Nat.add_mul, Nat.add_assoc]

/-- The frames that are due and have not been reported. -/
def overdue (m : Metronome) (now : Nat) : Nat :=
  if m.next ≤ now then (now - m.next) / m.interval + 1 else 0

theorem overdue_of_lt (h : now < m.next) : m.overdue now = 0 :=
  if_neg (Nat.not_le.mpr h)

/-- A frame that is counted leaves one less. -/
theorem overdue_of_le (hpos : 0 < m.interval) (h : m.next ≤ now) :
    m.overdue now = (m.skip 1).overdue now + 1 := by
  rw [overdue, overdue, if_pos h, skip, Nat.one_mul]
  dsimp only
  split
  · rename_i hnext
    have hsub : now - (m.next + m.interval) = now - m.next - m.interval := by omega
    have hle : m.interval ≤ now - m.next := by omega
    rw [hsub, ← Nat.div_eq_sub_div hpos hle]
  · rename_i hnext
    rw [Nat.div_eq_of_lt (by omega)]

/-- The loop ends, and it has counted the frames that were due. -/
theorem count_eq (hpos : 0 < m.interval) (now : Nat) (frames : UInt32) :
    m.count now frames =
      some (frames + UInt32.ofNat (m.overdue now), m.skip (m.overdue now)) := by
  induction hdue : m.overdue now generalizing m frames with
  | zero =>
      have hnext : ¬ m.next ≤ now := fun h => by
        rw [overdue_of_le hpos h] at hdue
        cases hdue
      rw [count, if_neg hnext, skip_zero]
      exact congrArg (fun n => some (n, m)) (UInt32.add_zero frames).symm
  | succ due ih =>
      have hnext : m.next ≤ now := by
        by_contra h
        rw [overdue_of_lt (Nat.lt_of_not_le h)] at hdue
        cases hdue
      have hlater : (m.skip 1).overdue now = due := by
        rw [overdue_of_le hpos hnext] at hdue
        exact Nat.succ.inj hdue
      have hpass : ({ m with next := m.next + m.interval } : Metronome) = m.skip 1 := by
        rw [skip, Nat.one_mul]
      rw [count, if_pos hnext, if_pos hpos, hpass, ih (m := m.skip 1) hpos _ hlater, skip_skip,
        Nat.add_comm 1, UInt32.add_assoc, UInt32.add_comm 1, UInt32.ofNat_add]
      rfl

/-- The course of the loop, pass by pass. It is over when the next frame is due later than `now`. -/
inductive Counts (now : Nat) : Metronome → UInt32 → UInt32 × Metronome → Prop
  | done {m : Metronome} {frames : UInt32} : now < m.next → Counts now m frames (frames, m)
  | pass {m : Metronome} {frames : UInt32} {report : UInt32 × Metronome} : m.next ≤ now →
      Counts now { m with next := m.next + m.interval } (frames + 1) report →
      Counts now m frames report

variable {frames : UInt32} {report : UInt32 × Metronome}

/-- A loop that is over has come nearer to its end with every pass. -/
theorem Counts.lt_or_pos (h : Counts now m frames report) : now < m.next ∨ 0 < m.interval := by
  induction h with
  | done hlt => exact .inl hlt
  | pass hnext _ ih =>
      rcases ih with hlt | hpos
      · dsimp only at hlt
        omega
      · exact .inr hpos

/-- `count` has the result that the loop has, and none if the loop does not end. -/
theorem count_eq_some_iff : m.count now frames = some report ↔ Counts now m frames report := by
  constructor
  · intro h
    induction m, frames using count.induct now with
    | case1 m frames hnext hpos ih =>
        rw [count, if_pos hnext, if_pos hpos] at h
        exact .pass hnext (ih h)
    | case2 m frames hnext hzero =>
        rw [count, if_pos hnext, if_neg hzero] at h
        cases h
    | case3 m frames hnext =>
        rw [count, if_neg hnext] at h
        cases h
        exact .done (Nat.lt_of_not_le hnext)
  · intro h
    induction h with
    | done hlt => rw [count, if_neg (Nat.not_le.mpr hlt)]
    | pass hnext hrest ih =>
        have hpos := (Counts.pass hnext hrest).lt_or_pos.resolve_left (Nat.not_lt.mpr hnext)
        rw [count, if_pos hnext, if_pos hpos, ih]

/-- The loop ends unless a frame is due and frames are due at no distance. -/
theorem exists_counts_iff :
    (∃ report, Counts now m frames report) ↔ now < m.next ∨ 0 < m.interval := by
  constructor
  · rintro ⟨report, h⟩
    exact h.lt_or_pos
  · rintro (hlt | hpos)
    · exact ⟨_, .done hlt⟩
    · exact ⟨_, count_eq_some_iff.mp (count_eq hpos now frames)⟩

theorem due_eq (hpos : 0 < m.interval) (now : Nat) :
    m.due now = (UInt32.ofNat (m.overdue now), m.skip (m.overdue now)) := by
  rw [due, count_eq hpos, Option.getD_some, UInt32.zero_add]

/-- What is answered is what the loop counts. -/
theorem counts_due (hpos : 0 < m.interval) (now : Nat) : Counts now m 0 (m.due now) := by
  rw [← count_eq_some_iff, count_eq hpos, due_eq hpos, UInt32.zero_add]

/-- What can be asked of a metronome and changes it. -/
inductive Request where
  | due (now : Nat)
  | resync (now : Nat)

def obey (m : Metronome) : Request → Metronome
  | .due now => (m.due now).2
  | .resync now => m.resync now

/-- The metronome after some requests, one after another. -/
def after (m : Metronome) (requests : List Request) : Metronome :=
  requests.foldl obey m

/-- The metronome after it was asked at some times for the frames that were due. -/
def polled (m : Metronome) (times : List Nat) : Metronome :=
  m.after (times.map .due)

/-- What it reports at these times. -/
def reports (m : Metronome) : (times : List Nat) → List UInt32
  | [] => []
  | now :: times => (m.due now).1 :: (m.due now).2.reports times

/-- All frames that it reports at these times. -/
def total (m : Metronome) (times : List Nat) : Nat :=
  ((m.reports times).map UInt32.toNat).sum

/-- No report is too large for the 32 bits that it has. -/
def Fits (m : Metronome) : (times : List Nat) → Prop
  | [] => True
  | now :: times => m.overdue now < 2 ^ 32 ∧ (m.due now).2.Fits times

theorem polled_cons (m : Metronome) (now : Nat) (times : List Nat) :
    m.polled (now :: times) = (m.due now).2.polled times := rfl

theorem total_cons (m : Metronome) (now : Nat) (times : List Nat) :
    m.total (now :: times) = (m.due now).1.toNat + (m.due now).2.total times := rfl

theorem interval_after (hpos : 0 < m.interval) (requests : List Request) :
    (m.after requests).interval = m.interval := by
  induction requests generalizing m with
  | nil => rfl
  | cons request requests ih =>
      have hobey : (m.obey request).interval = m.interval := by
        cases request with
        | due now =>
            rw [obey, due_eq hpos]
            rfl
        | resync now => rfl
      rw [after, List.foldl_cons, ← after, ih (by omega), hobey]

/-- What is reported is what lies behind the metronome afterwards. -/
theorem polled_eq_skip (hpos : 0 < m.interval) {times : List Nat} (hfits : m.Fits times) :
    m.polled times = m.skip (m.total times) := by
  induction times generalizing m with
  | nil => exact (skip_zero m).symm
  | cons now times ih =>
      obtain ⟨hword, hrest⟩ := hfits
      rw [due_eq hpos] at hrest
      rw [polled_cons, total_cons, due_eq hpos, ih (m := m.skip (m.overdue now)) hpos hrest,
        skip_skip, UInt32.toNat_ofNat_of_lt' hword]

/-- So many frames from an origin on are reported, and the following one is next. -/
def Paced (m : Metronome) (origin reported : Nat) : Prop :=
  m.next = origin + (reported + 1) * m.interval

/-- The whole intervals from an origin until now. -/
def elapsed (m : Metronome) (origin now : Nat) : Nat :=
  (now - origin) / m.interval

variable {origin reported latest : Nat}

/-- A question reports up to its own time, unless that was reported before. -/
theorem Paced.add_overdue (h : m.Paced origin reported) (hpos : 0 < m.interval) (now : Nat) :
    reported + m.overdue now = max reported (m.elapsed origin now) := by
  rw [overdue, elapsed]
  split
  · rename_i hnext
    rw [h] at hnext ⊢
    have hle : (reported + 1) * m.interval ≤ now - origin := by omega
    have hpassed : reported + 1 ≤ (now - origin) / m.interval :=
      (Nat.le_div_iff_mul_le hpos).mpr hle
    rw [← Nat.sub_sub, Nat.mul_comm, Nat.sub_mul_div]
    omega
  · rename_i hnext
    rw [h] at hnext
    have hahead : 0 < (reported + 1) * m.interval := Nat.mul_pos (Nat.succ_pos _) hpos
    have hlt : now - origin < (reported + 1) * m.interval := by omega
    have hpassed : (now - origin) / m.interval < reported + 1 :=
      (Nat.div_lt_iff_lt_mul hpos).mpr hlt
    omega

theorem Paced.skip (h : m.Paced origin reported) (frames : Nat) :
    (m.skip frames).Paced origin (reported + frames) := by
  show m.next + frames * m.interval = origin + (reported + frames + 1) * m.interval
  rw [h, Nat.add_assoc, ← Nat.add_mul, Nat.add_right_comm]

/-- After some questions, the frames up to the latest of them are reported. -/
theorem Paced.polled (h : m.Paced origin reported) (hpos : 0 < m.interval) {times : List Nat}
    (hle : ∀ t ∈ times, t ≤ latest)
    (hlatest : latest ∈ times ∨ m.elapsed origin latest ≤ reported) :
    (m.polled times).Paced origin (max reported (m.elapsed origin latest)) := by
  induction times generalizing m reported with
  | nil =>
      have hreported : m.elapsed origin latest ≤ reported := hlatest.resolve_left List.not_mem_nil
      rw [Nat.max_eq_left hreported]
      exact h
  | cons now times ih =>
      obtain ⟨hnow, hrest⟩ := List.forall_mem_cons.mp hle
      have hasked :
          (m.skip (m.overdue now)).Paced origin (max reported (m.elapsed origin now)) := by
        rw [← h.add_overdue hpos now]
        exact h.skip _
      have hmono : m.elapsed origin now ≤ m.elapsed origin latest :=
        Nat.div_le_div_right (Nat.sub_le_sub_right hnow origin)
      have hmax : max (max reported (m.elapsed origin now)) (m.elapsed origin latest) =
          max reported (m.elapsed origin latest) := by omega
      rw [polled_cons, due_eq hpos, ← hmax]
      refine ih hasked hpos hrest ?_
      rcases hlatest with hmem | hreported
      · rcases List.mem_cons.mp hmem with rfl | hlater
        · exact .inr (Nat.le_max_right _ _)
        · exact .inl hlater
      · exact .inr (Nat.le_trans hreported (Nat.le_max_left _ _))

theorem paced_start (origin interval : Nat) : (start origin interval).Paced origin 0 := by
  rw [Paced, Nat.zero_add, Nat.one_mul]
  rfl

/-- The reports add up to the intervals from the origin until the latest question. -/
theorem total_of_latest (h : m.Paced origin 0) (hpos : 0 < m.interval) {times : List Nat}
    (hfits : m.Fits times) (hmem : latest ∈ times) (hle : ∀ t ∈ times, t ≤ latest) :
    m.total times = m.elapsed origin latest := by
  have hpolled := h.polled hpos hle (.inl hmem)
  have hskipped := h.skip (m.total times)
  rw [← polled_eq_skip hpos hfits] at hskipped
  have hinterval : (m.polled times).interval = m.interval := interval_after hpos _
  rw [Paced, hinterval] at hpolled hskipped
  have hmul : (max 0 (m.elapsed origin latest) + 1) * m.interval =
      (0 + m.total times + 1) * m.interval := Nat.add_left_cancel (hpolled.symm.trans hskipped)
  have hcancel := Nat.eq_of_mul_eq_mul_right hpos hmul
  omega

/-- A metronome that begins at an origin: it is started there, or it is set to it after whatever was
asked of it before. -/
inductive Begins (interval origin : Nat) : Metronome → Prop
  | start : Begins interval origin (start origin interval)
  | resync (first : Nat) (history : List Request) :
      Begins interval origin (((start first interval).after history).resync origin)

theorem Begins.eq_start {interval : Nat} (hpos : 0 < interval) (h : Begins interval origin m) :
    m = Metronome.start origin interval := by
  cases h with
  | start => rfl
  | resync first history =>
      rw [Metronome.resync, interval_after (m := .start first interval) hpos]
      rfl

/-- Whole intervals are counted from the origin on, so there are none before it. -/
theorem natCast_elapsed (hpos : 0 < m.interval) (origin now : Nat) :
    (m.elapsed origin now : Int) = max 0 (((now : Int) - origin) / m.interval) := by
  rw [elapsed, Int.natCast_ediv]
  rcases Nat.le_total origin now with hle | hle
  · rw [Int.natCast_sub hle, Int.max_eq_right]
    exact Int.ediv_nonneg (by omega) (Int.natCast_nonneg _)
  · have hbefore : (now : Int) - origin ≤ 0 := by omega
    have hbefore := Int.ediv_le_ediv (Int.natCast_pos.mpr hpos) hbefore
    rw [Int.zero_ediv] at hbefore
    rw [Nat.sub_eq_zero_of_le hle, Int.max_eq_left hbefore]
    exact Int.zero_ediv _

/-- The next frame is due later than now, and at most one interval later. -/
theorem Paced.untilNext (h : m.Paced origin (m.elapsed origin now)) (hpos : 0 < m.interval)
    (hnow : origin ≤ now) :
    0 < m.untilNext now ∧ m.untilNext now ≤ m.interval ∧ now + m.untilNext now = m.next := by
  have hdiv := Nat.div_add_mod (now - origin) m.interval
  have hmod := Nat.mod_lt (now - origin) hpos
  rw [Paced, elapsed, Nat.add_mul, Nat.one_mul, Nat.mul_comm] at h
  rw [Metronome.untilNext]
  omega

/-- After a question at the latest time so far, the next frame is due one interval behind the last
one that has passed. -/
theorem Paced.untilNext_polled (h : m.Paced origin 0) (hpos : 0 < m.interval) {times : List Nat}
    (hnow : origin ≤ now) (hle : ∀ t ∈ times, t ≤ now) :
    let asked := m.polled (times ++ [now])
    0 < asked.untilNext now ∧ asked.untilNext now ≤ m.interval ∧
      now + asked.untilNext now = asked.next ∧
      asked.next = origin + (m.elapsed origin now + 1) * m.interval := by
  intro asked
  have hinterval : asked.interval = m.interval := interval_after hpos _
  have hlatest : ∀ t ∈ times ++ [now], t ≤ now := by
    intro t ht
    rcases List.mem_append.mp ht with ht | ht
    · exact hle t ht
    · exact Nat.le_of_eq (List.mem_singleton.mp ht)
  have hmem : now ∈ times ++ [now] := List.mem_append_right _ (List.mem_singleton_self _)
  have hasked := h.polled hpos hlatest (.inl hmem)
  rw [Nat.max_eq_right (Nat.zero_le _)] at hasked
  have hnext : asked.next = origin + (m.elapsed origin now + 1) * m.interval := by
    rw [hasked, hinterval]
  have helapsed : m.elapsed origin now = asked.elapsed origin now := by
    rw [elapsed, elapsed, hinterval]
  rw [helapsed] at hasked
  obtain ⟨hlt, hinside, hsum⟩ := hasked.untilNext (by rwa [hinterval]) hnow
  rw [hinterval] at hinside
  exact ⟨hlt, hinside, hsum, hnext⟩

/-- No frame is lost and none is reported twice. From the origin on, every question is answered; the
answers add up to the whole intervals until the latest question, so it does not matter how the
questions are put. After a question at the latest time so far, the next frame lies at most one
interval ahead, on a multiple of the interval. -/
theorem Begins.sum_reports {interval : Nat} (hpos : 0 < interval) (h : Begins interval origin m) :
    (∀ times now, Counts now (m.polled times) 0 ((m.polled times).due now)) ∧
    (∀ times, m.Fits times →
      (∀ latest, times.max? = some latest →
        (m.total times : Int) = max 0 (((latest : Int) - origin) / interval)) ∧
      ∀ others, m.Fits others → others.max? = times.max? → m.total others = m.total times) ∧
    (∀ times now, origin ≤ now → (∀ t ∈ times, t ≤ now) →
      let asked := m.polled (times ++ [now])
      0 < asked.untilNext now ∧ asked.untilNext now ≤ interval ∧
        now + asked.untilNext now = asked.next ∧ ∃ k, asked.next = origin + k * interval) := by
  have hm : m = .start origin interval := h.eq_start hpos
  have hinterval : m.interval = interval := by rw [hm, Metronome.start]
  have hpaced : m.Paced origin 0 := by
    rw [hm]
    exact paced_start origin interval
  rw [← hinterval] at hpos ⊢
  have htotal : ∀ {times latest}, m.Fits times → times.max? = some latest →
      m.total times = m.elapsed origin latest := fun hfits hmax => by
    obtain ⟨hmem, hle⟩ := List.max?_eq_some_iff.mp hmax
    exact total_of_latest hpaced hpos hfits hmem hle
  refine ⟨fun times now => ?_, fun times hfits => ⟨fun latest hmax => ?_, ?_⟩, ?_⟩
  · have hpolled : (m.polled times).interval = m.interval := interval_after hpos _
    exact counts_due (by rwa [hpolled]) now
  · rw [htotal hfits hmax, natCast_elapsed hpos]
  · intro others hothers hmax
    cases hlatest : times.max? with
    | none =>
        rw [hlatest] at hmax
        rw [List.max?_eq_none_iff.mp hlatest, List.max?_eq_none_iff.mp hmax]
    | some latest =>
        rw [hlatest] at hmax
        rw [htotal hothers hmax, htotal hfits hlatest]
  · intro times now hnow hle asked
    obtain ⟨hlt, hinside, hsum, hnext⟩ := hpaced.untilNext_polled hpos hnow hle
    exact ⟨hlt, hinside, hsum, _, hnext⟩

/-- A metronome is set back to 5 and then asked at times that run backwards and stand still. -/
theorem sum_reports_set_back :
    let m := ((start 40 10).after [.due 95]).resync 5
    let times := [27, 3, 27, 45]
    Begins 10 5 m ∧ m.Fits times ∧ m.Fits [45] ∧ m.total times = 4 ∧ m.total [45] = 4 ∧
      (m.polled times).untilNext 45 = 10 := by
  intro m times
  have hbegins : Begins 10 5 m := .resync 40 [.due 95]
  have hm : m = .start 5 10 := hbegins.eq_start (by decide)
  have hfits : m.Fits times := by
    rw [hm]
    simp [times, Fits, due_eq, overdue, start, skip]
  have hsingle : m.Fits [45] := by
    rw [hm]
    simp [Fits, overdue, start]
  obtain ⟨-, htotal, hnext⟩ := hbegins.sum_reports (by decide)
  obtain ⟨hsum, hsplit⟩ := htotal times hfits
  have hfour : m.total times = 4 := by
    have := hsum 45 rfl
    omega
  obtain ⟨hlt, hinside, hsplits, k, hk⟩ := hnext [27, 3, 27] 45 (by decide) (by decide)
  have hten : (m.polled times).untilNext 45 = 10 := by
    change 0 < (m.polled times).untilNext 45 at hlt
    change (m.polled times).untilNext 45 ≤ 10 at hinside
    change 45 + (m.polled times).untilNext 45 = (m.polled times).next at hsplits
    change (m.polled times).next = 5 + k * 10 at hk
    omega
  exact ⟨hbegins, hfits, hsingle, hfour, (hsplit [45] hsingle rfl).trans hfour, hten⟩

end Metronome

end Chip8
