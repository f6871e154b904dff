import Mathlib
import Throttle.Window.Basic

/-!
# Turning a window

A window that is looked at turns once for every segment width that has passed. What it counts is
described by `Window.left`: what would still be counted after some number of further turns. In these
terms looking at a window is a shift, and starting afresh after a whole interval is no exception:
by then every segment has been turned out anyway.

## Main statements

* `left_advance` — looking at a window shifts `left` by the turns that it makes.
* `left_advance_advance` — looking at a window earlier does not change what is counted later.
* `Agrees` — two windows count the same from some instant on; a window that was looked at agrees
  with itself as it was.
* `exists_total_advance_lt` — windows that count the same on different grids are told apart.
* `left_record` — recording adds to what is left, until the newest segment is turned out.
* `counts_record` — recording adds to the newest count.
-/

namespace Throttle

theorem Plan.width_le_interval (plan : Plan) : plan.width ≤ plan.interval :=
  Nat.div_le_self plan.interval plan.segments

namespace Window

/-- Two windows of one plan are equal if they count the same from the same instant on. -/
theorem eq_of_counts_of_start {first second : Window} (hplan : first.plan = second.plan)
    (hcounts : first.counts = second.counts) (hstart : first.start = second.start) :
    first = second := by
  cases first
  cases second
  simp_all

/-- What is still counted after `turns` more turns. -/
def left (window : Window) (turns : Nat) : Nat := (window.counts.drop turns).sum

/-- How many turns it takes until the window stands as it does at `now`. -/
def turnsAt (window : Window) (now : Int) : Nat :=
  Time.elapsed window.start now / window.plan.width

theorem total_eq_left (window : Window) : window.total = window.left 0 := rfl

/-- Every segment has been turned out. -/
theorem left_eq_zero {window : Window} {turns : Nat} (h : window.plan.segments ≤ turns) :
    window.left turns = 0 := by
  rw [left, List.drop_eq_nil_of_le (by rw [window.length_counts]; exact h)]
  rfl

theorem left_succ_le (window : Window) (turns : Nat) :
    window.left (turns + 1) ≤ window.left turns := by
  by_cases h : turns < window.counts.length
  · rw [left, left, List.drop_eq_getElem_cons h, List.sum_cons]
    exact Nat.le_add_left _ _
  · rw [left, left, List.drop_eq_nil_of_le (by omega), List.drop_eq_nil_of_le (by omega)]

theorem left_antitone (window : Window) : Antitone window.left :=
  antitone_nat_of_succ_le window.left_succ_le

@[simp] theorem left_fresh (plan : Plan) (now : Int) (turns : Nat) :
    (fresh plan now).left turns = 0 := by
  simp [left, fresh, List.drop_replicate]

/-! ## Looking at a window -/

/-- All turns at once: as many counts are dropped as widths have passed. -/
theorem slide_eq {width : Nat} (hw : 0 < width) (elapsed : Nat) (old : List Nat) (turns : Nat) :
    slide width elapsed old turns = (old.drop (elapsed / width), turns + elapsed / width) := by
  fun_induction slide width elapsed old turns with
  | case1 elapsed old turns h ih =>
    have hdiv : elapsed / width = (elapsed - width) / width + 1 := Nat.div_eq_sub_div hw h.2
    rw [ih, hdiv, ← List.drop_one, List.drop_drop, Nat.add_assoc, Nat.add_comm 1]
  | case2 elapsed old turns h =>
    have hlt : elapsed < width := Nat.lt_of_not_le fun hle => h ⟨hw, hle⟩
    have hdiv : elapsed / width = 0 := Nat.div_eq_of_lt hlt
    simp [hdiv]

/-- After an interval the window starts afresh. -/
theorem advance_of_le {window : Window} {now : Int}
    (h : window.plan.interval ≤ Time.elapsed window.start now) :
    window.advance now = fresh window.plan now := by
  simp only [advance, if_pos h]

theorem counts_advance_of_lt {window : Window} {now : Int}
    (h : Time.elapsed window.start now < window.plan.interval) :
    (window.advance now).counts = window.counts.drop (window.turnsAt now) ++
      List.replicate (window.plan.segments - (window.counts.drop (window.turnsAt now)).length) 0 := by
  simp only [advance, if_neg (Nat.not_le.mpr h), slide_eq window.plan.width_pos, turnsAt]

theorem start_advance_of_lt {window : Window} {now : Int}
    (h : Time.elapsed window.start now < window.plan.interval) :
    (window.advance now).start = window.start + (window.turnsAt now * window.plan.width : Nat) := by
  simp only [advance, if_neg (Nat.not_le.mpr h), slide_eq window.plan.width_pos, turnsAt,
    Nat.zero_add]

/-- After an interval there are no fewer turns than segments. -/
theorem segments_le_turnsAt {window : Window} {now : Int}
    (h : window.plan.interval ≤ Time.elapsed window.start now) :
    window.plan.segments ≤ window.turnsAt now := by
  rw [turnsAt, Nat.le_div_iff_mul_le window.plan.width_pos]
  exact Nat.le_trans window.plan.segments_mul_width_le h

/-- **Looking at a window is a shift**, also when the window starts afresh. -/
theorem left_advance (window : Window) (now : Int) (turns : Nat) :
    (window.advance now).left turns = window.left (window.turnsAt now + turns) := by
  by_cases h : window.plan.interval ≤ Time.elapsed window.start now
  · have hturns := segments_le_turnsAt h
    rw [advance_of_le h, left_fresh, left_eq_zero (by omega)]
  · rw [left, counts_advance_of_lt (Nat.not_le.mp h), List.drop_append, List.sum_append,
      List.drop_replicate, List.sum_replicate, List.drop_drop, left]
    simp

theorem total_advance (window : Window) (now : Int) :
    (window.advance now).total = window.left (window.turnsAt now) := by
  rw [total_eq_left, left_advance, Nat.add_zero]

/-! ## Where the newest segment starts -/

/-- The turns that have come do not go past `now`. -/
theorem turnsAt_mul_width_le {window : Window} {now : Int} (h : window.start ≤ now) :
    window.start + (window.turnsAt now * window.plan.width : Nat) ≤ now := by
  have hdiv := Nat.div_mul_le_self (Time.elapsed window.start now) window.plan.width
  simp only [turnsAt, Time.elapsed] at hdiv ⊢
  omega

/-- One more turn would go past `now`. -/
theorem lt_turnsAt_mul_width (window : Window) (now : Int) :
    now < window.start + (window.turnsAt now * window.plan.width : Nat) + window.plan.width := by
  have hdiv := Nat.lt_div_mul_add window.plan.width_pos (a := Time.elapsed window.start now)
  simp only [turnsAt, Time.elapsed] at hdiv ⊢
  omega

theorem start_advance_le {window : Window} {now : Int} (h : window.start ≤ now) :
    (window.advance now).start ≤ now := by
  by_cases hi : window.plan.interval ≤ Time.elapsed window.start now
  · simp [advance_of_le hi]
  · rw [start_advance_of_lt (Nat.not_le.mp hi)]
    exact turnsAt_mul_width_le h

theorem lt_start_advance_add_width (window : Window) (now : Int) :
    now < (window.advance now).start + window.plan.width := by
  by_cases hi : window.plan.interval ≤ Time.elapsed window.start now
  · have hw := window.plan.width_pos
    rw [advance_of_le hi, start_fresh]
    omega
  · rw [start_advance_of_lt (Nat.not_le.mp hi)]
    exact window.lt_turnsAt_mul_width now

theorem start_le_start_advance (window : Window) (now : Int) :
    window.start ≤ (window.advance now).start := by
  by_cases hi : window.plan.interval ≤ Time.elapsed window.start now
  · have hpos : 0 < window.plan.interval :=
      Nat.lt_of_lt_of_le (by have := window.plan.two_le_segments; omega)
        window.plan.segments_le_interval
    rw [advance_of_le hi, start_fresh]
    simp only [Time.elapsed] at hi
    omega
  · rw [start_advance_of_lt (Nat.not_le.mp hi)]
    omega

/-- Before the newest segment is over, looking at a window changes nothing. -/
theorem advance_eq_self {window : Window} {now : Int} (h : now < window.start + window.plan.width) :
    window.advance now = window := by
  have hpos := window.plan.width_pos
  have hwidth := window.plan.width_le_interval
  have helapsed : Time.elapsed window.start now < window.plan.width := by
    simp only [Time.elapsed]
    omega
  have hturns : window.turnsAt now = 0 := Nat.div_eq_of_lt helapsed
  have hlt : Time.elapsed window.start now < window.plan.interval :=
    Nat.lt_of_lt_of_le helapsed hwidth
  refine eq_of_counts_of_start (plan_advance window now) ?_ ?_
  · rw [counts_advance_of_lt hlt, hturns, List.drop_zero, window.length_counts, Nat.sub_self]
    simp
  · rw [start_advance_of_lt hlt, hturns]
    simp

/-- A number of turns has come once so many widths have passed. -/
theorem le_turnsAt_iff {window : Window} {now : Int} (h : window.start ≤ now) (turns : Nat) :
    turns ≤ window.turnsAt now ↔ window.start + (turns * window.plan.width : Nat) ≤ now := by
  rw [turnsAt, Nat.le_div_iff_mul_le window.plan.width_pos]
  simp only [Time.elapsed]
  omega

theorem turnsAt_mono (window : Window) {s t : Int} (h : s ≤ t) :
    window.turnsAt s ≤ window.turnsAt t :=
  Nat.div_le_div_right (by simp only [Time.elapsed]; omega)

/-- So many turns have come when the segment after them starts. -/
theorem turnsAt_start_add (window : Window) (turns : Nat) :
    window.turnsAt (window.start + (turns * window.plan.width : Nat)) = turns := by
  rw [turnsAt, Time.elapsed, add_sub_cancel_left, Int.toNat_natCast]
  exact Nat.mul_div_cancel turns window.plan.width_pos

/-- A window that was looked at before has made some of its turns already. -/
theorem turnsAt_advance_of_lt {window : Window} {s t : Int} (hs : window.start ≤ s) (ht : s ≤ t)
    (h : Time.elapsed window.start s < window.plan.interval) :
    window.turnsAt s + (window.advance s).turnsAt t = window.turnsAt t := by
  have hstart := turnsAt_mul_width_le hs
  have hsplit : Time.elapsed window.start t =
      Time.elapsed (window.advance s).start t + window.plan.width * window.turnsAt s := by
    rw [start_advance_of_lt h, Nat.mul_comm window.plan.width]
    simp only [Time.elapsed]
    omega
  rw [turnsAt, turnsAt, turnsAt, hsplit, plan_advance,
    Nat.add_mul_div_left _ _ window.plan.width_pos, ← turnsAt]
  omega

/-- **Looking at a window earlier does not change what is counted later.** -/
theorem left_advance_advance {window : Window} {s t : Int} (hs : window.start ≤ s) (ht : s ≤ t)
    (turns : Nat) :
    ((window.advance s).advance t).left turns = (window.advance t).left turns := by
  rw [left_advance, left_advance, left_advance]
  by_cases h : window.plan.interval ≤ Time.elapsed window.start s
  · have early := segments_le_turnsAt h
    have late := window.turnsAt_mono ht
    rw [left_eq_zero (by omega), left_eq_zero (by omega)]
  · rw [← Nat.add_assoc, turnsAt_advance_of_lt hs ht (Nat.not_le.mp h)]

/-! ## Windows that agree -/

/-- Whoever looks at `now` or later finds the same counted in both windows, and sees the same counts
be turned out. The two need not turn at the same instants. -/
structure Agrees (now : Int) (first second : Window) : Prop where
  plan_eq : first.plan = second.plan
  left_eq : ∀ later, now ≤ later → ∀ turns,
    (first.advance later).left turns = (second.advance later).left turns

theorem Agrees.refl (now : Int) (window : Window) : window.Agrees now window :=
  ⟨rfl, fun _ _ _ => rfl⟩

theorem Agrees.symm {now : Int} {first second : Window} (h : first.Agrees now second) :
    second.Agrees now first :=
  ⟨h.plan_eq.symm, fun later hlater turns => (h.left_eq later hlater turns).symm⟩

theorem Agrees.trans {now : Int} {first second third : Window} (h : first.Agrees now second)
    (h' : second.Agrees now third) : first.Agrees now third :=
  ⟨h.plan_eq.trans h'.plan_eq,
    fun later hlater turns => (h.left_eq later hlater turns).trans (h'.left_eq later hlater turns)⟩

theorem Agrees.later {now later : Int} {first second : Window} (h : first.Agrees now second)
    (hlater : now ≤ later) : first.Agrees later second :=
  ⟨h.plan_eq, fun instant hinstant => h.left_eq instant (Int.le_trans hlater hinstant)⟩

theorem agrees_advance {window : Window} {now : Int} (h : window.start ≤ now) :
    (window.advance now).Agrees now window :=
  ⟨plan_advance window now, fun _ hlater => left_advance_advance h hlater⟩

theorem Agrees.total_eq {now later : Int} {first second : Window} (h : first.Agrees now second)
    (hlater : now ≤ later) : (first.advance later).total = (second.advance later).total :=
  h.left_eq later hlater 0

theorem Agrees.available_eq {now later : Int} {first second : Window} (h : first.Agrees now second)
    (hlater : now ≤ later) : (first.advance later).available = (second.advance later).available := by
  rw [available, available, h.total_eq hlater, plan_advance, plan_advance, h.plan_eq]

/-! ## Windows on different grids -/

/-- Counts are determined by what is left of them. -/
theorem eq_of_sum_drop {first second : List Nat} (hlength : first.length = second.length)
    (h : ∀ turns, (first.drop turns).sum = (second.drop turns).sum) : first = second := by
  induction first generalizing second with
  | nil => exact (List.eq_nil_of_length_eq_zero hlength.symm).symm
  | cons count first ih =>
    cases second with
    | nil => cases hlength
    | cons other second =>
      have hrest : first = second := ih (Nat.succ.inj hlength) fun turns => h (turns + 1)
      have hsum := h 0
      simp only [List.drop_zero, List.sum_cons, hrest] at hsum
      rw [hrest, Nat.add_right_cancel hsum]

/-- Windows that agree are the same when they are looked at, if their newest segments start at the
same instant. -/
theorem Agrees.advance_eq {now : Int} {first second : Window} (h : first.Agrees now second)
    (hstart : (first.advance now).start = (second.advance now).start) :
    first.advance now = second.advance now := by
  have hplan : (first.advance now).plan = (second.advance now).plan := by
    rw [plan_advance, plan_advance, h.plan_eq]
  refine eq_of_counts_of_start hplan ?_ hstart
  refine eq_of_sum_drop ?_ (h.left_eq now (Int.le_refl now))
  rw [length_counts, length_counts, hplan]

/-- A window that counts something is turned at some time so that it counts less. -/
theorem exists_left_succ_lt {window : Window} (hpos : 0 < window.total) :
    ∃ turns, window.left (turns + 1) < window.left turns := by
  by_contra hnone
  have hmono : Monotone window.left := monotone_nat_of_le_succ fun turns =>
    Nat.le_of_not_lt fun hlt => hnone ⟨turns, hlt⟩
  have hall := hmono (Nat.zero_le window.plan.segments)
  rw [left_eq_zero (Nat.le_refl _), ← total_eq_left] at hall
  omega

/-- **Windows on different grids are told apart.** Where two windows count the same but the newest
segment of the second one starts later, there is an instant at which only the first one has been
turned. -/
theorem exists_total_advance_lt {first second : Window} (hplan : first.plan = second.plan)
    (hleft : ∀ turns, first.left turns = second.left turns) (hstart : first.start < second.start)
    (hgrid : second.start < first.start + first.plan.width) (hpos : 0 < first.total) :
    ∃ later, first.start + first.plan.width ≤ later ∧
      (first.advance later).total < (second.advance later).total := by
  obtain ⟨turns, hless⟩ := exists_left_succ_lt hpos
  have hmul : (turns + 1) * first.plan.width = turns * first.plan.width + first.plan.width :=
    Nat.succ_mul turns first.plan.width
  refine ⟨first.start + ((turns + 1) * first.plan.width : Nat), by omega, ?_⟩
  have hfirst := first.turnsAt_start_add (turns + 1)
  have hsecond : second.turnsAt (first.start + ((turns + 1) * first.plan.width : Nat)) = turns := by
    rw [turnsAt, Time.elapsed, ← hplan]
    refine Nat.div_eq_of_lt_le ?_ ?_
    · omega
    · omega
  rw [total_advance, total_advance, hfirst, hsecond, ← hleft]
  exact hless

/-! ## Recording -/

/-- While nothing overflows, the newest count gains the units, and so does every sum it is part
of. -/
theorem sum_drop_addNewest (units : Nat) (counts : List Nat) (turns : Nat)
    (ht : turns < counts.length) (hc : counts.sum + units ≤ Count.largest) :
    ((addNewest units counts).drop turns).sum = (counts.drop turns).sum + units := by
  fun_induction addNewest units counts generalizing turns with
  | case1 => simp at ht
  | case2 newest =>
    have hzero : turns = 0 := by simpa using ht
    have hfit : newest + units ≤ Count.largest := by simpa using hc
    subst hzero
    simp [Count.add_eq_of_le hfit]
  | case3 count rest hrest ih =>
    rw [List.sum_cons] at hc
    cases turns with
    | zero =>
      have hpos : 0 < rest.length := List.length_pos_iff.mpr fun he => hrest he
      have := ih 0 hpos (by omega)
      simp only [List.drop_zero] at this
      simp only [List.drop_zero, List.sum_cons, this]
      omega
    | succ turns =>
      rw [List.length_cons] at ht
      simpa using ih turns (by omega) (by omega)

/-- **Recording adds to what is left** until the newest segment is turned out. -/
theorem left_record {window : Window} {units : Nat}
    (h : window.total + units ≤ Count.largest) (turns : Nat) :
    (window.record units).left turns =
      window.left turns + if turns < window.plan.segments then units else 0 := by
  by_cases ht : turns < window.plan.segments
  · rw [if_pos ht, ← window.length_counts] at *
    exact sum_drop_addNewest units window.counts turns ht h
  · have hplan : (window.record units).plan.segments ≤ turns := Nat.not_lt.mp ht
    rw [if_neg ht, left_eq_zero hplan, left_eq_zero (Nat.not_lt.mp ht)]

theorem total_record {window : Window} {units : Nat}
    (h : window.total + units ≤ Count.largest) :
    (window.record units).total = window.total + units := by
  have hpos : 0 < window.plan.segments := Nat.lt_of_lt_of_le Nat.two_pos window.plan.two_le_segments
  rw [total_eq_left, left_record h, if_pos hpos, total_eq_left]

section Newest

variable (window : Window)

/-- There are two segments at least, and one of them is the newest. -/
theorem exists_newest : ∃ older newest, window.counts = older ++ [newest] := by
  rcases List.eq_nil_or_concat' window.counts with hnil | ⟨older, newest, hcounts⟩
  · have htwo := window.plan.two_le_segments
    have hlength := window.length_counts
    rw [hnil, List.length_nil] at hlength
    omega
  · exact ⟨older, newest, hcounts⟩

theorem addNewest_append (units newest : Nat) (older : List Nat) :
    addNewest units (older ++ [newest]) = older ++ [Count.add newest units] := by
  induction older with
  | nil => rfl
  | cons count older ih =>
    rw [List.cons_append, addNewest.eq_3 _ _ _ (by simp), ih]
    rfl

variable {window}

/-- **What is recorded goes into the newest segment**, and the others stay as they are. -/
theorem counts_record {older : List Nat} {newest units : Nat}
    (hcounts : window.counts = older ++ [newest])
    (hfits : window.total + units ≤ Count.largest) :
    (window.record units).counts = older ++ [newest + units] := by
  have htotal : newest ≤ window.total := by
    rw [total_eq_left, left, List.drop_zero, hcounts, List.sum_append, List.sum_singleton]
    omega
  have hadd : Count.add newest units = newest + units := Count.add_eq_of_le (by omega)
  change addNewest units window.counts = _
  rw [hcounts, addNewest_append, hadd]

end Newest

end Window

end Throttle
