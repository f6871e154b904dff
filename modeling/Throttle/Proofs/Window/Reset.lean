import Throttle.Proofs.Window.Account

/-!
# When there is room again

`Window.resetsAt` adds up counts from the oldest on until enough of them would be gone. Here the
instant it names is tied to what the window will really do: it is the first one at which there is
room.

## Main definitions

* `Window.excess` — what is counted beyond the limit.

## Main statements

* `resetsAt_le_iff` — from the instant named on, and not before, there is room.
* `resetsAt_advance_of_agree` — asked again later, a window that agrees names the same instant.
-/

namespace Throttle.Window

/-! ## Counting off the oldest segments -/

/-- What has been turned out and what is left make up the total. -/
theorem sum_take_add_left (window : Window) (turns : Nat) :
    (window.counts.take turns).sum + window.left turns = window.total :=
  List.sum_take_add_sum_drop window.counts turns

/-- The number of turns that is found is the least one that frees enough. -/
theorem turnsToFree_le_iff {need turns : Nat} {counts : List Nat} (hneed : 0 < need)
    (h : turnsToFree need counts = some turns) (other : Nat) :
    turns ≤ other ↔ need ≤ (counts.take other).sum := by
  induction counts generalizing need turns other with
  | nil => cases h
  | cons oldest rest ih =>
    rw [turnsToFree] at h
    by_cases hfirst : need ≤ oldest
    · rw [if_pos hfirst, Option.some.injEq] at h
      cases other with
      | zero => simp only [List.take_zero, List.sum_nil]; omega
      | succ other => simp only [List.take_succ_cons, List.sum_cons]; omega
    · rw [if_neg hfirst, Option.map_eq_some_iff] at h
      obtain ⟨later, hlater, rfl⟩ := h
      cases other with
      | zero => simp only [List.take_zero, List.sum_nil]; omega
      | succ other =>
        have hrest := ih (by omega) hlater other
        simp only [List.take_succ_cons, List.sum_cons]
        omega

theorem exists_turnsToFree {need : Nat} {counts : List Nat} (hneed : 0 < need)
    (h : need ≤ counts.sum) : ∃ turns, turnsToFree need counts = some turns := by
  induction counts generalizing need with
  | nil => simp at h; omega
  | cons oldest rest ih =>
    rw [turnsToFree]
    by_cases hfirst : need ≤ oldest
    · exact ⟨1, if_pos hfirst⟩
    · rw [List.sum_cons] at h
      have hless := Nat.not_le.mp hfirst
      obtain ⟨turns, hturns⟩ := ih (Nat.sub_pos_of_lt hless) (Nat.sub_le_iff_le_add'.mpr h)
      exact ⟨turns + 1, by rw [if_neg hfirst, hturns]; rfl⟩

/-! ## The instant of the reset -/

theorem resetsAt_of_room {window : Window} {units : Nat} (h : units ≤ window.available)
    (now : Int) : window.resetsAt now units = now := if_pos h

/-- What is counted beyond the limit. -/
def excess (window : Window) : Nat := window.total - window.plan.limit

theorem WithinLimit.excess_eq {window : Window} (h : window.WithinLimit) : window.excess = 0 :=
  Nat.sub_eq_zero_of_le h

/-- Turns free more and more. -/
theorem sum_take_mono (window : Window) {fewer more : Nat} (h : fewer ≤ more) :
    (window.counts.take fewer).sum ≤ (window.counts.take more).sum := by
  have hfewer := window.sum_take_add_left fewer
  have hmore := window.sum_take_add_left more
  have hleft := window.left_antitone h
  omega

/-- There is room for some units at `later` once enough turns have come to free what is missing, and
what is counted beyond the limit. -/
theorem le_available_advance_iff {window : Window} {units : Nat}
    (hroom : window.available < units) (later : Int) :
    units ≤ (window.advance later).available ↔
      units - window.available + window.excess ≤
        (window.counts.take (window.turnsAt later)).sum := by
  have hsum := window.sum_take_add_left (window.turnsAt later)
  simp only [available, excess, total_advance, plan_advance] at hroom ⊢
  omega

/-- Where there is too little room, the reset is the start of some later segment. -/
theorem exists_resetsAt_eq {window : Window} {now : Int} (hstart : window.start ≤ now)
    (hend : now < window.start + window.plan.width) {units : Nat}
    (hunits : units ≤ window.plan.limit) (hroom : window.available < units) :
    ∃ turns, 0 < turns ∧
      window.resetsAt now units = window.start + (turns * window.plan.width : Nat) ∧
      ∀ other, turns ≤ other ↔ units - window.available ≤ (window.counts.take other).sum := by
  have hneed : 0 < units - window.available := Nat.sub_pos_of_lt hroom
  have htotal : units - window.available ≤ window.counts.sum := by
    change _ ≤ window.total
    simp only [available] at hroom ⊢
    omega
  obtain ⟨turns, hturns⟩ := exists_turnsToFree hneed htotal
  have hiff := turnsToFree_le_iff hneed hturns
  have hpos : 0 < turns := by
    by_contra hzero
    have := (hiff 0).mp (Nat.not_lt.mp hzero)
    simp only [List.take_zero, List.sum_nil] at this
    omega
  refine ⟨turns, hpos, ?_, hiff⟩
  have hwidth := Nat.mul_le_mul_right window.plan.width hpos
  have hcomm := Nat.mul_comm window.plan.width turns
  rw [resetsAt, if_neg (Nat.not_le.mpr hroom)]
  simp only [hturns, Time.elapsed]
  omega

theorem le_resetsAt (window : Window) (now : Int) (units : Nat) :
    now ≤ window.resetsAt now units := by
  by_cases h : units ≤ window.available
  · rw [resetsAt_of_room h]
  · rw [resetsAt, if_neg h]
    dsimp only
    split <;> omega

/-- **From the instant named on, and not before, there is room**, as long as nothing is recorded. -/
theorem resetsAt_le_iff {window : Window} (hlimit : window.WithinLimit) {now : Int}
    (hstart : window.start ≤ now) (hend : now < window.start + window.plan.width) {units : Nat}
    (hunits : units ≤ window.plan.limit) {later : Int} (hlater : now ≤ later) :
    window.resetsAt now units ≤ later ↔ units ≤ (window.advance later).available := by
  by_cases hroom : units ≤ window.available
  · have hgrow : window.available ≤ (window.advance later).available := by
      rw [available, available, total_advance, plan_advance, total_eq_left]
      exact Nat.sub_le_sub_left (window.left_antitone (Nat.zero_le _)) _
    rw [resetsAt_of_room hroom]
    exact iff_of_true hlater (Nat.le_trans hroom hgrow)
  · have hless := Nat.not_le.mp hroom
    obtain ⟨turns, -, heq, hiff⟩ := exists_resetsAt_eq hstart hend hunits hless
    rw [heq, le_available_advance_iff hless, hlimit.excess_eq, Nat.add_zero, ← hiff,
      le_turnsAt_iff (Int.le_trans hstart hlater)]

/-- The same of a window that is looked at when the question is asked. -/
theorem resetsAt_advance_le_iff {window : Window} (hlimit : window.WithinLimit) {now later : Int}
    (hstart : window.start ≤ now) (hlater : now ≤ later) {units : Nat}
    (hunits : units ≤ window.plan.limit) :
    (window.advance now).resetsAt now units ≤ later ↔ units ≤ (window.advance later).available := by
  have hend := window.lt_start_advance_add_width now
  rw [← plan_advance window now] at hunits hend
  rw [resetsAt_le_iff (hlimit.advance now) (start_advance_le hstart) hend hunits hlater,
    (agrees_advance hstart).available_eq hlater]

/-- The room grows as long as nothing is recorded. -/
theorem available_advance_mono (window : Window) {s t : Int} (h : s ≤ t) :
    (window.advance s).available ≤ (window.advance t).available := by
  have hless := window.left_antitone (window.turnsAt_mono h)
  rw [← total_advance, ← total_advance] at hless
  rw [available, available, plan_advance, plan_advance]
  exact Nat.sub_le_sub_left hless _

/-- Nobody has to wait for longer than an interval. -/
theorem resetsAt_advance_le_add_interval {window : Window} (hlimit : window.WithinLimit) {now : Int}
    (hstart : window.start ≤ now) {units : Nat} (hunits : units ≤ window.plan.limit) :
    (window.advance now).resetsAt now units ≤ now + window.plan.interval := by
  have hlater : now ≤ now + window.plan.interval := by omega
  have hwhole : window.plan.interval ≤ Time.elapsed window.start (now + window.plan.interval) := by
    simp only [Time.elapsed]
    omega
  rw [resetsAt_advance_le_iff hlimit hstart hlater hunits, advance_of_le hwhole, available,
    total_eq_left, left_fresh]
  exact hunits

/-- **The instant named does not drift**: who asks later, while the windows agree, is told the same
instant, or that there is room already. -/
theorem resetsAt_advance_of_agree {first second : Window} {now later : Int} {units : Nat}
    (hagree : first.Agrees later second) (hfirst : first.WithinLimit) (hsecond : second.WithinLimit)
    (hnow : first.start ≤ now) (hlater : now ≤ later) (hstart : second.start ≤ later)
    (hunits : units ≤ first.plan.limit) :
    (second.advance later).resetsAt later units =
      max later ((first.advance now).resetsAt now units) := by
  have hsame : ∀ instant, later ≤ instant →
      ((second.advance later).resetsAt later units ≤ instant ↔
        (first.advance now).resetsAt now units ≤ instant) := by
    intro instant hinstant
    rw [resetsAt_advance_le_iff hsecond hstart hinstant (hagree.plan_eq ▸ hunits),
      resetsAt_advance_le_iff hfirst hnow (Int.le_trans hlater hinstant) hunits,
      hagree.available_eq hinstant]
  -- Both are the first instant from `later` on at which the same holds.
  have hle := le_resetsAt (second.advance later) later units
  have hto := (hsame _ hle).mp (Int.le_refl _)
  have hfrom := (hsame _ (Int.le_max_left later _)).mpr (Int.le_max_right later _)
  omega

/-- Windows that agree name the same instant. -/
theorem Agrees.resetsAt_eq {first second : Window} {now : Int} {units : Nat}
    (hagree : first.Agrees now second) (hfirst : first.WithinLimit) (hsecond : second.WithinLimit)
    (hnow : first.start ≤ now) (hstart : second.start ≤ now) (hunits : units ≤ first.plan.limit) :
    (second.advance now).resetsAt now units = (first.advance now).resetsAt now units := by
  rw [resetsAt_advance_of_agree hagree hfirst hsecond hnow (Int.le_refl now) hstart hunits]
  exact Int.max_eq_right (le_resetsAt ..)

end Throttle.Window
