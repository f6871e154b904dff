import Throttle.Proofs.Limiter.Reset

/-!
# Permits that are used at one instant

Many holders may come with their permits at the same time. Their uses are served one after the other,
in an order that nobody has chosen, and the clock shows the same reading at all of them. Whoever still
fits when his turn comes is let through. So no more is let through than there was room for, and of
those who were refused nobody would fit in the room that is left in the end. Which permits are let
through depends on the order, and how many units they have does if the permits are of different
sizes.

## Main definitions

* `Desk.rush` — the uses of some permits, one after the other at one reading.
* `Packs` — some of the permits fit in the room together, and no other one fits in beside them.

## Main statements

* `Desk.room_serve_use` — what a use takes from the room.
* `Packs.length_eq` — how many permits of one size fit in.
* `Desk.packs_rush` — what comes of a rush, in whatever order.
-/

namespace Throttle

namespace Window

/-- Looking at a window again at the same reading changes nothing, also when something was recorded
meanwhile. -/
theorem advance_of_start_eq {window after : Window} {now : Int} (hplan : after.plan = window.plan)
    (hstart : after.start = (window.advance now).start) : after.advance now = after := by
  have hend := window.lt_start_advance_add_width now
  refine advance_eq_self ?_
  rw [hstart, hplan]
  exact hend

/-- A window that has been turned once stays as it is at the same reading. -/
theorem advance_advance_self (window : Window) (now : Int) :
    (window.advance now).advance now = window.advance now :=
  advance_of_start_eq (plan_advance window now) rfl

/-- Recording takes from the room. -/
theorem available_record {window : Window} {units : Nat}
    (h : window.total + units ≤ Count.largest) :
    (window.record units).available = window.available - units := by
  rw [available, available, total_record h, plan_record]
  omega

end Window

/-! ## Packing -/

/-- Of some numbered things, those in `taken` fit in the room together, and no other one fits in the
room that they leave. -/
structure Packs (room : Nat) (units : Nat → Nat) (numbers taken : List Nat) : Prop where
  sublist : taken.Sublist numbers
  fits : (taken.map units).sum ≤ room
  maximal : ∀ number ∈ numbers, number ∉ taken → room - (taken.map units).sum < units number

namespace Packs

variable {room number : Nat} {units : Nat → Nat} {numbers taken : List Nat}

/-- The first one fits in, and the others have the room that it leaves. -/
theorem take (hfits : units number ≤ room)
    (h : Packs (room - units number) units numbers taken) :
    Packs room units (number :: numbers) (number :: taken) where
  sublist := h.sublist.cons_cons number
  fits := by
    have hrest := h.fits
    rw [List.map_cons, List.sum_cons]
    omega
  maximal other hother hnot := by
    obtain ⟨hne, hrest⟩ := List.ne_and_not_mem_of_not_mem_cons hnot
    have hlarge := h.maximal other ((List.mem_cons.mp hother).resolve_left hne) hrest
    rw [List.map_cons, List.sum_cons]
    omega

/-- The first one does not fit in, and the others have all of the room. -/
theorem skip (hlarge : room < units number) (h : Packs room units numbers taken) :
    Packs room units (number :: numbers) taken where
  sublist := h.sublist.cons number
  fits := h.fits
  maximal other hother hnot := by
    rcases List.mem_cons.mp hother with rfl | hother
    · omega
    · exact h.maximal other hother hnot

/-- **How many things of one size fit in**: all of them, or as many as the room is a multiple of the
size. -/
theorem length_eq (h : Packs room units numbers taken) (hnodup : numbers.Nodup) {size : Nat}
    (hpos : 0 < size) (hsize : ∀ number ∈ numbers, units number = size) :
    taken.length = min numbers.length (room / size) := by
  have hsum : (taken.map units).sum = taken.length * size := by
    rw [List.map_congr_left fun number hn => hsize number (h.sublist.subset hn), List.map_const',
      List.sum_replicate_nat]
  have hmost : taken.length ≤ numbers.length := h.sublist.length_le
  have hfits : taken.length ≤ room / size := by
    rw [Nat.le_div_iff_mul_le hpos, ← hsum]
    exact h.fits
  by_cases hall : numbers ⊆ taken
  · have hevery : numbers.length ≤ taken.length := (hnodup.subperm hall).length_le
    omega
  · -- Something of this size was left over, so there is no room for one more.
    obtain ⟨number, hnumber⟩ := not_forall.mp hall
    obtain ⟨hmem, hnot⟩ := Classical.not_imp.mp hnumber
    have hless := h.maximal number hmem hnot
    rw [hsum, hsize number hmem] at hless
    have hnext : room / size < taken.length + 1 := by
      rw [Nat.div_lt_iff_lt_mul hpos, Nat.succ_mul]
      omega
    omega

end Packs

namespace Desk

/-- The room that there is at a reading. -/
def room (desk : Desk) (now : Int) : Nat := (desk.limiter.window.advance now).available

/-- The uses of some permits, one after the other at the reading `now`. -/
def rush (now : Int) (numbers : List Nat) : List (Int × Call) :=
  numbers.map fun number => (now, .use number)

/-! ## One use -/

theorem serve_available (desk : Desk) (now : Int) :
    (desk.serve now (.available none)).2 = .room (desk.room now) := rfl

/-- **What a use takes from the room**: the units of the permit, if they fit in. -/
theorem room_serve_use {desk : Desk} (hlimit : desk.limiter.window.WithinLimit) {number units : Nat}
    (hpermit : desk.permits[number]? = some ⟨units, false⟩) (now : Int) :
    (desk.serve now (.use number)).1.room now =
      desk.room now - if units ≤ desk.room now then units else 0 := by
  rw [serve, hpermit]
  rcases desk.limiter.use_cases ⟨units, false⟩ now with
    ⟨hused, -⟩ | ⟨-, hroom, huse⟩ | ⟨-, hroom, huse⟩
  · cases hused
  · have hno : ¬units ≤ desk.room now := Nat.not_le.mpr hroom
    rw [if_neg hno, Nat.sub_zero]
    simp only [huse, room]
    exact congrArg Window.available (desk.limiter.window.advance_advance_self now)
  · have hyes : units ≤ desk.room now := hroom
    have hsame : ((desk.limiter.window.advance now).record units).advance now =
        (desk.limiter.window.advance now).record units :=
      Window.advance_of_start_eq (Window.plan_advance ..) rfl
    rw [if_pos hyes]
    simp only [huse, room]
    rw [hsame, Window.available_record ((hlimit.advance now).fits_count hroom)]

/-- A use leaves the other permits alone. -/
theorem permits_serve_use_of_ne (desk : Desk) (now : Int) {number other : Nat}
    (hne : other ≠ number) :
    (desk.serve now (.use number)).1.permits[other]? = desk.permits[other]? := by
  rw [serve]
  split
  · rfl
  · exact List.getElem?_set_ne hne.symm

/-! ## A rush -/

@[simp] theorem rush_cons (now : Int) (number : Nat) (numbers : List Nat) :
    rush now (number :: numbers) = (now, .use number) :: rush now numbers := rfl

/-- Whoever fits when his turn comes is let through, and the rest of the rush finds the room that he
leaves. -/
theorem exists_packs {desk : Desk} (hlimit : desk.limiter.window.WithinLimit) (now : Int)
    (units : Nat → Nat) {numbers : List Nat} (hnodup : numbers.Nodup)
    (hunused : ∀ number ∈ numbers, desk.permits[number]? = some ⟨units number, false⟩) :
    ∃ taken, Packs (desk.room now) units numbers taken ∧
      (desk.run (rush now numbers)).2 = numbers.map (fun number =>
        (now, .used (units number) (if number ∈ taken then none else some .noRoom))) ∧
      (desk.run (rush now numbers)).1.room now = desk.room now - (taken.map units).sum := by
  induction numbers generalizing desk with
  | nil => exact ⟨[], ⟨.slnil, Nat.zero_le _, by simp⟩, rfl, rfl⟩
  | cons number numbers ih =>
    obtain ⟨hnew, hrest⟩ := List.nodup_cons.mp hnodup
    have hpermit := hunused number List.mem_cons_self
    have hothers : ∀ other ∈ numbers, (desk.serve now (.use number)).1.permits[other]? =
        some ⟨units other, false⟩ := by
      intro other hother
      have hne : other ≠ number := ne_of_mem_of_not_mem hother hnew
      rw [permits_serve_use_of_ne desk now hne]
      exact hunused other (List.mem_cons_of_mem number hother)
    obtain ⟨taken, hpacks, hanswers, hleft⟩ :=
      ih (hlimit.move (desk.move_serve now (.use number))) hrest hothers
    have hnot : number ∉ taken := fun hmem => hnew (hpacks.sublist.subset hmem)
    have hanswer : (desk.serve now (.use number)).2 =
        .used (units number) (if units number ≤ desk.room now then none else some .noRoom) :=
      serve_use_eq hpermit now
    have hroom := room_serve_use hlimit hpermit now
    rw [rush_cons, run_cons]
    by_cases hfits : units number ≤ desk.room now
    · rw [if_pos hfits] at hanswer hroom
      rw [hroom] at hpacks hleft
      refine ⟨number :: taken, hpacks.take hfits, ?_, ?_⟩
      · rw [List.map_cons, if_pos List.mem_cons_self, ← hanswer, hanswers]
        refine congrArg _ (List.map_congr_left fun other hother => ?_)
        have hne : other ≠ number := ne_of_mem_of_not_mem hother hnew
        simp only [List.mem_cons, hne, false_or]
      · rw [hleft, List.map_cons, List.sum_cons, Nat.sub_sub]
    · rw [if_neg hfits] at hanswer hroom
      rw [Nat.sub_zero] at hroom
      rw [hroom] at hpacks hleft
      refine ⟨taken, hpacks.skip (Nat.not_le.mp hfits), ?_, hleft⟩
      rw [List.map_cons, if_neg hnot, ← hanswer, hanswers]

/-! ## Runs -/

theorem withinLimit_run {desk : Desk} (h : desk.limiter.window.WithinLimit)
    (calls : List (Int × Call)) : (desk.run calls).1.limiter.window.WithinLimit := by
  induction calls generalizing desk with
  | nil => exact h
  | cons event calls ih => exact ih (h.move (desk.move_serve event.1 event.2))

/-- Every permit is for at least one unit. -/
theorem units_pos_run {desk : Desk} (h : ∀ permit ∈ desk.permits, 0 < permit.units)
    (calls : List (Int × Call)) : ∀ permit ∈ (desk.run calls).1.permits, 0 < permit.units := by
  apply forall_permits_run
  · intro units hpos _
    exact hpos
  · exact h

/-- **What comes of a rush.** Whatever was done at a desk before, and whichever way its clock went:
if some permits that have not been used yet are used one after the other at the same reading, then
those that are let through fit in the room that there was, what they leave is the room that there is
afterwards, and each of the others is refused and has more units than that. So if all permits are of
one size, their number is determined: it is the same in every order. -/
theorem packs_rush (policy : Policy) (opened now : Int) (history : List (Int × Call))
    (units : Nat → Nat) (numbers : List Nat) (hnodup : numbers.Nodup)
    (hunused : ∀ number ∈ numbers, ((opening policy opened).run history).1.permits[number]? =
      some ⟨units number, false⟩) :
    let desk := ((opening policy opened).run history).1
    let served := desk.run (rush now numbers)
    ∃ (room : Nat) (taken : List Nat),
      (desk.serve now (.available none)).2 = .room room ∧
      Packs room units numbers taken ∧
      served.2 = numbers.map (fun number =>
        (now, .used (units number) (if number ∈ taken then none else some .noRoom))) ∧
      (served.1.serve now (.available none)).2 = .room (room - (taken.map units).sum) ∧
      (∀ size, (∀ number ∈ numbers, units number = size) →
        taken.length = min numbers.length (room / size)) ∧
      ((∀ number ∈ numbers, units number = 1) → taken.length = min room numbers.length) := by
  intro desk served
  have hlimit : desk.limiter.window.WithinLimit :=
    withinLimit_run (policy.withinLimit_make opened) history
  have hpos : ∀ number ∈ numbers, 0 < units number := fun number hnumber =>
    units_pos_run (by simp [opening]) history _ (List.mem_of_getElem? (hunused number hnumber))
  obtain ⟨taken, hpacks, hanswers, hleft⟩ := exists_packs hlimit now units hnodup hunused
  have hcount : ∀ size, (∀ number ∈ numbers, units number = size) →
      taken.length = min numbers.length (desk.room now / size) := by
    intro size hsize
    cases numbers with
    | nil => simpa using hpacks.sublist.length_le
    | cons number others =>
      have hsome : 0 < size := hsize number List.mem_cons_self ▸ hpos number List.mem_cons_self
      exact hpacks.length_eq hnodup hsome hsize
  refine ⟨desk.room now, taken, rfl, hpacks, hanswers, ?_, hcount, fun hsingle => ?_⟩
  · rw [serve_available, hleft]
  · rw [hcount 1 hsingle, Nat.div_one, Nat.min_comm]

/-- The clock has gone back since a unit was let through at 8. Of permits for 3, 5, 2 and 4 units the
first and the third are let through, and the others are larger than the one unit that is left. In
another order those for 4 and 2 units are let through, and nothing is left. -/
theorem packs_rush_mixed_sizes :
    let history : List (Int × Call) :=
      [(8, .single), (8, .use 0), (3, .request 3), (3, .request 5), (3, .request 2), (3, .request 4)]
    let desk := ((opening .sevenInTen 0).run history).1
    let units : Nat → Nat := fun number => [1, 3, 5, 2, 4].getD number 0
    (∃ taken, (desk.run (rush 3 [1, 2, 3, 4])).2 = [(3, .used 3 none), (3, .used 5 (some .noRoom)),
        (3, .used 2 none), (3, .used 4 (some .noRoom))] ∧ Packs 6 units [1, 2, 3, 4] taken) ∧
      (∃ taken, (desk.run (rush 3 [4, 3, 1, 2])).2 = [(3, .used 4 none), (3, .used 2 none),
        (3, .used 3 (some .noRoom)), (3, .used 5 (some .noRoom))] ∧
        Packs 6 units [4, 3, 1, 2] taken) := by
  intro history desk units
  have hsix : (desk.serve 3 (.available none)).2 = .room 6 := by decide +kernel
  constructor
  · obtain ⟨room, taken, hroom, hpacks, -⟩ :=
      packs_rush .sevenInTen 0 3 history units [1, 2, 3, 4] (by decide) (by decide +kernel)
    obtain rfl := Answer.room.inj (hroom.symm.trans hsix)
    exact ⟨taken, by decide +kernel, hpacks⟩
  · obtain ⟨room, taken, hroom, hpacks, -⟩ :=
      packs_rush .sevenInTen 0 3 history units [4, 3, 1, 2] (by decide) (by decide +kernel)
    obtain rfl := Answer.room.inj (hroom.symm.trans hsix)
    exact ⟨taken, by decide +kernel, hpacks⟩

end Desk

end Throttle
