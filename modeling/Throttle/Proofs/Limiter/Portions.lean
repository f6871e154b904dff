import Throttle.Proofs.Limiter.Queries
import Throttle.Proofs.Limiter.Views
import Throttle.Proofs.Window.Filling

/-!
# Units in one portion or in several

Whoever needs some units can use one permit for all of them, or several permits for a part of them each,
one after the other at the same reading. If there is room for all of the units it makes no difference:
everything is let through, and the same window is left behind. If there is not, the one permit is refused
as a whole, while permits for single units are let through until the room is used up.

## Main definitions

* `Desk.drawn` — the sizes of the permits that some calls use.
* `Desk.inTurn` — the answers to uses of permits of some sizes, as long as there is room.

## Main statements

* `Desk.run_of_drawn` — what comes of the calls depends on the room and on the sizes only.
* `Desk.portions_agree` — a permit for some units against single units, and against any portions.
-/

namespace Throttle

namespace Window

/-- Recording nothing leaves the window as it was. -/
theorem record_zero {window : Window} (h : window.WithinLimit) : window.record 0 = window := by
  have hfits : window.counts.sum + 0 ≤ Count.largest := h.trans window.plan.limit_le
  have hlength : (window.record 0).counts.length = window.counts.length := length_addNewest _ _
  refine eq_of_counts_of_start rfl (eq_of_sum_drop hlength fun turns => ?_) rfl
  by_cases hturns : turns < window.counts.length
  · exact sum_drop_addNewest 0 window.counts turns hturns hfits
  · rw [List.drop_eq_nil_of_le (by omega), List.drop_eq_nil_of_le (by omega)]

end Window

/-! ## Sizes in turn -/

/-- How many units are let through if permits of some sizes are used one after the other: each one that
still fits in the room. -/
def fitting (room : Nat) : List Nat → Nat
  | [] => 0
  | size :: sizes =>
    if size ≤ room then size + fitting (room - size) sizes else fitting room sizes

/-- Whatever fits in together is let through. -/
theorem fitting_of_sum_le {room : Nat} {sizes : List Nat} (h : sizes.sum ≤ room) :
    fitting room sizes = sizes.sum := by
  induction sizes generalizing room with
  | nil => rfl
  | cons size sizes ih =>
    rw [List.sum_cons] at h ⊢
    rw [fitting, if_pos (by omega), ih (by omega)]

namespace Desk

/-- The answers to uses of permits of some sizes, one after the other at the reading `now`. -/
def inTurn (now : Int) (room : Nat) : List Nat → List (Int × Answer)
  | [] => []
  | size :: sizes =>
    if size ≤ room then (now, .used size none) :: inTurn now (room - size) sizes
    else (now, .used size (some .noRoom)) :: inTurn now room sizes

theorem inTurn_of_sum_le {now : Int} {room : Nat} {sizes : List Nat} (h : sizes.sum ≤ room) :
    inTurn now room sizes = sizes.map fun size => (now, .used size none) := by
  induction sizes generalizing room with
  | nil => rfl
  | cons size sizes ih =>
    rw [List.sum_cons] at h
    rw [inTurn, if_pos (by omega), ih (by omega), List.map_cons]

/-- Of single units as many are let through as there is room for, and these are the first ones. -/
theorem inTurn_singles (now : Int) (room more : Nat) :
    inTurn now room (List.replicate (room + more) 1) =
      List.replicate room (now, .used 1 none) ++
        List.replicate more (now, .used 1 (some .noRoom)) := by
  induction room with
  | zero =>
    induction more with
    | zero => rfl
    | succ more ih =>
      simp only [Nat.zero_add, List.replicate_zero, List.nil_append] at ih
      simp [List.replicate_succ, inTurn, ih]
  | succ room ih =>
    rw [Nat.succ_add, List.replicate_succ, inTurn, if_pos (by omega), Nat.add_sub_cancel, ih]
    rfl

/-! ## Calls at one reading -/

/-- The sizes of the permits that are used by some calls at the reading `now`, in the order of their use.
Permits that have not been used may be used, and further ones may be asked for; if a call does anything
else, there are no such sizes. -/
def drawn (now : Int) (desk : Desk) : List Call → Option (List Nat)
  | [] => some []
  | call :: calls =>
    let rest := drawn now (desk.serve now call).1 calls
    match call with
    | .single | .request _ => rest
    | .use number =>
      match desk.permits[number]? with
      | some ⟨units, false⟩ => rest.map (units :: ·)
      | _ => none
    | _ => none

theorem drawn_use {desk : Desk} {number units : Nat}
    (h : desk.permits[number]? = some ⟨units, false⟩) (now : Int) (calls : List Call) :
    drawn now desk (.use number :: calls) =
      (drawn now (desk.serve now (.use number)).1 calls).map (units :: ·) := by
  rw [drawn, h]

/-- A call with which permits are drawn asks for one, or uses one that has not been used. -/
theorem drawn_cons {now : Int} {desk : Desk} {call : Call} {calls : List Call} {sizes : List Nat}
    (h : drawn now desk (call :: calls) = some sizes) :
    ((call = .single ∨ ∃ units, call = .request units) ∧
      drawn now (desk.serve now call).1 calls = some sizes) ∨
    ∃ number units rest, call = .use number ∧ desk.permits[number]? = some ⟨units, false⟩ ∧
      sizes = units :: rest ∧ drawn now (desk.serve now call).1 calls = some rest := by
  cases call with
  | single => exact .inl ⟨.inl rfl, h⟩
  | request units => exact .inl ⟨.inr ⟨units, rfl⟩, h⟩
  | use number =>
    right
    rw [drawn] at h
    split at h
    · rename_i units hpermit
      obtain ⟨rest, hrest, rfl⟩ := Option.map_eq_some_iff.mp h
      exact ⟨number, units, rest, rfl, hpermit, rfl, hrest⟩
    · cases h
  | allows _ | resetsAt _ | retryAfter _ | available _ => cases h

/-- Asking for a permit leaves the window alone, and it is not answered as a use is. -/
theorem serve_of_asks {call : Call} (h : call = .single ∨ ∃ units, call = .request units)
    (desk : Desk) (now : Int) :
    (desk.serve now call).1.limiter = desk.limiter ∧ (desk.serve now call).2.isUse = false := by
  rcases h with rfl | ⟨units, rfl⟩
  · exact ⟨rfl, rfl⟩
  · rw [serve]
    split <;> exact ⟨rfl, rfl⟩

/-- **What comes of drawn permits** depends on the room and on their sizes only: those that fit in turn
are let through, and the window, turned to the reading, has their units recorded. -/
theorem run_of_drawn {desk : Desk} (hlimit : desk.limiter.window.WithinLimit) {now : Int}
    {calls : List Call} {sizes : List Nat} (h : drawn now desk calls = some sizes) :
    uses (desk.run (allAt now calls)).2 = inTurn now (desk.room now) sizes ∧
      (sizes ≠ [] → (desk.run (allAt now calls)).1.limiter.window =
        (desk.limiter.window.advance now).record (fitting (desk.room now) sizes)) ∧
      (sizes = [] → (desk.run (allAt now calls)).1.limiter.window = desk.limiter.window) := by
  induction calls generalizing desk sizes with
  | nil =>
    obtain rfl := Option.some.inj h
    exact ⟨rfl, fun hne => absurd rfl hne, fun _ => rfl⟩
  | cons call calls ih =>
    have hserved := hlimit.move (desk.move_serve now call)
    simp only [allAt, List.map_cons]
    rw [uses_run_cons, run_cons]
    rcases drawn_cons h with ⟨hasks, hrest⟩ | ⟨number, units, rest, rfl, hpermit, rfl, hrest⟩
    · obtain ⟨hsame, hnot⟩ := serve_of_asks hasks desk now
      obtain ⟨huses, hwindow⟩ := ih hserved hrest
      rw [room, hsame] at huses hwindow
      refine ⟨?_, hwindow⟩
      rw [← allAt, huses]
      simp [uses, hnot, room]
    · obtain ⟨huses, hsome, hnone⟩ := ih hserved hrest
      have hroom := room_serve_use hlimit hpermit now
      have hanswer : (desk.serve now (.use number)).2 =
          .used units (if units ≤ desk.room now then none else some .noRoom) :=
        serve_use_eq hpermit now
      have hturned := hlimit.advance now
      refine ⟨?_, fun _ => ?_, fun hempty => absurd hempty (List.cons_ne_nil _ _)⟩
      · rw [← allAt, huses, hanswer, hroom, inTurn]
        split <;> simp [uses, Answer.isUse]
      · -- The first use turns the window, so it is not turned any more by the others.
        rw [← allAt, fitting]
        by_cases hfits : units ≤ desk.room now
        · have hserve : (desk.serve now (.use number)).1.limiter.window =
              (desk.limiter.window.advance now).record units := by
            rw [serve_use_of_room hpermit hfits]
          have hstay : ((desk.limiter.window.advance now).record units).advance now =
              (desk.limiter.window.advance now).record units :=
            Window.advance_of_start_eq (Window.plan_advance ..) rfl
          rw [if_pos hfits] at hroom ⊢
          by_cases hlast : rest = []
          · rw [hnone hlast, hserve, hlast, fitting, Nat.add_zero]
          · rw [hsome hlast, hserve, hstay, hroom, Window.record_record]
        · have hserve : (desk.serve now (.use number)).1.limiter.window =
              desk.limiter.window.advance now := by
            rw [serve_use_of_no_room hpermit (Nat.not_le.mp hfits)]
            rfl
          rw [if_neg hfits, Nat.sub_zero] at hroom
          rw [if_neg hfits]
          by_cases hlast : rest = []
          · rw [hnone hlast, hserve, hlast, fitting, Window.record_zero hturned]
          · rw [hsome hlast, hserve, Window.advance_advance_self, hroom]

/-! ## New permits -/

/-- Ask for permits and use each one at once, where `next` permits have been issued before. -/
def oneByOne (next : Nat) : List Call → List Call
  | [] => []
  | ask :: asks => ask :: .use next :: oneByOne (next + 1) asks

/-- A call that issues a permit, and the use of this permit. -/
theorem drawn_issue {now : Int} {desk : Desk} {ask : Call} {units : Nat}
    (hasks : ask = .single ∨ ∃ units, ask = .request units)
    (hserve : (desk.serve now ask).1.permits = desk.permits ++ [⟨units, false⟩])
    (calls : List Call) :
    drawn now desk (ask :: .use desk.permits.length :: calls) =
      (drawn now ((desk.serve now ask).1.serve now (.use desk.permits.length)).1 calls).map
        (units :: ·) := by
  have hpermit : (desk.serve now ask).1.permits[desk.permits.length]? = some ⟨units, false⟩ := by
    rw [hserve]
    exact List.getElem?_concat_length
  rw [← drawn_use hpermit]
  rcases hasks with rfl | ⟨_, rfl⟩ <;> rfl

theorem length_permits_serve_use (desk : Desk) (now : Int) (number : Nat) :
    (desk.serve now (.use number)).1.permits.length = desk.permits.length := by
  rw [serve]
  split
  · rfl
  · exact List.length_set

/-- **Permits of any sizes can be had**, if none of them is larger than the limit. -/
theorem drawn_requests {now : Int} {desk : Desk} {sizes : List Nat}
    (h : ∀ size ∈ sizes, 0 < size ∧ size ≤ desk.limiter.limit) :
    drawn now desk (oneByOne desk.permits.length (sizes.map .request)) = some sizes := by
  induction sizes generalizing desk with
  | nil => rfl
  | cons size sizes ih =>
    obtain ⟨hpos, hle⟩ := h size List.mem_cons_self
    have hserve : (desk.serve now (.request size)).1.permits = desk.permits ++ [⟨size, false⟩] := by
      rw [serve, Limiter.request, if_neg (by omega), if_neg (by omega)]
    let served := ((desk.serve now (.request size)).1.serve now (.use desk.permits.length)).1
    have hlength : served.permits.length = desk.permits.length + 1 := by
      rw [length_permits_serve_use, hserve, List.length_append, List.length_singleton]
    have hlimit : served.limiter.limit = desk.limiter.limit := by
      rw [Limiter.limit, plan_serve, plan_serve, Limiter.limit]
    have hrest : drawn now served (oneByOne (desk.permits.length + 1) (sizes.map .request)) =
        some sizes := by
      rw [← hlength]
      apply ih
      rw [hlimit]
      exact fun other hother => h other (List.mem_cons_of_mem size hother)
    rw [List.map_cons, oneByOne, drawn_issue (.inr ⟨size, rfl⟩) hserve, hrest]
    rfl

/-- Permits for single units can always be had. -/
theorem drawn_singles (now : Int) (desk : Desk) (count : Nat) :
    drawn now desk (oneByOne desk.permits.length (List.replicate count .single)) =
      some (List.replicate count 1) := by
  induction count generalizing desk with
  | zero => rfl
  | succ count ih =>
    have hserve : (desk.serve now .single).1.permits = desk.permits ++ [⟨1, false⟩] := rfl
    let served := ((desk.serve now .single).1.serve now (.use desk.permits.length)).1
    have hlength : served.permits.length = desk.permits.length + 1 := by
      rw [length_permits_serve_use, hserve, List.length_append, List.length_singleton]
    have hrest := ih served
    rw [hlength] at hrest
    rw [List.replicate_succ, oneByOne, drawn_issue (.inl rfl) hserve, hrest]
    rfl

/-! ## One permit or several -/

/-- **A permit for some units does what permits for single units do, if there is room for all of them.**
Whatever was done at a desk before, and whichever way its clock went, permits for single units and for any
number of units up to the limit can be had. Let there be calls at one reading with which one permit for some
units is used, and calls with which as many permits for single units are used, whether they are asked for
in between or were issued before.

If there is room for the units, all of these permits are let through, and both windows are the same in the
end; so it is with permits for any other portions that make up the units. If there is less room, the one
permit is refused and the window is only turned to the reading; of the single units the first ones are let
through, as many as there is room for, and the others are refused. -/
theorem portions_agree (policy : Policy) (opened now : Int) (history : List (Int × Call)) :
    let desk := ((opening policy opened).run history).1
    let next := desk.permits.length
    let after (calls : List Call) : Window := (desk.run (allAt now calls)).1.limiter.window
    let told (calls : List Call) : List (Int × Answer) := uses (desk.run (allAt now calls)).2
    ∃ room, (desk.serve now (.available none)).2 = .room room ∧
      (∀ count, desk.drawn now (oneByOne next (List.replicate count .single)) =
        some (List.replicate count 1)) ∧
      (∀ sizes, (∀ size ∈ sizes, 0 < size ∧ size ≤ desk.limiter.limit) →
        desk.drawn now (oneByOne next (sizes.map .request)) = some sizes) ∧
      ∀ (units : Nat) (burst singles : List Call), 0 < units →
        desk.drawn now burst = some [units] →
        desk.drawn now singles = some (List.replicate units 1) →
        (units ≤ room →
          told burst = [(now, .used units none)] ∧
          told singles = List.replicate units (now, .used 1 none) ∧
          after burst = after singles ∧
          ∀ portions sizes, desk.drawn now portions = some sizes → sizes.sum = units →
            told portions = sizes.map (fun size => (now, .used size none)) ∧
              after portions = after burst) ∧
        (room < units →
          told burst = [(now, .used units (some .noRoom))] ∧
          after burst = desk.limiter.window.advance now ∧
          told singles = List.replicate room (now, .used 1 none) ++
            List.replicate (units - room) (now, .used 1 (some .noRoom))) := by
  intro desk next after told
  have hlimit : desk.limiter.window.WithinLimit :=
    withinLimit_run (policy.withinLimit_make opened) history
  -- Portions that fit in together, whatever they are.
  have hall : ∀ portions sizes, desk.drawn now portions = some sizes → 0 < sizes.sum →
      sizes.sum ≤ desk.room now →
      told portions = sizes.map (fun size => (now, .used size none)) ∧
        after portions = (desk.limiter.window.advance now).record sizes.sum := by
    intro portions sizes hdrawn hpos hfits
    obtain ⟨huses, hwindow, -⟩ := run_of_drawn hlimit hdrawn
    have hsome : sizes ≠ [] := by
      rintro rfl
      exact Nat.lt_irrefl 0 hpos
    exact ⟨huses.trans (inTurn_of_sum_le hfits),
      (hwindow hsome).trans (congrArg _ (fitting_of_sum_le hfits))⟩
  refine ⟨desk.room now, rfl, drawn_singles now desk, fun sizes hsizes => drawn_requests hsizes, ?_⟩
  intro units burst singles hpos hburst hsingles
  have hsum : (List.replicate units 1).sum = units := by simp
  constructor
  · intro hfits
    have hone : [units].sum = units := List.sum_singleton
    obtain ⟨htold, hafter⟩ := hall burst [units] hburst (by omega) (by omega)
    obtain ⟨htold', hafter'⟩ := hall singles _ hsingles (by omega) (by omega)
    refine ⟨htold, htold'.trans (by simp), ?_, ?_⟩
    · rw [hafter, hafter', hone, hsum]
    · intro portions sizes hportions hunits
      obtain ⟨htold'', hafter''⟩ := hall portions sizes hportions (by omega) (by omega)
      refine ⟨htold'', ?_⟩
      rw [hafter'', hafter, hunits, hone]
  · intro hless
    obtain ⟨huses, hwindow, -⟩ := run_of_drawn hlimit hburst
    obtain ⟨huses', -, -⟩ := run_of_drawn hlimit hsingles
    have hnot : ¬units ≤ desk.room now := Nat.not_le.mpr hless
    have hsplit : units = desk.room now + (units - desk.room now) := by omega
    refine ⟨?_, ?_, ?_⟩
    · simp only [told, huses, inTurn, if_neg hnot]
    · refine (hwindow (List.cons_ne_nil _ _)).trans ?_
      rw [fitting, if_neg hnot, fitting, Window.record_zero (hlimit.advance now)]
    · refine huses'.trans ?_
      conv_lhs => rw [hsplit]
      exact inTurn_singles now (desk.room now) (units - desk.room now)

/-- Four units of seven were let through at 8, and the clock has gone back to 3. For three units there is
room: in one permit, in single ones of which one was issued before, and in portions of two and one. For
four there is not, and of four single units three are let through. -/
theorem portions_agree_clock_goes_back :
    let history : List (Int × Call) := [(8, .request 4), (8, .single), (8, .use 0)]
    let desk := ((opening .sevenInTen 0).run history).1
    let after (calls : List Call) : Window := (desk.run (allAt 3 calls)).1.limiter.window
    let told (calls : List Call) : List (Int × Answer) := uses (desk.run (allAt 3 calls)).2
    after [.request 3, .use 2] = after [.single, .use 2, .use 1, .single, .use 3] ∧
      after [.request 2, .single, .use 3, .use 2] = after [.request 3, .use 2] ∧
      told [.request 4, .use 2] = [(3, .used 4 (some .noRoom))] ∧
      told (oneByOne 2 (List.replicate 4 .single)) =
        [(3, .used 1 none), (3, .used 1 none), (3, .used 1 none), (3, .used 1 (some .noRoom))] := by
  intro history desk after told
  obtain ⟨room, hroom, -, -, hportions⟩ := portions_agree .sevenInTen 0 3 history
  have hthree : room = 3 := Answer.room.inj (hroom.symm.trans (by decide +kernel))
  subst hthree
  obtain ⟨hfits, -⟩ := hportions 3 [.request 3, .use 2] [.single, .use 2, .use 1, .single, .use 3]
    (by decide) (by decide +kernel) (by decide +kernel)
  obtain ⟨-, -, hsame, hparts⟩ := hfits (by decide)
  obtain ⟨-, hafter⟩ := hparts [.request 2, .single, .use 3, .use 2] [1, 2] (by decide +kernel) rfl
  obtain ⟨-, hless⟩ := hportions 4 [.request 4, .use 2] (oneByOne 2 (List.replicate 4 .single))
    (by decide) (by decide +kernel) (by decide +kernel)
  obtain ⟨hrefused, -, hfirst⟩ := hless (by decide)
  refine ⟨?_, hafter, hrefused, hfirst⟩
  simpa only [after, desk] using hsame

end Desk

end Throttle
