import Throttle.Proofs.Limiter.Rush

/-!
# What permits cost

A permit is spent by the first use that is let through, and by nothing else. This use adds the units of
the permit to what the window counts. Every other call leaves the count as it is or lets it fall,
since it turns the window at most; and what is refused or merely issued costs nothing. All of this
holds whichever way the clock goes.

## Main definitions

* `Desk.isSpent` — whether a permit was used up.
* `Desk.successes` — how often the use of a permit was let through in a run.

## Main statements

* `Desk.serve_cases` — a call spends one permit, or it spends none and at most turns the window.
* `Desk.successes_run` — a permit was let through once if it is spent, and never if it is not.
* `Desk.serve_of_used`, `Desk.serve_of_no_room` — what a use costs that is let through, or that is not.
* `Desk.accounts_run` — what a call costs after any history.
-/

namespace Throttle

namespace Window

/-- Turning a window never adds to what it counts. -/
theorem total_advance_le (window : Window) (now : Int) :
    (window.advance now).total ≤ window.total := by
  rw [total_advance, total_eq_left]
  apply window.left_antitone
  exact Nat.zero_le _

end Window

namespace Desk

/-- Whether a permit was used up. -/
def isSpent (desk : Desk) (number : Nat) : Bool := desk.permits[number]?.any Permit.used

/-- Whether a call is the use of a permit that was let through. -/
def spends (number : Nat) (call : Call) (answer : Answer) : Bool :=
  call == .use number && answer.recorded.isSome

/-- How often the use of a permit was let through in a run with these answers. -/
def successes (number : Nat) (calls : List (Int × Call)) (answers : List (Int × Answer)) : Nat :=
  ((calls.zip answers).map fun event => (spends number event.1.2 event.2.2).toNat).sum

@[simp] theorem successes_nil (number : Nat) (answers : List (Int × Answer)) :
    successes number [] answers = 0 := rfl

theorem successes_cons (number : Nat) (call : Int × Call) (calls : List (Int × Call))
    (answer : Int × Answer) (answers : List (Int × Answer)) :
    successes number (call :: calls) (answer :: answers) =
      (spends number call.2 answer.2).toNat + successes number calls answers := by
  simp [successes]

/-! ## The use of a permit -/

section Use

variable {desk : Desk} {number units : Nat}

/-- A spent permit is refused, and nothing happens. -/
theorem serve_use_of_spent (h : desk.permits[number]? = some ⟨units, true⟩) (now : Int) :
    desk.serve now (.use number) = (desk, .used units (some .alreadyUsed)) := by
  obtain ⟨hbound, hpermit⟩ := List.getElem?_eq_some_iff.mp h
  have hsame : desk.permits.set number ⟨units, true⟩ = desk.permits := by
    rw [← hpermit]
    exact List.set_getElem_self hbound
  rw [serve, h]
  simp [Limiter.use, hsame]

/-- A permit that finds too little room turns the window, and nothing else happens. -/
theorem serve_use_of_no_room (h : desk.permits[number]? = some ⟨units, false⟩) {now : Int}
    (hroom : desk.room now < units) :
    desk.serve now (.use number) =
      ({ desk with limiter := desk.limiter.advance now }, .used units (some .noRoom)) := by
  obtain ⟨hbound, hpermit⟩ := List.getElem?_eq_some_iff.mp h
  have hsame : desk.permits.set number ⟨units, false⟩ = desk.permits := by
    rw [← hpermit]
    exact List.set_getElem_self hbound
  have hless : (desk.limiter.advance now).available < units := hroom
  rw [serve, h]
  simp [Limiter.use, hless, hsame]

/-- A permit that finds room is spent, and its units are recorded. -/
theorem serve_use_of_room (h : desk.permits[number]? = some ⟨units, false⟩) {now : Int}
    (hroom : units ≤ desk.room now) :
    desk.serve now (.use number) =
      (⟨{ desk.limiter with window := (desk.limiter.window.advance now).record units },
        desk.permits.set number ⟨units, true⟩⟩, .used units none) := by
  have hnot : ¬(desk.limiter.advance now).available < units := Nat.not_lt.mpr hroom
  rw [serve, h]
  simp only [Limiter.use, Bool.false_eq_true, if_false, if_neg hnot]
  rfl

/-- Who is told that a permit was used, or why it was not, has named a permit. -/
theorem exists_permit_of_used {now : Int} {refusal : Option Refusal}
    (h : (desk.serve now (.use number)).2 = .used units refusal) :
    ∃ used, desk.permits[number]? = some ⟨units, used⟩ := by
  cases hpermit : desk.permits[number]? with
  | none => simp [serve, hpermit] at h
  | some permit =>
    have hunits : permit.units = units := by
      simp only [serve, hpermit, Answer.used.injEq] at h
      exact h.1
    exact ⟨permit.used, by rw [← hunits]⟩

/-- A use that is let through has found an unspent permit and room for it. -/
theorem of_used {now : Int} (h : (desk.serve now (.use number)).2 = .used units none) :
    desk.permits[number]? = some ⟨units, false⟩ ∧ units ≤ desk.room now := by
  obtain ⟨used, hpermit⟩ := exists_permit_of_used h
  cases used with
  | true => simp [serve_use_of_spent hpermit] at h
  | false =>
    by_cases hroom : units ≤ desk.room now
    · exact ⟨hpermit, hroom⟩
    · simp [serve_use_of_no_room hpermit (Nat.not_le.mp hroom)] at h

/-- A use that is refused for want of room has found an unspent permit. -/
theorem of_no_room {now : Int}
    (h : (desk.serve now (.use number)).2 = .used units (some .noRoom)) :
    desk.permits[number]? = some ⟨units, false⟩ ∧ desk.room now < units := by
  obtain ⟨used, hpermit⟩ := exists_permit_of_used h
  cases used with
  | true => simp [serve_use_of_spent hpermit] at h
  | false =>
    by_cases hroom : units ≤ desk.room now
    · simp [serve_use_of_room hpermit hroom] at h
    · exact ⟨hpermit, Nat.not_le.mp hroom⟩

end Use

/-! ## Any call -/

/-- What becomes of a desk in a call that spends no permit: new permits may be issued, and the window
may be turned. -/
structure Spares (now : Int) (desk after : Desk) : Prop where
  permits : ∃ issued, after.permits = desk.permits ++ issued ∧ ∀ permit ∈ issued, permit.used = false
  window : after.limiter.window = desk.limiter.window ∨
    after.limiter.window = desk.limiter.window.advance now

theorem Spares.stay (now : Int) (desk : Desk) : Spares now desk desk :=
  ⟨⟨[], by simp⟩, .inl rfl⟩

theorem Spares.turn (now : Int) (desk : Desk) :
    Spares now desk { desk with limiter := desk.limiter.advance now } :=
  ⟨⟨[], by simp⟩, .inr rfl⟩

theorem Spares.issue (now : Int) (desk : Desk) (units : Nat) :
    Spares now desk { desk with permits := desk.permits ++ [⟨units, false⟩] } :=
  ⟨⟨[⟨units, false⟩], by simp⟩, .inl rfl⟩

theorem spares_ask (desk : Desk) (now : Int) (number : Nat) (tell : Limiter → Permit → Answer) :
    Spares now desk (desk.ask now number tell).1 := by
  rw [ask]
  split
  · exact .stay now desk
  · exact .turn now desk

/-- **A call spends one permit**, which has not been spent before, **or it spends none**. -/
theorem serve_cases (desk : Desk) (now : Int) (call : Call) :
    (∃ number units, call = .use number ∧ (desk.serve now call).2 = .used units none) ∨
    ((desk.serve now call).2.recorded = none ∧ Spares now desk (desk.serve now call).1) := by
  by_cases huse : ∃ number, call = .use number
  · obtain ⟨number, rfl⟩ := huse
    cases hpermit : desk.permits[number]? with
    | none =>
      right
      rw [serve, hpermit]
      exact ⟨rfl, .stay now desk⟩
    | some permit =>
      obtain ⟨units, used⟩ := permit
      cases used with
      | true =>
        right
        rw [serve_use_of_spent hpermit]
        exact ⟨rfl, .stay now desk⟩
      | false =>
        by_cases hroom : units ≤ desk.room now
        · left
          exact ⟨number, units, rfl, by rw [serve_use_of_room hpermit hroom]⟩
        · right
          rw [serve_use_of_no_room hpermit (Nat.not_le.mp hroom)]
          exact ⟨rfl, .turn now desk⟩
  · right
    refine ⟨desk.recorded_serve_eq_none now call fun number h => huse ⟨number, h⟩, ?_⟩
    cases call with
    | single => exact .issue now desk 1
    | request units =>
      rw [serve]
      split
      · exact .stay now desk
      · rename_i permit hrequest
        obtain ⟨rfl, -, -⟩ := Limiter.request_eq_ok hrequest
        exact .issue now desk units
    | use number => exact absurd ⟨number, rfl⟩ huse
    | allows number => exact desk.spares_ask now number _
    | resetsAt number => exact desk.spares_ask now number _
    | retryAfter number => exact desk.spares_ask now number _
    | available ended =>
      cases ended with
      | none => exact .turn now desk
      | some reason => exact .stay now desk

theorem Spares.isSpent_eq {now : Int} {desk after : Desk} (h : Spares now desk after)
    (number : Nat) : after.isSpent number = desk.isSpent number := by
  obtain ⟨issued, hpermits, hunused⟩ := h.permits
  rw [isSpent, isSpent, hpermits]
  by_cases hold : number < desk.permits.length
  · rw [List.getElem?_append_left hold]
  · have hnone : desk.permits[number]? = none := List.getElem?_eq_none (Nat.not_lt.mp hold)
    rw [List.getElem?_append_right (Nat.not_lt.mp hold), hnone]
    cases hnew : issued[number - desk.permits.length]? with
    | none => rfl
    | some permit => simp [hunused permit (List.mem_of_getElem? hnew)]

/-- A call that spends no permit leaves the count as it is or lets it fall; at its reading, the window
counts the same as it would have counted without it. -/
theorem Spares.total_le {now : Int} {desk after : Desk} (h : Spares now desk after) :
    after.limiter.window.total ≤ desk.limiter.window.total ∧
      (after.limiter.window.advance now).total = (desk.limiter.window.advance now).total := by
  rcases h.window with hwindow | hwindow
  · rw [hwindow]
    exact ⟨Nat.le_refl _, rfl⟩
  · rw [hwindow, Window.advance_advance_self]
    exact ⟨Window.total_advance_le _ now, rfl⟩

/-- **A permit is spent exactly from its success on**: it is spent after a call if it was spent before
or the call has spent it, and only one of the two can be. -/
theorem isSpent_serve (desk : Desk) (now : Int) (call : Call) (number : Nat) :
    ((desk.serve now call).1.isSpent number).toNat =
      (desk.isSpent number).toNat + (spends number call (desk.serve now call).2).toNat := by
  rcases desk.serve_cases now call with ⟨used, units, rfl, hused⟩ | ⟨hnone, hspares⟩
  · obtain ⟨hpermit, hroom⟩ := of_used hused
    rw [serve_use_of_room hpermit hroom]
    by_cases heq : used = number
    · subst heq
      have hbound := (List.getElem?_eq_some_iff.mp hpermit).1
      have hbefore : desk.isSpent used = false := by simp [isSpent, hpermit]
      rw [hbefore]
      simp [isSpent, spends, Answer.recorded, hbound]
    · have hne : (Call.use used == Call.use number) = false := by simpa using heq
      simp [isSpent, spends, heq, hne]
  · simp [hspares.isSpent_eq, spends, hnone]

/-! ## Runs -/

/-- **How often a permit was let through**: once if it is spent, and never if it is not. -/
theorem successes_run (desk : Desk) (calls : List (Int × Call)) (number : Nat) :
    ((desk.run calls).1.isSpent number).toNat =
      (desk.isSpent number).toNat + successes number calls (desk.run calls).2 := by
  induction calls generalizing desk with
  | nil => simp
  | cons event calls ih =>
    obtain ⟨now, call⟩ := event
    rw [run_cons, successes_cons, ih, isSpent_serve, Nat.add_assoc]

/-- Once nobody has looked at the window for an interval there is room for any permit. -/
theorem exists_room (desk : Desk) (now : Int) :
    ∃ later, now ≤ later ∧ desk.room later = desk.limiter.limit := by
  let late := max now (desk.limiter.window.start + desk.limiter.window.plan.interval)
  refine ⟨late, le_max_left _ _, ?_⟩
  have hlong : desk.limiter.window.plan.interval ≤
      Time.elapsed desk.limiter.window.start late := by
    simp only [Time.elapsed]
    omega
  have hzero : (Window.fresh desk.limiter.window.plan late).total = 0 := by
    rw [Window.total_eq_left, Window.left_fresh]
  rw [room, Window.advance_of_le hlong, Window.available, hzero]
  rfl

/-- What a use costs that is let through: the permit, and its units. -/
theorem serve_of_used {desk : Desk} (hlimit : desk.limiter.window.WithinLimit) {now : Int}
    {number units : Nat} (h : (desk.serve now (.use number)).2 = .used units none) :
    desk.permits[number]? = some ⟨units, false⟩ ∧
      (desk.serve now (.use number)).1.permits = desk.permits.set number ⟨units, true⟩ ∧
      (desk.serve now (.use number)).1.limiter.window.total =
        (desk.limiter.window.advance now).total + units := by
  obtain ⟨hpermit, hroom⟩ := of_used h
  refine ⟨hpermit, ?_, ?_⟩
  · rw [serve_use_of_room hpermit hroom]
  · rw [serve_use_of_room hpermit hroom]
    exact Window.total_record ((hlimit.advance now).fits_count hroom)

/-- A use that finds too little room costs nothing, and it can be made up for later. -/
theorem serve_of_no_room {desk : Desk}
    (hfits : ∀ permit ∈ desk.permits, permit.units ≤ desk.limiter.limit) {now : Int}
    {number units : Nat} (h : (desk.serve now (.use number)).2 = .used units (some .noRoom)) :
    let served := (desk.serve now (.use number)).1
    served.limiter.window = desk.limiter.window.advance now ∧ served.permits = desk.permits ∧
      desk.permits[number]? = some ⟨units, false⟩ ∧
      ∃ later, now ≤ later ∧ (served.serve later (.use number)).2 = .used units none := by
  obtain ⟨hpermit, hroom⟩ := of_no_room h
  rw [serve_use_of_no_room hpermit hroom]
  refine ⟨rfl, rfl, hpermit, ?_⟩
  let turned : Desk := { desk with limiter := desk.limiter.advance now }
  have hkept : turned.permits[number]? = some ⟨units, false⟩ := hpermit
  obtain ⟨later, hlater, hall⟩ := turned.exists_room now
  have hroom : units ≤ turned.room later := by
    rw [hall, Limiter.limit_advance]
    exact hfits _ (List.mem_of_getElem? hpermit)
  exact ⟨later, hlater, congrArg Prod.snd (serve_use_of_room hkept hroom)⟩

/-- **What calls cost.** A limiter is asked for permits and permits are used, in any order and with a
clock that goes forward and back.

The use of a permit has been let through once if the permit is spent by now, and never otherwise. For
the next call, whatever it is: If the use of a permit is let through, the permit was unspent and is
spent from now on, and the window, as it stands at the reading, counts just the permit's units more.
After every other call the window counts no more than before, and no less than it would have counted
at the reading without the call. A use that finds too little room turns the window and does nothing
else; the permit can be used at some later reading. The use of a spent permit, a request, whether it is
granted or not, and a question of somebody whose scope is over leave the window as it was. -/
theorem accounts_run (policy : Policy) (opened : Int) (history : List (Int × Call)) :
    let past := (opening policy opened).run history
    let desk := past.1
    (∀ number, successes number history past.2 = (desk.isSpent number).toNat) ∧
    ∀ (now : Int) (call : Call),
      let served := desk.serve now call
      let before := desk.limiter.window
      let after := served.1.limiter.window
      (∀ number units, call = .use number → served.2 = .used units none →
        desk.permits[number]? = some ⟨units, false⟩ ∧
          served.1.permits = desk.permits.set number ⟨units, true⟩ ∧
          after.total = (before.advance now).total + units) ∧
      (served.2.recorded = none → after.total ≤ before.total ∧
        (after.advance now).total = (before.advance now).total ∧
        ∀ number, served.1.isSpent number = desk.isSpent number) ∧
      (∀ number units, call = .use number → served.2 = .used units (some .noRoom) →
        after = before.advance now ∧ served.1.permits = desk.permits ∧
          desk.permits[number]? = some ⟨units, false⟩ ∧
          ∃ later, now ≤ later ∧ (served.1.serve later call).2 = .used units none) ∧
      (∀ number units, call = .use number → desk.permits[number]? = some ⟨units, true⟩ →
        served = (desk, .used units (some .alreadyUsed))) ∧
      (call = .single ∨ (∃ units, call = .request units) ∨
        (∃ reason, call = .available (some reason)) → after = before) := by
  intro past desk
  have hlimit : desk.limiter.window.WithinLimit :=
    withinLimit_run (policy.withinLimit_make opened) history
  have hfits : ∀ permit ∈ desk.permits, permit.units ≤ desk.limiter.limit := by
    rw [Limiter.limit, plan_run]
    exact forall_permits_run (fun _ _ hle => hle) (by simp [opening]) history
  constructor
  · intro number
    have hrun := successes_run (opening policy opened) history number
    have hnone : (opening policy opened).isSpent number = false := rfl
    rw [hnone, Bool.toNat_false, Nat.zero_add] at hrun
    exact hrun.symm
  · intro now call served before after
    refine ⟨?_, ?_, ?_, ?_, ?_⟩
    · intro number units huse hused
      subst huse
      exact serve_of_used hlimit hused
    · intro hnone
      rcases desk.serve_cases now call with ⟨_, units, -, hused⟩ | ⟨-, hspares⟩
      · have hsome : served.2.recorded = some units := congrArg Answer.recorded hused
        cases hnone.symm.trans hsome
      · exact ⟨hspares.total_le.1, hspares.total_le.2, hspares.isSpent_eq⟩
    · intro number units huse hrefused
      subst huse
      exact serve_of_no_room hfits hrefused
    · intro number units huse hspent
      subst huse
      exact serve_use_of_spent hspent now
    · rintro (rfl | ⟨units, rfl⟩ | ⟨reason, rfl⟩)
      · rfl
      · simp only [after, served, serve]
        split <;> rfl
      · rfl

/-- A unit was let through at 5. The clock goes back, and a pair finds too little room at 3 and again at
4; it can be used at 16. The permit for the single unit is spent. -/
theorem accounts_run_clock_goes_back :
    let history : List (Int × Call) := [(5, .request 2), (5, .single), (5, .use 1), (3, .use 0)]
    let past := (opening .twoInTen 0).run history
    let desk := past.1
    successes 0 history past.2 = 0 ∧ successes 1 history past.2 = 1 ∧
      (desk.serve 4 (.use 0)).1.limiter.window = desk.limiter.window.advance 4 ∧
      (∃ later, 4 ≤ later ∧
        ((desk.serve 4 (.use 0)).1.serve later (.use 0)).2 = .used 2 none) ∧
      desk.serve 4 (.use 1) = (desk, .used 1 (some .alreadyUsed)) ∧
      (desk.serve 16 (.use 0)).1.limiter.window.total =
        (desk.limiter.window.advance 16).total + 2 := by
  intro history past desk
  obtain ⟨hcount, hcalls⟩ := accounts_run .twoInTen 0 history
  obtain ⟨-, -, hrefused, -⟩ := hcalls 4 (.use 0)
  obtain ⟨hturned, -, -, hlater⟩ := hrefused 0 2 rfl (by decide +kernel)
  obtain ⟨-, -, -, hspent, -⟩ := hcalls 4 (.use 1)
  obtain ⟨hused, -⟩ := hcalls 16 (.use 0)
  refine ⟨(hcount 0).trans (by decide +kernel), (hcount 1).trans (by decide +kernel), hturned,
    hlater, hspent 1 1 rfl (by decide +kernel), ?_⟩
  exact (hused 0 2 rfl (by decide +kernel)).2.2

end Desk

end Throttle
