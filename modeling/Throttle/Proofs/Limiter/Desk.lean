import Throttle.Proofs.Window.Account
import Throttle.Registry
import Throttle.Scope

/-!
# Desks

A desk is where a limiter is asked for permits and permits are used. Everything that can be asked is
a value, `Desk.Call`, so that a run is a list of calls, each with the clock's reading when it is
made. Permits are named by their number in the order of issue; any number of them can be out at the
same time.

## Main statements

* `move_serve` — what a call can make of the window, read off its answer.
* `Sound.run` — what holds at a desk as long as the clock does not go back.
-/

namespace Throttle

/-- A limiter and the permits that it has issued. -/
structure Desk where
  limiter : Limiter
  permits : List Permit
deriving Repr, DecidableEq

/-- Two units in ten nanoseconds, in three segments of three: one nanosecond is left over. -/
def Policy.twoInTen : Policy :=
  ⟨.fresh ⟨2, 10, 3, by decide, by decide, by decide, by decide⟩ 0, .manual 0, []⟩

/-- One unit in ten nanoseconds, in two segments of five. -/
def Policy.oneInTen : Policy :=
  ⟨.fresh ⟨1, 10, 2, by decide, by decide, by decide, by decide⟩ 0, .manual 0, []⟩

/-- Seven units in ten nanoseconds, in five segments of two. -/
def Policy.sevenInTen : Policy :=
  ⟨.fresh ⟨7, 10, 5, by decide, by decide, by decide, by decide⟩ 0, .manual 0, []⟩

/-- One unit in ten seconds, in two segments of five seconds. -/
def Policy.oneInTenSeconds : Policy :=
  ⟨.fresh ⟨1, 10 * Time.second, 2, by decide, by decide, by decide, by decide⟩ 0, .manual 0, []⟩

/-- One unit in three milliseconds of the system clock, in two segments of a millisecond and a
half. -/
def Policy.oneInThreeMillis : Policy :=
  ⟨.fresh ⟨1, 3 * Time.millisecond, 2, by decide, by decide, by decide, by decide⟩ 0, .system, []⟩

/-- A limiter that has just been made counts no more than its limit. -/
theorem Policy.withinLimit_make (policy : Policy) (now : Int) :
    (policy.make now).window.WithinLimit := by
  rw [make_eq]
  exact Window.withinLimit_fresh policy.plan now

/-- The readings at which things happen. -/
def readings {α : Type} (events : List (Int × α)) : List Int := events.map Prod.fst

/-- There is a reading that nothing has happened before. -/
theorem exists_reading_before {α : Type} {events : List (Int × α)}
    (h : (readings events).Pairwise (· ≤ ·)) :
    ∃ last, (last :: readings events).Pairwise (· ≤ ·) := by
  cases events with
  | nil => exact ⟨0, List.pairwise_singleton _ _⟩
  | cons event events =>
    refine ⟨event.1, List.pairwise_cons.mpr ⟨fun reading hr => ?_, h⟩⟩
    rcases List.mem_cons.mp hr with rfl | hr
    · exact Int.le_refl _
    · exact (List.pairwise_cons.mp h).1 reading hr

namespace Desk

/-- What can be asked at a desk. -/
inductive Call where
  | single
  | request (units : Nat)
  | use (permit : Nat)
  | allows (permit : Nat)
  | resetsAt (permit : Nat)
  | retryAfter (permit : Nat)
  /-- How much room is left. Somebody whose scope is over is told only that. -/
  | available (ended : Option EndReason)
deriving Repr, DecidableEq

/-- What is answered. -/
inductive Answer where
  | issued
  | notIssued (fault : RequestFault)
  | used (units : Nat) (refusal : Option Refusal)
  | flag (value : Bool)
  | instant (value : Int)
  | span (value : Nat)
  | room (units : Nat)
  | ended (reason : EndReason)
  /-- There is no such permit. -/
  | unknown
deriving Repr, DecidableEq

/-- The units that were recorded, if any were. -/
def Answer.recorded : Answer → Option Nat
  | .used units none => some units
  | _ => none

/-- What a list of answers adds to the ledger. -/
def recordings (answers : List (Int × Answer)) : List Recording :=
  answers.flatMap fun answer => Window.entries answer.1 answer.2.recorded

/-- A desk whose limiter is made when its clock shows `now`. -/
def opening (policy : Policy) (now : Int) : Desk := ⟨policy.make now, []⟩

/-- Ask about a permit. The limiter is advanced to the reading first. -/
def ask (desk : Desk) (now : Int) (number : Nat) (tell : Limiter → Permit → Answer) :
    Desk × Answer :=
  match desk.permits[number]? with
  | none => (desk, .unknown)
  | some permit =>
    ({ desk with limiter := desk.limiter.advance now }, tell (desk.limiter.advance now) permit)

/-- Serve a call at the reading `now`. -/
def serve (desk : Desk) (now : Int) : Call → Desk × Answer
  | .single => ({ desk with permits := desk.permits ++ [Limiter.single] }, .issued)
  | .request units =>
    match desk.limiter.request units with
    | .error fault => (desk, .notIssued fault)
    | .ok permit => ({ desk with permits := desk.permits ++ [permit] }, .issued)
  | .use number =>
    match desk.permits[number]? with
    | none => (desk, .unknown)
    | some permit =>
      let used := desk.limiter.use permit now
      (⟨used.limiter, desk.permits.set number used.permit⟩, .used permit.units used.refusal)
  | .allows number => desk.ask now number fun limiter permit => .flag (limiter.allows permit)
  | .resetsAt number =>
    desk.ask now number fun limiter permit => .instant (limiter.resetsAt permit now)
  | .retryAfter number =>
    desk.ask now number fun limiter permit => .span (limiter.retryAfter permit now)
  | .available (some reason) => (desk, .ended reason)
  | .available none =>
    ({ desk with limiter := desk.limiter.advance now },
      .room (desk.limiter.advance now).available)

/-- Serve one call after the other. -/
def run (desk : Desk) : List (Int × Call) → Desk × List (Int × Answer)
  | [] => (desk, [])
  | (now, call) :: calls =>
    let served := desk.serve now call
    let rest := served.1.run calls
    (rest.1, (now, served.2) :: rest.2)

@[simp] theorem run_nil (desk : Desk) : desk.run [] = (desk, []) := rfl

theorem run_cons (desk : Desk) (now : Int) (call : Call) (calls : List (Int × Call)) :
    desk.run ((now, call) :: calls) =
      (((desk.serve now call).1.run calls).1,
        (now, (desk.serve now call).2) :: ((desk.serve now call).1.run calls).2) := rfl

@[simp] theorem recordings_nil : recordings [] = [] := rfl

@[simp] theorem recordings_cons (now : Int) (answer : Answer) (answers : List (Int × Answer)) :
    recordings ((now, answer) :: answers) =
      Window.entries now answer.recorded ++ recordings answers := rfl

end Desk

/-! ## One call -/

/-- What becomes of a limiter whose permit is used, and what the holder is told: nothing at all if
the permit was used before; the window is turned and nothing else if there is too little room; else
the units are recorded and the permit is used up. -/
theorem Limiter.use_cases (limiter : Limiter) (permit : Permit) (now : Int) :
    (permit.used = true ∧ limiter.use permit now = ⟨limiter, permit, some .alreadyUsed⟩) ∨
    (permit.used = false ∧ (limiter.advance now).available < permit.units ∧
      limiter.use permit now = ⟨limiter.advance now, permit, some .noRoom⟩) ∨
    (permit.used = false ∧ permit.units ≤ (limiter.advance now).available ∧
      limiter.use permit now =
        ⟨{ limiter with window := (limiter.window.advance now).record permit.units },
          ⟨permit.units, true⟩, none⟩) := by
  by_cases hused : permit.used = true
  · exact .inl ⟨hused, if_pos hused⟩
  · have hnot : permit.used = false := by simpa using hused
    by_cases hroom : (limiter.advance now).available < permit.units
    · exact .inr (.inl ⟨hnot, hroom, by rw [use, if_neg hused]; exact if_pos hroom⟩)
    · exact .inr (.inr ⟨hnot, Nat.not_lt.mp hroom, by rw [use, if_neg hused]; exact if_neg hroom⟩)

/-- A permit that is issued is for at least one unit and for no more than the limit. -/
theorem Limiter.request_eq_ok {limiter : Limiter} {units : Nat} {permit : Permit}
    (h : limiter.request units = .ok permit) :
    permit = ⟨units, false⟩ ∧ 0 < units ∧ units ≤ limiter.limit := by
  rw [request] at h
  split at h
  · cases h
  · split at h
    · cases h
    · cases h
      exact ⟨rfl, by omega, by omega⟩

namespace Desk

section Ask

variable (desk : Desk) (now : Int) (number : Nat) {tell : Limiter → Permit → Answer}

theorem ask_permits : (desk.ask now number tell).1.permits = desk.permits := by
  rw [ask]
  split <;> rfl

theorem ask_recorded (h : ∀ limiter permit, (tell limiter permit).recorded = none) :
    (desk.ask now number tell).2.recorded = none := by
  rw [ask]
  split
  · rfl
  · exact h _ _

theorem move_ask (h : ∀ limiter permit, (tell limiter permit).recorded = none) :
    Window.Move now desk.limiter.window (desk.ask now number tell).2.recorded
      (desk.ask now number tell).1.limiter.window := by
  rw [desk.ask_recorded now number h, ask]
  split
  · exact .stay
  · exact .turn

end Ask

/-- Nothing but the use of a permit records anything. -/
theorem recorded_serve_eq_none (desk : Desk) (now : Int) (call : Call)
    (h : ∀ number, call ≠ .use number) : (desk.serve now call).2.recorded = none := by
  cases call with
  | single => rfl
  | request units =>
    rw [serve]
    split <;> rfl
  | use number => exact absurd rfl (h number)
  | allows number => exact desk.ask_recorded now number fun _ _ => rfl
  | resetsAt number => exact desk.ask_recorded now number fun _ _ => rfl
  | retryAfter number => exact desk.ask_recorded now number fun _ _ => rfl
  | available ended => cases ended <;> rfl

/-- **What a call can make of the window**, read off its answer. -/
theorem move_serve (desk : Desk) (now : Int) (call : Call) :
    Window.Move now desk.limiter.window (desk.serve now call).2.recorded
      (desk.serve now call).1.limiter.window := by
  cases call with
  | single => exact .stay
  | request units =>
    rw [serve]
    split <;> exact .stay
  | use number =>
    rw [serve]
    split
    · exact .stay
    · rename_i permit _
      rcases desk.limiter.use_cases permit now with ⟨-, huse⟩ | ⟨-, -, huse⟩ | ⟨-, hroom, huse⟩
      · rw [huse]
        exact .stay
      · rw [huse]
        exact .turn
      · rw [huse]
        exact .record hroom
  | allows number => exact desk.move_ask now number fun _ _ => rfl
  | resetsAt number => exact desk.move_ask now number fun _ _ => rfl
  | retryAfter number => exact desk.move_ask now number fun _ _ => rfl
  | available ended =>
    cases ended with
    | none => exact .turn
    | some reason => exact .stay

@[simp] theorem plan_serve (desk : Desk) (now : Int) (call : Call) :
    (desk.serve now call).1.limiter.window.plan = desk.limiter.window.plan :=
  (desk.move_serve now call).plan_eq

/-- A call issues a permit for a number of units that fits in the limit, uses a permit up, or leaves
the permits alone. -/
theorem permits_serve (desk : Desk) (now : Int) (call : Call) :
    (∃ units, 0 < units ∧ units ≤ desk.limiter.limit ∧
      (desk.serve now call).1.permits = desk.permits ++ [⟨units, false⟩]) ∨
    (∃ number units, desk.permits[number]? = some ⟨units, false⟩ ∧
      (desk.serve now call).2.recorded = some units ∧
      (desk.serve now call).1.permits = desk.permits.set number ⟨units, true⟩) ∨
    (desk.serve now call).1.permits = desk.permits := by
  cases call with
  | single => exact .inl ⟨1, Nat.one_pos, desk.limiter.window.plan.limit_pos, rfl⟩
  | request units =>
    rw [serve]
    split
    · exact .inr (.inr rfl)
    · rename_i permit hrequest
      obtain ⟨rfl, hpos, hle⟩ := Limiter.request_eq_ok hrequest
      exact .inl ⟨units, hpos, hle, rfl⟩
  | use number =>
    rw [serve]
    split
    · exact .inr (.inr rfl)
    · rename_i permit hpermit
      have hsame : desk.permits.set number permit = desk.permits := by
        obtain ⟨hbound, rfl⟩ := List.getElem?_eq_some_iff.mp hpermit
        exact List.set_getElem_self hbound
      rcases desk.limiter.use_cases permit now with ⟨-, huse⟩ | ⟨-, -, huse⟩ | ⟨hnew, -, huse⟩
      · rw [huse]
        exact .inr (.inr hsame)
      · rw [huse]
        exact .inr (.inr hsame)
      · rw [huse]
        refine .inr (.inl ⟨number, permit.units, ?_, rfl, rfl⟩)
        rw [hpermit, ← hnew]
  | allows number => exact .inr (.inr (desk.ask_permits now number))
  | resetsAt number => exact .inr (.inr (desk.ask_permits now number))
  | retryAfter number => exact .inr (.inr (desk.ask_permits now number))
  | available ended => cases ended <;> exact .inr (.inr rfl)

/-- What can be said of the units of all permits goes on to hold if it holds of whatever is
issued. -/
theorem forall_permits_serve {p : Nat → Prop} (desk : Desk) (now : Int) (call : Call)
    (hissued : ∀ units, 0 < units → units ≤ desk.limiter.limit → p units)
    (h : ∀ permit ∈ desk.permits, p permit.units) :
    ∀ permit ∈ (desk.serve now call).1.permits, p permit.units := by
  intro permit hmem
  rcases desk.permits_serve now call with
    ⟨units, hpos, hle, heq⟩ | ⟨number, units, hold, -, heq⟩ | heq
  · rw [heq, List.mem_append, List.mem_singleton] at hmem
    rcases hmem with hmem | rfl
    · exact h permit hmem
    · exact hissued units hpos hle
  · rw [heq] at hmem
    rcases List.mem_or_eq_of_mem_set hmem with hmem | rfl
    · exact h permit hmem
    · exact h ⟨units, false⟩ (List.mem_of_getElem? hold)
  · rw [heq] at hmem
    exact h permit hmem

theorem plan_run (desk : Desk) (calls : List (Int × Call)) :
    (desk.run calls).1.limiter.window.plan = desk.limiter.window.plan := by
  induction calls generalizing desk with
  | nil => rfl
  | cons event calls ih => rw [run_cons, ih, plan_serve]

/-- What can be said of all units that are issued can be said of every permit in a run. -/
theorem forall_permits_run {p : Nat → Prop} {desk : Desk}
    (hissued : ∀ units, 0 < units → units ≤ desk.limiter.limit → p units)
    (h : ∀ permit ∈ desk.permits, p permit.units) (calls : List (Int × Call)) :
    ∀ permit ∈ (desk.run calls).1.permits, p permit.units := by
  induction calls generalizing desk with
  | nil => exact h
  | cons event calls ih =>
    rw [run_cons]
    apply ih
    · rw [Limiter.limit, plan_serve]
      exact hissued
    · exact desk.forall_permits_serve event.1 event.2 hissued h

/-- What is recorded are the units of a permit. -/
theorem mem_of_recorded_serve {desk : Desk} {now : Int} {call : Call} {units : Nat}
    (h : (desk.serve now call).2.recorded = some units) :
    ∃ permit ∈ desk.permits, permit.units = units := by
  by_cases huse : ∃ number, call = .use number
  · obtain ⟨number, rfl⟩ := huse
    cases hpermit : desk.permits[number]? with
    | none =>
      rw [serve, hpermit] at h
      cases h
    | some permit =>
      rw [serve, hpermit] at h
      change (Answer.used permit.units (desk.limiter.use permit now).refusal).recorded = _ at h
      refine ⟨permit, List.mem_of_getElem? hpermit, ?_⟩
      cases hrefusal : (desk.limiter.use permit now).refusal with
      | none =>
        rw [hrefusal] at h
        exact Option.some.inj h
      | some refusal =>
        rw [hrefusal] at h
        cases h
  · rw [desk.recorded_serve_eq_none now call fun number hcall => huse ⟨number, hcall⟩] at h
    cases h

/-! ## Runs -/

/-- What holds at a desk when its clock shows `last` and has never gone back: the window has not
been turned past the reading, it counts no more than the limit, and every permit could be used if
the window were empty. -/
structure Sound (last : Int) (desk : Desk) : Prop where
  start_le : desk.limiter.window.start ≤ last
  withinLimit : desk.limiter.window.WithinLimit
  permits_fit : ∀ permit ∈ desk.permits, 0 < permit.units ∧ permit.units ≤ desk.limiter.limit

theorem sound_opening (policy : Policy) (now : Int) : (opening policy now).Sound now where
  start_le := Int.le_refl _
  withinLimit := policy.withinLimit_make now
  permits_fit := by simp [opening]

theorem Sound.later {last now : Int} {desk : Desk} (h : desk.Sound last) (hnow : last ≤ now) :
    desk.Sound now :=
  { h with start_le := Int.le_trans h.start_le hnow }

theorem Sound.serve {last now : Int} {desk : Desk} (h : desk.Sound last) (hnow : last ≤ now)
    (call : Call) : (desk.serve now call).1.Sound now where
  start_le := (desk.move_serve now call).start_le (Int.le_trans h.start_le hnow)
  withinLimit := h.withinLimit.move (desk.move_serve now call)
  permits_fit := by
    have hlimit : (desk.serve now call).1.limiter.limit = desk.limiter.limit := by
      rw [Limiter.limit, plan_serve, Limiter.limit]
    rw [hlimit]
    have hissued : ∀ units, 0 < units → units ≤ desk.limiter.limit →
        0 < units ∧ units ≤ desk.limiter.limit := fun _ hpos hle => ⟨hpos, hle⟩
    exact desk.forall_permits_serve now call hissued h.permits_fit

/-- **A desk stays sound** as long as its clock does not go back. -/
theorem Sound.run {last finish : Int} {desk : Desk} (h : desk.Sound last)
    (calls : List (Int × Call)) (hcalls : (last :: readings calls ++ [finish]).Pairwise (· ≤ ·)) :
    (desk.run calls).1.Sound finish := by
  induction calls generalizing last desk with
  | nil =>
    have hle : last ≤ finish := by simpa [readings] using hcalls
    exact h.later hle
  | cons event calls ih =>
    obtain ⟨now, call⟩ := event
    rw [run_cons]
    simp only [readings, List.map_cons, List.cons_append] at hcalls
    exact ih (h.serve ((List.pairwise_cons.mp hcalls).1 now List.mem_cons_self) call)
      (List.pairwise_cons.mp hcalls).2

end Desk

end Throttle
