import Throttle.Proofs.World.Errands

/-!
# Waiting for units

An errand that was refused waits for as long as its limiter has said, however much its scheduling is
delayed. The delay is measured on the clock of the limiter, but it is waited for on the system
clock. If these are the same and nobody else is let through, the units are there when the errand
comes back, but not recorded: it has only waited.

## Main definitions

* `Errand.Owes` — the errand does not come back before an instant, unless it fails.

## Main statements

* `spent_of_rank` — an errand that was refused spends nothing any more.
* `owes_follow`, `waits_of_refused` — it does not come back early.
* `takes_or_waits` — what an errand comes to.
-/

namespace Throttle.Errand

variable {errand : Errand} {world : World} {stage : Stage} {limiter : Limiter}

/-! ## The order of the stages -/

theorem rank_le_turn (errand : Errand) (world : World) (stage : Stage) :
    stage.rank ≤ (errand.turn world stage).2.rank := by
  cases stage with
  | requesting => exact Nat.zero_le _
  | trying permit =>
    rw [turn]
    split <;> simp [Stage.rank]
  | timing permit =>
    rw [turn]
    split <;> simp [Stage.rank]
  | setting delay => simp [turn, Stage.rank]
  | entering until? =>
    rw [turn]
    split <;> simp [Stage.rank]
  | waiting until? =>
    rw [turn]
    split
    · simp [Stage.rank]
    · split <;> simp [Stage.rank]
  | misused fault => exact Nat.le_refl _
  | reached outcome => exact Nat.le_refl _

theorem rank_le_follow (errand : Errand) (world : World) (stage : Stage)
    (schedule : List Occasion) :
    stage.rank ≤ (errand.task.follow world stage schedule).2.rank :=
  errand.task.measure_le_follow world stage errand.rank_le_turn schedule

theorem rank_pos_turn (errand : Errand) (world : World) (stage : Stage) :
    0 < (errand.turn world stage).2.rank := by
  have hle := errand.rank_le_turn world stage
  cases stage with
  | requesting =>
    rw [turn]
    split
    · simp [Stage.rank]
    · split <;> simp [Stage.rank]
  | trying _ | timing _ | setting _ | entering _ | waiting _ | misused _ | reached _ =>
    exact Nat.lt_of_lt_of_le (by simp [Stage.rank]) hle

/-- An errand that has taken a step is not at its first stage any more. -/
theorem rank_pos_follow (errand : Errand) (world : World) (stage : Stage)
    {schedule : List Occasion} (hturn : .turn ∈ schedule) :
    0 < (errand.task.follow world stage schedule).2.rank := by
  obtain ⟨front, back, rfl⟩ := List.append_of_mem hturn
  rw [Task.follow_append, Task.follow_cons]
  exact Nat.lt_of_lt_of_le (errand.rank_pos_turn _ _) (errand.rank_le_follow _ _ back)

/-- **An errand that was refused spends nothing any more.** -/
theorem spent_of_rank (hrank : 2 ≤ stage.rank) (schedule : List Occasion) :
    errand.task.spent world stage schedule = [] := by
  induction schedule using List.reverseRecOn with
  | nil => rfl
  | append_singleton schedule occasion ih =>
    cases occasion with
    | others deed => rw [Task.spent_others, ih]
    | turn =>
      have hlater := Nat.le_trans hrank (errand.rank_le_follow world stage schedule)
      rw [Task.spent_turn, ih, List.nil_append, deed?_task]
      cases hstage : (errand.task.follow world stage schedule).2 with
      | requesting | trying _ =>
        rw [hstage] at hlater
        simp [Stage.rank] at hlater
      | timing _ | setting _ | entering _ | waiting _ | misused _ | reached _ => rfl

/-! ## What is owed -/

/-- The errand does not come back before an instant, unless it fails. This can be said of it once it
was told how long to wait. -/
def Owes (world : World) (due : Int) : Stage → Prop
  | .requesting | .trying _ | .timing _ | .misused _ => False
  | .setting delay => due ≤ world.now + delay
  | .entering until? | .waiting until? => ∀ deadline, until? = some deadline → due ≤ deadline
  | .reached .finished => due ≤ world.now
  | .reached _ => True

/-- The errand is back, or the timer that it waits for has fired. -/
def Ripe (world : World) : Stage → Prop
  | .waiting until? => world.fired until? = true
  | .reached .finished => True
  | _ => False

theorem Owes.le_now {due : Int} (h : Owes world due stage) (hripe : Ripe world stage) :
    due ≤ world.now := by
  cases stage with
  | requesting | trying _ | timing _ | setting _ | entering _ | misused _ => cases hripe
  | waiting until? =>
    cases until? with
    | none => cases hripe
    | some deadline =>
      have hdue : due ≤ deadline := h deadline rfl
      have htick : Time.tick deadline ≤ world.now := of_decide_eq_true hripe
      exact Int.le_trans hdue (Int.le_trans (Time.le_tick deadline) htick)
  | reached outcome =>
    cases outcome with
    | finished => exact h
    | ended _ | decided _ | refused _ | lost => cases hripe

theorem Owes.perform {due : Int} (h : Owes world due stage) (deed : Deed) :
    Owes (world.perform deed) due stage := by
  have hnow := world.now_le_perform deed
  cases stage with
  | requesting | trying _ | timing _ | misused _ => exact h
  | setting delay =>
    have hdue : due ≤ world.now + delay := h
    change due ≤ (world.perform deed).now + delay
    omega
  | entering _ | waiting _ => exact h
  | reached outcome =>
    cases outcome with
    | finished => exact Int.le_trans h hnow
    | ended _ | decided _ | refused _ | lost => trivial

theorem Owes.turn {due : Int} (h : Owes world due stage) (errand : Errand) :
    Owes (errand.turn world stage).1 due (errand.turn world stage).2 := by
  cases stage with
  | requesting | trying _ | timing _ | misused _ => cases h
  | setting delay =>
    intro deadline hdeadline
    rw [Time.after?] at hdeadline
    split at hdeadline
    · obtain rfl := Option.some.inj hdeadline
      exact h
    · cases hdeadline
  | entering until? =>
    rw [Errand.turn]
    split
    · trivial
    · exact h
  | waiting until? =>
    rw [Errand.turn]
    split
    · trivial
    · split
      · rename_i hfired
        exact h.le_now hfired
      · exact h
  | reached outcome => exact h

/-- **It does not come back early**, whoever acts and however late it is scheduled. -/
theorem owes_follow {due : Int} (h : Owes world due stage) (schedule : List Occasion) :
    Owes (errand.task.follow world stage schedule).1 due
      (errand.task.follow world stage schedule).2 := by
  induction schedule generalizing world stage with
  | nil => exact h
  | cons occasion schedule ih =>
    rw [Task.follow_cons]
    cases occasion with
    | others deed => exact ih (h.perform deed)
    | turn => exact ih (h.turn errand)

/-- **An errand that was refused** is told how long to wait, and does not come back before, nor does
its timer fire. If its limiter runs on the system clock and nobody else is let through, the units
are there then. -/
theorem waits_of_refused (h : world.Regular)
    (hfound : world.limiter? errand.limiter = some limiter) (hfits : errand.Fits limiter.limit) :
    let permit : Permit := ⟨errand.units, false⟩
    ∃ told delay, world.retryAfter errand.limiter permit = some (told, delay) ∧
      ∀ schedule, let after := errand.task.follow world (.timing permit) (.turn :: schedule)
        Ripe after.1 after.2 → world.now + delay ≤ after.1.now ∧
          (limiter.clock = .system →
            errand.task.Undisturbed errand.limiter world (.timing permit) (.turn :: schedule) →
            ∃ looked found, after.1.look errand.limiter = some (looked, found) ∧
              errand.units ≤ found.available) := by
  intro permit
  have hretry := World.retryAfter_of_limiter? hfound permit
  dsimp only at hretry
  refine ⟨_, _, hretry, ?_⟩
  intro schedule after hripe
  generalize hdelay : (limiter.advance (world.read limiter.clock)).retryAfter permit
    (world.read limiter.clock) = delay at hretry
  have hturn : errand.turn world (.timing permit) = (world.putLimiter errand.limiter
      (limiter.advance (world.read limiter.clock)), .setting delay) := by
    simp only [turn, hretry]
  have howes : Owes (errand.turn world (.timing permit)).1 (world.now + delay)
      (errand.turn world (.timing permit)).2 := by
    have hnow := errand.now_turn world (.timing permit)
    rw [hturn] at hnow ⊢
    exact Int.le_of_eq (congrArg (· + (delay : Int)) hnow.symm)
  have hback : Owes after.1 (world.now + delay) after.2 := owes_follow howes schedule
  have hdue := hback.le_now hripe
  refine ⟨hdue, fun hclock hothers => ?_⟩
  obtain ⟨clock, window⟩ := limiter
  obtain rfl : clock = .system := hclock
  have hlater : (window.advance world.now).resetsAt world.now errand.units ≤ after.1.now := by
    have hnamed : delay = Time.elapsed world.now
        ((window.advance world.now).resetsAt world.now errand.units) := hdelay.symm
    rw [hnamed, Time.elapsed] at hdue
    omega
  have hspent : errand.task.spent world (.timing permit) (.turn :: schedule) = [] :=
    spent_of_rank (by simp [Stage.rank]) _
  obtain ⟨last, hlast, hroom⟩ := errand.task.room_of_undisturbed world (.timing permit) h hfound
    hfits.2 hspent hothers hlater
  exact ⟨_, _, World.look_of_limiter? hlast, hroom⟩

/-! ## The step that a schedule ends with -/

section LastStep

variable {before : List Occasion} (h : world.Regular)
  (hfound : world.limiter? errand.limiter = some limiter)
  (hopen : (errand.task.follow world .requesting before).2.isOver = false)

include h hfound hopen

/-- What the step comes to, and all that the errand has spent so far. -/
theorem advances_follow :
    ∃ window, errand.Advances (errand.task.follow world .requesting before).1
      { limiter with window } (errand.task.follow world .requesting before).2
      (errand.task.follow world .requesting (before ++ [.turn])).2
      (errand.task.spent world .requesting (before ++ [.turn])) := by
  have hlast := accounts_follow h.sound hfound before
  obtain ⟨window, hlimiter, -⟩ :=
    errand.task.exists_limiter_follow world .requesting h.sound hfound before
  refine ⟨window, ?_⟩
  rw [Task.follow_turn, Task.spent_turn, hlast.spent_eq_nil hopen]
  exact advances_turn hlimiter _

/-- **An errand that is misused** is over at its first step, and has spent nothing. -/
theorem misused_at_first {fault : RequestFault}
    (hmisused : (errand.task.follow world .requesting (before ++ [.turn])).2 = .misused fault) :
    .turn ∉ before ∧ errand.task.spent world .requesting (before ++ [.turn]) = [] := by
  obtain ⟨window, hadvances⟩ := advances_follow h hfound hopen
  have hfirst := hadvances.stage_of_misused hmisused hopen
  constructor
  · intro hturn
    have hpos := errand.rank_pos_follow world .requesting hturn
    rw [hfirst] at hpos
    cases hpos
  · have hdone := accounts_follow h.sound hfound (before ++ [.turn])
    rw [hmisused] at hdone
    generalize errand.task.spent world .requesting (before ++ [.turn]) = spent at hdone ⊢
    cases hdone
    rfl

/-- **An errand comes back** with all of its units and without having waited, or it spends nothing.
-/
theorem outcome_cases {outcome : Outcome}
    (houtcome : (errand.task.follow world .requesting (before ++ [.turn])).2 =
      .reached outcome) :
    let follow := errand.task.follow world .requesting
    let spent := errand.task.spent world .requesting (before ++ [.turn])
    (outcome = .finished ∧ spent = [(errand.limiter, errand.units)] ∧
      ∀ front, front <+: before ++ [.turn] → ∀ until?, (follow front).2 ≠ .waiting until?) ∨
    (outcome = .finished ∧ spent = [] ∧ ∃ until?, (follow before).2 = .waiting until?) ∨
    (∃ reason, outcome = .ended reason ∧ spent = [] ∧
      (follow (before ++ [.turn])).1.ended errand.scope = some reason) := by
  intro follow spent
  obtain ⟨window, hadvances⟩ := advances_follow h hfound hopen
  rcases hadvances.stage_of_reached houtcome hopen with
    ⟨permit, hstage, htried⟩ | ⟨until?, hstage, rfl, hpaid⟩ | ⟨reason, rfl, hpaid, hended⟩
  · obtain ⟨-, rfl⟩ := (accounts_follow h.sound hfound before).permit_eq (.inl hstage)
    obtain ⟨rfl, hpaid⟩ := htried.resolve_left nofun
    refine .inl ⟨rfl, hpaid, fun front hfront until? hwaiting => ?_⟩
    rcases List.prefix_concat_iff.mp hfront with rfl | ⟨back, rfl⟩
    · cases houtcome.symm.trans hwaiting
    · -- It would have waited before it tried its permit.
      have hrank := errand.rank_le_follow (follow front).1 (follow front).2 back
      rw [← Task.follow_append, hwaiting, hstage] at hrank
      simp [Stage.rank] at hrank
  · exact .inr (.inl ⟨rfl, hpaid, until?, hstage⟩)
  · refine .inr (.inr ⟨reason, rfl, hpaid, ?_⟩)
    change (errand.task.follow world .requesting (before ++ [.turn])).1.ended _ = _
    rw [Task.follow_turn, turn_task, ended_turn]
    exact hended

omit hopen

/-- **An errand that was refused** does not come back early, and if it has kept the limiter to
itself on the system clock, it finds its units when it comes back. -/
theorem not_early {front back : List Occasion} {permit : Permit}
    (hschedule : before ++ [.turn] = front ++ .turn :: back)
    (hstage : (errand.task.follow world .requesting front).2 = .timing permit) :
    let follow := errand.task.follow world .requesting
    let last := follow before
    let after := follow (before ++ [.turn])
    permit.units = errand.units ∧
    ∃ told delay, (follow front).1.retryAfter errand.limiter permit = some (told, delay) ∧
      (after.2 = .reached .finished ∨
          (∃ until?, last.2 = .waiting until? ∧ last.1.fired until? = true) →
        (follow front).1.now + delay ≤ after.1.now ∧
        (limiter.clock = .system → errand.task.Undisturbed errand.limiter (follow front).1
            (.timing permit) (.turn :: back) →
          ∃ looked found, after.1.look errand.limiter = some (looked, found) ∧
            errand.units ≤ found.available)) := by
  intro follow last after
  have hregular := errand.task.regular_follow world .requesting h front
  obtain ⟨window, hlimiter, hplan⟩ :=
    errand.task.exists_limiter_follow world .requesting h.sound hfound front
  obtain ⟨hfits, rfl⟩ := (accounts_follow h.sound hfound front).permit_eq (.inr hstage)
  have hlimit : errand.Fits (Limiter.limit { limiter with window }) := by
    rw [Limiter.limit, hplan]
    exact hfits
  obtain ⟨told, delay, hretry, hwaits⟩ := waits_of_refused hregular hlimiter hlimit
  have hrest : ∀ back, follow (front ++ .turn :: back) =
      errand.task.follow (follow front).1 (.timing ⟨errand.units, false⟩) (.turn :: back) := by
    intro back
    change errand.task.follow world .requesting (front ++ .turn :: back) = _
    rw [Task.follow_append, ← hstage]
  refine ⟨rfl, told, delay, hretry, ?_⟩
  rintro (hfinished | ⟨until?, hwaiting, hfired⟩)
  · have hall := hwaits back
    rw [← hrest, ← hschedule] at hall
    exact hall (by rw [hfinished]; trivial)
  · -- The last step does nothing to the world: what holds before it holds after it.
    have hsame : after.1 = last.1 := by
      change (errand.task.follow world .requesting (before ++ [.turn])).1 = _
      rw [Task.follow_turn, turn_task, turn_fst, hwaiting]
      rfl
    rcases List.eq_nil_or_concat back with rfl | ⟨most, occasion, rfl⟩
    · obtain rfl : before = front := (List.append_inj' hschedule rfl).1
      cases hwaiting.symm.trans hstage
    · rw [List.concat_eq_append, ← List.cons_append, ← List.append_assoc] at hschedule
      have hmost : before = front ++ .turn :: most := (List.append_inj' hschedule rfl).1
      have hall := hwaits most
      rw [← hrest, ← hmost] at hall
      have hripe : Ripe last.1 last.2 := by
        rw [hwaiting]
        exact hfired
      obtain ⟨hdue, hroom⟩ := hall hripe
      rw [hsame]
      refine ⟨hdue, fun hclock hothers => hroom hclock ?_⟩
      rw [List.concat_eq_append, ← List.cons_append] at hothers
      exact hothers.front

end LastStep

/-- **What an errand comes to.** Whatever world it begins in, with any limiter and any scope, and
whatever others do meanwhile: we look at the step that a schedule ends with, if the errand was not
over before.

No permit is issued just if no units or more than the limit are wanted, and then the errand is over
at its first step. Else it records all units that it wants and comes back without having waited, or
it records nothing, and comes back after it has waited or fails because its scope is over.

Whenever it was refused, it is told how long to wait, and does not come back before so much time of
the system clock has passed. If its limiter runs on this clock and nobody else is let through by it
in the meantime, the units are there when it comes back. This holds from when its timer has fired,
so it makes no difference whether the timer or the end of the scope is noticed first if both have
come.

Every step gets it further, unless it waits for a timer that has not fired and for a scope whose end
it has not noticed. -/
theorem takes_or_waits (deeds : List Deed) (errand : Errand) (limiter : Limiter)
    (before : List Occasion)
    (hfound : (World.initial.performAll deeds).limiter? errand.limiter = some limiter)
    (hopen : (errand.task.follow (World.initial.performAll deeds) .requesting before).2.isOver =
      false) :
    let world := World.initial.performAll deeds
    let follow := errand.task.follow world .requesting
    let schedule := before ++ [.turn]
    let last := follow before
    let after := follow schedule
    let spent := errand.task.spent world .requesting schedule
    ((∃ fault, after.2 = .misused fault) ↔ errand.units = 0 ∨ limiter.limit < errand.units) ∧
    (∀ fault, after.2 = .misused fault → .turn ∉ before ∧ spent = []) ∧
    (∀ outcome, after.2 = .reached outcome →
      (outcome = .finished ∧ spent = [(errand.limiter, errand.units)] ∧
        ∀ front, front <+: schedule → ∀ until?, (follow front).2 ≠ .waiting until?) ∨
      (outcome = .finished ∧ spent = [] ∧ ∃ until?, last.2 = .waiting until?) ∨
      (∃ reason, outcome = .ended reason ∧ spent = [] ∧
        after.1.ended errand.scope = some reason)) ∧
    (∀ front back permit, schedule = front ++ .turn :: back →
      (follow front).2 = .timing permit → permit.units = errand.units ∧
      ∃ told delay, (follow front).1.retryAfter errand.limiter permit = some (told, delay) ∧
        (after.2 = .reached .finished ∨
            (∃ until?, last.2 = .waiting until? ∧ last.1.fired until? = true) →
          (follow front).1.now + delay ≤ after.1.now ∧
          (limiter.clock = .system → errand.task.Undisturbed errand.limiter (follow front).1
              (.timing permit) (.turn :: back) →
            ∃ looked found, after.1.look errand.limiter = some (looked, found) ∧
              errand.units ≤ found.available))) ∧
    (last.2.rank < after.2.rank ∨ ∃ until?, last.2 = .waiting until? ∧ after.2 = last.2 ∧
      last.1.scopes.noticed errand.scope last.1.now = none ∧ last.1.fired until? = false) := by
  intro world follow schedule last after spent
  have h : world.Regular := World.regular_performAll deeds
  have hdone : errand.Accounts limiter.limit after.2 spent :=
    accounts_follow h.sound hfound schedule
  have hbegun : 0 < after.2.rank :=
    errand.rank_pos_follow world .requesting (List.mem_append_right before List.mem_cons_self)
  obtain ⟨window, hadvances⟩ := advances_follow h hfound hopen
  refine ⟨hdone.misused_iff hbegun, ?_, ?_, ?_, hadvances.rank_lt hopen⟩
  · intro fault hmisused
    exact misused_at_first h hfound hopen hmisused
  · intro outcome houtcome
    exact outcome_cases h hfound hopen houtcome
  · intro front back permit hschedule hstage
    exact not_early h hfound hschedule hstage

/-- The only unit of three milliseconds is taken. An errand is refused, told after a millisecond to
wait for two more, and comes back when these have passed. It has recorded nothing, but the unit is
there. -/
theorem takes_or_waits_two_millis :
    let world := World.initial.performAll
      [.makeLoose .oneInThreeMillis, .use (.loose 0) Limiter.single]
    let errand : Errand := ⟨.background, .loose 0, none⟩
    let before : List Occasion := [.turn, .turn, .others (.pass Time.millisecond), .turn, .turn,
      .turn, .others (.look (.loose 0)), .others (.pass (2 * Time.millisecond))]
    let after := errand.task.follow world .requesting (before ++ [.turn])
    after.2 = .reached .finished ∧ errand.task.spent world .requesting (before ++ [.turn]) = [] ∧
      ∃ looked found, after.1.look (.loose 0) = some (looked, found) ∧ 1 ≤ found.available := by
  intro world errand before after
  have hfinished : after.2 = .reached .finished := by decide +kernel
  have hspent : errand.task.spent world .requesting (before ++ [.turn]) = [] := by decide +kernel
  obtain ⟨-, -, -, hrefused, -⟩ := takes_or_waits
    [.makeLoose .oneInThreeMillis, .use (.loose 0) Limiter.single] errand
    ((Policy.oneInThreeMillis.make 0).use Limiter.single 0).limiter before (by decide +kernel)
    (by decide +kernel)
  obtain ⟨-, told, delay, -, hback⟩ := hrefused
    [.turn, .turn, .others (.pass Time.millisecond)] _ Limiter.single rfl (by decide +kernel)
  have hothers : errand.task.Undisturbed errand.limiter
      (errand.task.follow world .requesting
        [.turn, .turn, .others (.pass Time.millisecond)]).1 (.timing Limiter.single)
      [.turn, .turn, .turn, .others (.look (.loose 0)), .others (.pass (2 * Time.millisecond)),
        .turn] := by
    rw [Task.Undisturbed]
    decide +kernel
  exact ⟨hfinished, hspent, (hback (.inl hfinished)).2 (by decide +kernel) hothers⟩

end Throttle.Errand
