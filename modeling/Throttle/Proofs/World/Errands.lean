import Throttle.Proofs.World.Tasks

/-!
# Errands

Whoever wants units of a limiter gets a permit for them and uses it. If there is no room, he waits
for as long as the limiter says, and then goes away without the units: it is up to him to come
again. Between two steps of such an errand others may act. If nobody does, its steps make up what
`World.takeOrWait` and `World.poll` do at once.

## Main definitions

* `Errand` — what somebody wants of a limiter.
* `Errand.Stage`, `Errand.turn` — how far an errand has come, and one step of it.
* `Errand.task` — the errand as a task.
* `Errand.Advances` — what a step comes to.
* `Errand.Accounts` — what an errand has spent, at each stage.

## Main statements

* `reaches_takeOrWait`, `reaches_poll` — steps that nothing comes between.
* `advances_turn` — every step is one of those.
* `accounts_follow` — the account is kept, whoever acts.
-/

namespace Throttle

/-- What somebody wants of a limiter: one unit, or as many as are named. -/
structure Errand where
  scope : Scope
  limiter : LimiterRef
  units? : Option Nat
deriving Repr, DecidableEq

namespace Errand

/-- How many units are wanted. -/
def units (errand : Errand) : Nat := errand.units?.getD 1

/-- How far an errand has come. -/
inductive Stage where
  /-- It has no permit yet. -/
  | requesting
  | trying (permit : Permit)
  /-- It was refused. -/
  | timing (permit : Permit)
  /-- It knows how long to wait. -/
  | setting (delay : Nat)
  /-- It knows until when to wait. -/
  | entering (until? : Option Int)
  | waiting (until? : Option Int)
  /-- There is no permit for so many units. -/
  | misused (fault : RequestFault)
  | reached (outcome : Outcome)
deriving Repr, DecidableEq

namespace Stage

/-- Whether the errand is over. -/
def isOver : Stage → Bool
  | misused _ | reached _ => true
  | _ => false

/-- Stages are passed through in this order. -/
def rank : Stage → Nat
  | requesting => 0
  | trying _ => 1
  | timing _ => 2
  | setting _ => 3
  | entering _ => 4
  | waiting _ => 5
  | misused _ | reached _ => 6

end Stage

/-- One step of an errand. -/
def turn (errand : Errand) (world : World) : Stage → World × Stage
  | .requesting =>
    match world.limiter? errand.limiter with
    | none => (world, .reached .lost)
    | some limiter =>
      match limiter.issue errand.units? with
      | .error fault => (world, .misused fault)
      | .ok permit => (world, .trying permit)
  | .trying permit =>
    match world.use errand.limiter permit with
    | none => (world, .reached .lost)
    | some (world, _, none) => (world, .reached .finished)
    | some (world, _, some .alreadyUsed) => (world, .reached (.refused .alreadyUsed))
    | some (world, permit, some .noRoom) => (world, .timing permit)
  | .timing permit =>
    match world.retryAfter errand.limiter permit with
    | none => (world, .reached .lost)
    | some (world, delay) => (world, .setting delay)
  | .setting delay => (world, .entering (Time.after? world.now delay))
  | .entering until? =>
    match world.ended errand.scope with
    | some reason => (world, .reached (.ended reason))
    | none => (world, .waiting until?)
  | .waiting until? =>
    match world.scopes.noticed errand.scope world.now with
    | some reason => (world, .reached (.ended reason))
    | none =>
      if world.fired until? then (world, .reached .finished) else (world, .waiting until?)
  | .misused fault => (world, .misused fault)
  | .reached outcome => (world, .reached outcome)

/-- What an errand does to the world in its next step. -/
def deed? (errand : Errand) (_world : World) : Stage → Option Deed
  | .trying permit => some (.use errand.limiter permit)
  | .timing _ => some (.look errand.limiter)
  | .requesting | .setting _ | .entering _ | .waiting _ | .misused _ | .reached _ => none

theorem turn_fst (errand : Errand) (world : World) (stage : Stage) :
    (errand.turn world stage).1 = (errand.deed? world stage).elim world world.perform := by
  cases stage with
  | requesting =>
    rw [turn]
    split
    · rfl
    · split <;> rfl
  | trying permit =>
    rw [turn, deed?, Option.elim_some, World.perform]
    split <;> simp_all
  | timing permit =>
    rw [turn, deed?, Option.elim_some, World.perform, World.retryAfter]
    cases world.look errand.limiter <;> rfl
  | setting delay => rfl
  | entering until? =>
    rw [turn]
    split <;> rfl
  | waiting until? =>
    rw [turn]
    split
    · rfl
    · split <;> rfl
  | misused fault => rfl
  | reached outcome => rfl

/-- An errand as a task. -/
def task (errand : Errand) : Task Stage := ⟨errand.turn, errand.deed?, errand.turn_fst⟩

@[simp] theorem turn_task (errand : Errand) : errand.task.turn = errand.turn := rfl

@[simp] theorem deed?_task (errand : Errand) : errand.task.deed? = errand.deed? := rfl

/-! ## Steps that nothing comes between -/

/-- The stage of an errand after it was taken as far as it gets. -/
def Stage.ofProgress? : Except RequestFault Progress → Option Stage
  | .error fault => some (.misused fault)
  | .ok (.reached outcome) => some (.reached outcome)
  | .ok (.waiting (.wait _ until?)) => some (.waiting until?)
  | .ok (.waiting _) => none

/-- Some steps of an errand lead to what comes of doing them at once. -/
def Reaches (errand : Errand) (world : World) (stage : Stage) (more : Nat)
    (after : World × Except RequestFault Progress) : Prop :=
  (errand.task.turns world stage more).1 = after.1 ∧
    Stage.ofProgress? after.2 = some (errand.task.turns world stage more).2

theorem reaches_reached (errand : Errand) (world : World) (outcome : Outcome) (more : Nat) :
    errand.Reaches world (.reached outcome) more (world, .ok (.reached outcome)) := by
  rw [Reaches, Task.turns_eq_self errand.task world rfl]
  exact ⟨rfl, rfl⟩

/-- **A wait that is polled** is taken one step further. -/
theorem reaches_poll (errand : Errand) (world : World) (until? : Option Int) :
    let all := world.poll (.wait errand.scope until?)
    errand.Reaches world (.waiting until?) 1 (all.1, .ok all.2) := by
  simp only [Reaches, Task.turns_succ, turn_task, turn, World.poll]
  cases world.scopes.noticed errand.scope world.now with
  | some reason => exact ⟨rfl, rfl⟩
  | none => cases world.fired until? <;> exact ⟨rfl, rfl⟩

theorem reaches_waitFor (errand : Errand) (world : World) (delay : Nat) :
    let all := world.waitFor errand.scope delay
    errand.Reaches world (.setting delay) 3 (all.1, .ok all.2) := by
  intro all
  change errand.Reaches world _ 3 ((world.waitFor ..).1, .ok (world.waitFor ..).2)
  rw [Reaches, Task.turns_succ, turn_task, turn, Task.turns_succ, turn_task, turn, World.waitFor,
    World.enterWait]
  cases world.ended errand.scope with
  | some reason => exact errand.reaches_reached world _ 1
  | none => exact errand.reaches_poll world (Time.after? world.now delay)

/-- **An errand that nothing comes between** requests a permit, uses it, and waits. -/
theorem reaches_takeOrWait (errand : Errand) (world : World) :
    errand.Reaches world .requesting 6
      (world.takeOrWait errand.scope errand.limiter errand.units?) := by
  rw [Reaches, Task.turns_succ, turn_task, turn, World.takeOrWait]
  cases world.limiter? errand.limiter with
  | none => exact errand.reaches_reached world .lost 5
  | some limiter =>
    dsimp only
    cases limiter.issue errand.units? with
    | error fault =>
      rw [Task.turns_eq_self errand.task world rfl]
      exact ⟨rfl, rfl⟩
    | ok permit =>
      dsimp only
      rw [Task.turns_succ, turn_task, turn, World.useOrWait]
      cases world.use errand.limiter permit with
      | none => exact errand.reaches_reached world .lost 4
      | some used =>
        obtain ⟨used, permit, refusal⟩ := used
        cases refusal with
        | none => exact errand.reaches_reached used .finished 4
        | some refusal =>
          cases refusal with
          | alreadyUsed => exact errand.reaches_reached used (.refused .alreadyUsed) 4
          | noRoom =>
            dsimp only
            rw [Task.turns_succ, turn_task, turn]
            cases used.retryAfter errand.limiter permit with
            | none => exact errand.reaches_reached used .lost 3
            | some told => exact errand.reaches_waitFor told.1 told.2

/-! ## What a step comes to -/

/-- The limiter can issue a permit for what is wanted. -/
def Fits (errand : Errand) (limit : Nat) : Prop := 0 < errand.units ∧ errand.units ≤ limit

/-- What a step of an errand comes to, and what is spent in it. The limiter is as it stands before
the step. -/
inductive Advances (errand : Errand) (world : World) (limiter : Limiter) :
    Stage → Stage → List (LimiterRef × Nat) → Prop
  | misused {fault : RequestFault} (unfit : ¬errand.Fits limiter.limit) :
      Advances errand world limiter .requesting (.misused fault) []
  | issued (fits : errand.Fits limiter.limit) :
      Advances errand world limiter .requesting (.trying ⟨errand.units, false⟩) []
  | usedBefore {permit : Permit} (used : permit.used = true) :
      Advances errand world limiter (.trying permit) (.reached (.refused .alreadyUsed)) []
  | letThrough {permit : Permit} :
      Advances errand world limiter (.trying permit) (.reached .finished)
        [(errand.limiter, permit.units)]
  | refused {permit : Permit} :
      Advances errand world limiter (.trying permit) (.timing permit) []
  | told {permit : Permit} :
      Advances errand world limiter (.timing permit)
        (.setting ((limiter.advance (world.read limiter.clock)).retryAfter permit
          (world.read limiter.clock))) []
  | set {delay : Nat} :
      Advances errand world limiter (.setting delay) (.entering (Time.after? world.now delay)) []
  | tooLate {until? : Option Int} {reason : EndReason}
      (ended : world.ended errand.scope = some reason) :
      Advances errand world limiter (.entering until?) (.reached (.ended reason)) []
  | entered {until? : Option Int} :
      Advances errand world limiter (.entering until?) (.waiting until?) []
  | noticed {until? : Option Int} {reason : EndReason}
      (ended : world.ended errand.scope = some reason) :
      Advances errand world limiter (.waiting until?) (.reached (.ended reason)) []
  | woken {deadline : Int} (fired : Time.tick deadline ≤ world.now) :
      Advances errand world limiter (.waiting (some deadline)) (.reached .finished) []
  | asleep {until? : Option Int} (unnoticed : world.scopes.noticed errand.scope world.now = none)
      (fired : world.fired until? = false) :
      Advances errand world limiter (.waiting until?) (.waiting until?) []
  | still {stage : Stage} (isOver : stage.isOver = true) :
      Advances errand world limiter stage stage []

section Steps

variable {errand : Errand} {world : World} {limiter : Limiter} {stage after : Stage}
  {spent paid : List (LimiterRef × Nat)}

/-- Who names no number gets a permit for one unit, as if he had asked for it. -/
theorem issue_eq_request (limiter : Limiter) (units? : Option Nat) :
    limiter.issue units? = limiter.request (units?.getD 1) := by
  cases units? with
  | some units => rfl
  | none =>
    have hpos : ¬limiter.limit < 1 := Nat.not_lt.mpr limiter.window.plan.limit_pos
    rw [Option.getD_none, Limiter.request, if_neg Nat.one_ne_zero, if_neg hpos]
    rfl

/-- A permit is issued just for numbers of units that fit. -/
theorem issue_cases (errand : Errand) (limiter : Limiter) :
    (¬errand.Fits limiter.limit ∧ ∃ fault, limiter.issue errand.units? = .error fault) ∨
      (errand.Fits limiter.limit ∧ limiter.issue errand.units? = .ok ⟨errand.units, false⟩) := by
  have hrequest : limiter.issue errand.units? = limiter.request errand.units :=
    issue_eq_request limiter errand.units?
  rw [hrequest, Limiter.request]
  by_cases hfits : errand.Fits limiter.limit
  · refine .inr ⟨hfits, ?_⟩
    rw [if_neg (Nat.pos_iff_ne_zero.mp hfits.1), if_neg (Nat.not_lt.mpr hfits.2)]
  · refine .inl ⟨hfits, ?_⟩
    by_cases hzero : errand.units = 0
    · exact ⟨_, if_pos hzero⟩
    · have hmore : limiter.limit < errand.units := by
        by_contra hle
        exact hfits ⟨Nat.pos_of_ne_zero hzero, Nat.not_lt.mp hle⟩
      exact ⟨_, (if_neg hzero).trans (if_pos hmore)⟩

/-- **What a step comes to** at each stage. -/
theorem advances_turn (hfound : world.limiter? errand.limiter = some limiter) (stage : Stage) :
    errand.Advances world limiter stage (errand.turn world stage).2
      ((errand.deed? world stage).bind world.recorded).toList := by
  cases stage with
  | requesting =>
    simp only [turn, hfound]
    rcases errand.issue_cases limiter with ⟨hunfit, fault, hissue⟩ | ⟨hfits, hissue⟩
    · rw [hissue]
      exact .misused hunfit
    · rw [hissue]
      exact .issued hfits
  | trying permit =>
    rw [turn, World.use_of_limiter? hfound, deed?, Option.bind_some, World.recorded_use hfound]
    rcases limiter.use_cases permit (world.read limiter.clock) with
      ⟨hused, huse⟩ | ⟨-, -, huse⟩ | ⟨-, -, huse⟩
    · rw [huse]
      exact .usedBefore hused
    · rw [huse]
      exact .refused
    · rw [huse]
      exact .letThrough
  | timing permit =>
    rw [turn, World.retryAfter_of_limiter? hfound]
    exact .told
  | setting delay => exact .set
  | entering until? =>
    rw [turn]
    cases hended : world.ended errand.scope with
    | some reason => exact .tooLate hended
    | none => exact .entered
  | waiting until? =>
    rw [turn]
    cases hnoticed : world.scopes.noticed errand.scope world.now with
    | some reason => exact .noticed (ScopeTree.ended_of_noticed hnoticed)
    | none =>
      cases hfired : world.fired until? with
      | false => exact .asleep hnoticed hfired
      | true =>
        cases until? with
        | none => cases hfired
        | some deadline => exact .woken (of_decide_eq_true hfired)
  | misused fault => exact .still rfl
  | reached outcome => exact .still rfl

/-- Every step gets an errand further that is not over, unless it sleeps. -/
theorem Advances.rank_lt (h : errand.Advances world limiter stage after paid)
    (hopen : stage.isOver = false) :
    stage.rank < after.rank ∨ ∃ until?, stage = .waiting until? ∧ after = stage ∧
      world.scopes.noticed errand.scope world.now = none ∧ world.fired until? = false := by
  cases h with
  | asleep unnoticed fired => exact .inr ⟨_, rfl, rfl, unnoticed, fired⟩
  | still isOver => cases hopen.symm.trans isOver
  | misused | issued | usedBefore | letThrough | refused | told | set | tooLate | entered
  | noticed | woken =>
    exact .inl (by simp [Stage.rank])

/-- An errand can be misused only at its first step. -/
theorem Advances.stage_of_misused {fault : RequestFault}
    (h : errand.Advances world limiter stage after paid) (hafter : after = .misused fault)
    (hopen : stage.isOver = false) : stage = .requesting := by
  subst hafter
  cases h with
  | misused => rfl
  | still => cases hopen

/-- The steps with which an errand comes to an end. -/
theorem Advances.stage_of_reached {outcome : Outcome}
    (h : errand.Advances world limiter stage after paid) (hafter : after = .reached outcome)
    (hopen : stage.isOver = false) :
    (∃ permit, stage = .trying permit ∧
      (permit.used = true ∨ outcome = .finished ∧ paid = [(errand.limiter, permit.units)])) ∨
    (∃ until?, stage = .waiting until? ∧ outcome = .finished ∧ paid = []) ∨
    (∃ reason, outcome = .ended reason ∧ paid = [] ∧ world.ended errand.scope = some reason) := by
  subst hafter
  cases h with
  | usedBefore used => exact .inl ⟨_, rfl, .inl used⟩
  | letThrough => exact .inl ⟨_, rfl, .inr ⟨rfl, rfl⟩⟩
  | woken => exact .inr (.inl ⟨_, rfl, rfl, rfl⟩)
  | tooLate ended => exact .inr (.inr ⟨_, rfl, rfl, ended⟩)
  | noticed ended => exact .inr (.inr ⟨_, rfl, rfl, ended⟩)
  | still => cases hopen

/-- A step takes no time. -/
theorem now_turn (errand : Errand) (world : World) (stage : Stage) :
    (errand.turn world stage).1.now = world.now := by
  rw [turn_fst]
  cases stage with
  | trying permit =>
    rw [deed?, Option.elim_some, World.now_perform]
    exact Int.add_zero _
  | timing permit =>
    rw [deed?, Option.elim_some, World.now_perform]
    exact Int.add_zero _
  | requesting | setting _ | entering _ | waiting _ | misused _ | reached _ => rfl

/-- A step ends no scope. -/
theorem ended_turn (errand : Errand) (world : World) (stage : Stage) (scope : Scope) :
    (errand.turn world stage).1.ended scope = world.ended scope := by
  rw [turn_fst]
  cases stage with
  | trying permit =>
    rw [deed?, Option.elim_some, World.perform_use]
    cases world.limiter? errand.limiter with
    | none => rfl
    | some limiter => exact World.ended_putLimiter ..
  | timing permit =>
    rw [deed?, Option.elim_some, World.perform_look]
    cases world.limiter? errand.limiter with
    | none => rfl
    | some limiter => exact World.ended_putLimiter ..
  | requesting | setting _ | entering _ | waiting _ | misused _ | reached _ => rfl

/-! ## What an errand has spent -/

/-- What an errand has spent at each stage: something only if it was let through. -/
inductive Accounts (errand : Errand) (limit : Nat) : Stage → List (LimiterRef × Nat) → Prop
  | requesting : Accounts errand limit .requesting []
  | trying (fits : errand.Fits limit) :
      Accounts errand limit (.trying ⟨errand.units, false⟩) []
  | timing (fits : errand.Fits limit) :
      Accounts errand limit (.timing ⟨errand.units, false⟩) []
  | setting {delay : Nat} (fits : errand.Fits limit) :
      Accounts errand limit (.setting delay) []
  | entering {until? : Option Int} (fits : errand.Fits limit) :
      Accounts errand limit (.entering until?) []
  | waiting {until? : Option Int} (fits : errand.Fits limit) :
      Accounts errand limit (.waiting until?) []
  | misused {fault : RequestFault} (unfit : ¬errand.Fits limit) :
      Accounts errand limit (.misused fault) []
  | letThrough (fits : errand.Fits limit) :
      Accounts errand limit (.reached .finished) [(errand.limiter, errand.units)]
  | waited (fits : errand.Fits limit) : Accounts errand limit (.reached .finished) []
  | ended {reason : EndReason} (fits : errand.Fits limit) :
      Accounts errand limit (.reached (.ended reason)) []

/-- A permit that is tried, or was refused, is for what is wanted. -/
theorem Accounts.permit_eq {limit : Nat} {permit : Permit}
    (h : errand.Accounts limit stage spent)
    (hstage : stage = .trying permit ∨ stage = .timing permit) :
    errand.Fits limit ∧ permit = ⟨errand.units, false⟩ := by
  rcases hstage with rfl | rfl
  · cases h with
    | trying fits => exact ⟨fits, rfl⟩
  · cases h with
    | timing fits => exact ⟨fits, rfl⟩

/-- An errand that is not over has spent nothing. -/
theorem Accounts.spent_eq_nil {limit : Nat} (h : errand.Accounts limit stage spent)
    (hopen : stage.isOver = false) : spent = [] := by
  cases h with
  | letThrough => cases hopen
  | requesting | trying | timing | setting | entering | waiting | misused | waited | ended => rfl

/-- An errand that has begun was misused just if what it wants does not fit. -/
theorem Accounts.misused_iff {limit : Nat} (h : errand.Accounts limit stage spent)
    (hbegun : 0 < stage.rank) :
    (∃ fault, stage = .misused fault) ↔ errand.units = 0 ∨ limit < errand.units := by
  cases h with
  | requesting => cases hbegun
  | misused unfit =>
    refine iff_of_true ⟨_, rfl⟩ ?_
    by_contra hnot
    rw [not_or] at hnot
    exact unfit ⟨Nat.pos_of_ne_zero hnot.1, Nat.not_lt.mp hnot.2⟩
  | trying fits | timing fits | setting fits | entering fits | waiting fits | letThrough fits
  | waited fits | ended fits =>
    obtain ⟨hpos, hle⟩ := fits
    refine iff_of_false ?_ (by omega)
    rintro ⟨fault, heq⟩
    cases heq

/-- **A step keeps the account.** -/
theorem Accounts.advance (h : errand.Accounts limiter.limit stage spent)
    (hadvances : errand.Advances world limiter stage after paid) :
    errand.Accounts limiter.limit after (spent ++ paid) := by
  cases hadvances with
  | misused unfit =>
    cases h
    exact .misused unfit
  | issued fits =>
    cases h
    exact .trying fits
  | usedBefore used =>
    cases h with
    | trying => cases used
  | letThrough =>
    cases h with
    | trying fits => exact .letThrough fits
  | refused =>
    cases h with
    | trying fits => exact .timing fits
  | told =>
    cases h with
    | timing fits => exact .setting fits
  | set =>
    cases h with
    | setting fits => exact .entering fits
  | tooLate =>
    cases h with
    | entering fits => exact .ended fits
  | entered =>
    cases h with
    | entering fits => exact .waiting fits
  | noticed =>
    cases h with
    | waiting fits => exact .ended fits
  | woken =>
    cases h with
    | waiting fits => exact .waited fits
  | asleep => rwa [List.append_nil]
  | still => rwa [List.append_nil]

/-- **The account holds after every schedule.** -/
theorem accounts_follow (h : world.Sound)
    (hfound : world.limiter? errand.limiter = some limiter) (schedule : List Occasion) :
    errand.Accounts limiter.limit (errand.task.follow world .requesting schedule).2
      (errand.task.spent world .requesting schedule) := by
  induction schedule using List.reverseRecOn with
  | nil => exact .requesting
  | append_singleton schedule occasion ih =>
    cases occasion with
    | others deed =>
      rw [Task.follow_others, Task.spent_others]
      exact ih
    | turn =>
      obtain ⟨window, hlater, hplan⟩ :=
        errand.task.exists_limiter_follow world .requesting h hfound schedule
      have hlimit : limiter.limit = Limiter.limit { limiter with window } := by
        rw [Limiter.limit, Limiter.limit, hplan]
      rw [hlimit] at ih ⊢
      rw [Task.follow_turn, Task.spent_turn]
      exact ih.advance (advances_turn hlater _)

end Steps

end Errand

end Throttle
