import Throttle.Proofs.World.Attempts
import Throttle.Proofs.World.Tasks

/-!
# What an admission costs

An admission records one unit when it is let through, and only then asks how much room is left. Who
asks must not be out of time: if the scope is over by then, the admission fails, but its unit stays
recorded. This is the only way in which a failed admission costs anything, whoever acts in between.

## Main definitions

* `World.CutShort` — an admission that was let through and finds its scope over.
* `World.Accounts` — what an admission has spent, at each stage.

## Main statements

* `Accounts.perform`, `Accounts.turn` — the account is kept, whoever acts.
* `admission_costs` — a failed admission costs nothing just if it was not cut short.
-/

namespace Throttle.World

/-- An admission was let through, but its scope is over before it asks how much room is left. -/
def CutShort (world : World) (stage : Stage) : Prop :=
  ∃ admission, stage = .telling admission ∧ world.ended admission.scope ≠ none

/-- A limiter that a registry has made. -/
def Owns (world : World) (index : Nat) (ref : LimiterRef) : Prop :=
  ∃ number limiter, ref = .kept index number ∧ world.limiter? ref = some limiter

/-- What an admission has spent at a stage. It is told apart whether it was cut short. -/
inductive Accounts (world : World) (index : Nat) (cut : Prop) :
    Stage → List (LimiterRef × Nat) → Prop
  | asking {key : String} {scope : Scope} {patient : Bool} {registry : Registry}
      (found : world.registryAt index = some registry) (whole : ¬cut) :
      Accounts world index cut (.asking index key scope patient) []
  | trying {admission : Admission} (owns : world.Owns index admission.limiter) (whole : ¬cut) :
      Accounts world index cut (.trying admission) []
  | telling {admission : Admission} (owns : world.Owns index admission.limiter) (whole : ¬cut) :
      Accounts world index cut (.telling admission) [(admission.limiter, 1)]
  | timing {admission : Admission} {permit : Permit} (owns : world.Owns index admission.limiter)
      (whole : ¬cut) : Accounts world index cut (.timing admission permit) []
  | setting {admission : Admission} {delay : Nat} (owns : world.Owns index admission.limiter)
      (whole : ¬cut) : Accounts world index cut (.setting admission delay) []
  | waiting {admission : Admission} {until? : Option Int}
      (owns : world.Owns index admission.limiter) (whole : ¬cut) :
      Accounts world index cut (.waiting admission until?) []
  | allowed {decision : Decision} {number : Nat} (yes : decision.allowed = true) (whole : ¬cut) :
      Accounts world index cut (.reached (.decided decision)) [(.kept index number, 1)]
  | denied {decision : Decision} (no : decision.allowed = false) (whole : ¬cut) :
      Accounts world index cut (.reached (.decided decision)) []
  | ended {reason : EndReason} (whole : ¬cut) :
      Accounts world index cut (.reached (.ended reason)) []
  | cutShort {reason : EndReason} {number : Nat} (short : cut) :
      Accounts world index cut (.reached (.ended reason)) [(.kept index number, 1)]

section Accounts

variable {world : World} {index : Nat} {cut : Prop} {stage : Stage}
  {spent : List (LimiterRef × Nat)} {admission : Admission}

theorem Owns.perform {ref : LimiterRef} (h : world.Owns index ref) (hsound : world.Sound)
    (deed : Deed) : (world.perform deed).Owns index ref := by
  obtain ⟨number, limiter, href, hfound⟩ := h
  obtain ⟨window, hafter, -⟩ := hsound.move_limiter hfound deed
  exact ⟨number, _, href, hafter⟩

theorem Owns.turn {ref : LimiterRef} (h : world.Owns index ref) (hsound : world.Sound)
    (stage : Stage) : (world.turn stage).1.Owns index ref := by
  rw [turn_fst]
  cases world.deed? stage with
  | none => exact h
  | some deed => exact h.perform hsound deed

/-- Whoever is handed a limiter is handed one that the registry has made. -/
theorem owns_limiterFor (hsound : world.Sound) {key : String} {scope : Scope} {asked : World}
    {ref : LimiterRef} (hasked : world.limiterFor index key scope = some (.ok (asked, ref))) :
    asked.Owns index ref := by
  obtain ⟨-, -, -, registry, hregistry, rfl, hafter⟩ := limiterFor_eq_ok hasked
  have htidy := (hsound.registry index registry hregistry).tidy
  have hserves := registry.find?_limiterFor key (world.read registry.policy.clock)
  have hlt := (htidy.limiterFor key _).lt_of_find? hserves
  have hlimiter := Array.getElem?_eq_getElem hlt
  refine ⟨_, _, rfl, Eq.trans ?_ hlimiter⟩
  rw [limiter?_kept, hafter, if_pos rfl, Option.bind_some]

/-- **Whatever others do**, the account stays as it is. -/
theorem Accounts.perform (h : world.Accounts index cut stage spent) (hsound : world.Sound)
    (deed : Deed) : (world.perform deed).Accounts index cut stage spent := by
  cases h with
  | asking found whole =>
    obtain ⟨after, hafter, -⟩ := step_perform found (hsound.registry _ _ found) deed
    exact .asking hafter whole
  | trying owns whole => exact .trying (owns.perform hsound deed) whole
  | telling owns whole => exact .telling (owns.perform hsound deed) whole
  | timing owns whole => exact .timing (owns.perform hsound deed) whole
  | setting owns whole => exact .setting (owns.perform hsound deed) whole
  | waiting owns whole => exact .waiting (owns.perform hsound deed) whole
  | allowed yes whole => exact .allowed yes whole
  | denied no whole => exact .denied no whole
  | ended whole => exact .ended whole
  | cutShort short => exact .cutShort short

/-- Only an admission that was let through can be cut short. -/
theorem not_cut_or (whole : ¬cut) (hstage : ∀ admission, stage ≠ .telling admission) :
    ¬(cut ∨ world.CutShort stage) := by
  rintro (hcut | ⟨admission, heq, -⟩)
  · exact whole hcut
  · exact hstage admission heq

/-- **A step of its own** keeps the account as well. -/
theorem Accounts.turn (h : world.Accounts index cut stage spent) (hsound : world.Sound) :
    (world.turn stage).1.Accounts index (cut ∨ world.CutShort stage) (world.turn stage).2
      (spent ++ ((world.deed? stage).bind world.recorded).toList) := by
  have howns := fun {ref : LimiterRef} (owns : world.Owns index ref) => owns.turn hsound stage
  cases h with
  | @asking key scope patient registry found whole =>
    have hwhole : ¬(cut ∨ world.CutShort (.asking index key scope patient)) :=
      not_cut_or whole (by simp)
    cases hended : world.ended scope with
    | some reason =>
      have hfails : world.limiterFor index key scope = some (.error reason) := by
        rw [limiterFor_eq, hended]
      simp only [World.turn, hfails]
      exact .ended hwhole
    | none =>
      obtain ⟨asked, ref, hasked⟩ := exists_limiterFor found hended key
      simp only [World.turn, hasked]
      exact .trying (owns_limiterFor hsound hasked) hwhole
  | @trying admission owns whole =>
    have hwhole : ¬(cut ∨ world.CutShort (.trying admission)) := not_cut_or whole (by simp)
    have hafter := howns owns
    obtain ⟨number, limiter, -, hfound⟩ := owns
    rw [deed?, Option.bind_some, recorded_use hfound]
    rw [World.turn, use_of_limiter? hfound] at hafter ⊢
    rcases limiter.use_cases Limiter.single (world.read limiter.clock) with
      ⟨hused, -⟩ | ⟨-, -, huse⟩ | ⟨-, -, huse⟩
    · cases hused
    · simp only [huse] at hafter ⊢
      exact .timing hafter hwhole
    · simp only [huse] at hafter ⊢
      exact .telling hafter hwhole
  | @telling admission owns whole =>
    obtain ⟨number, limiter, href, hfound⟩ := owns
    have hnone : ((world.deed? (.telling admission)).bind world.recorded).toList = [] := by
      rw [deed?]
      split <;> rfl
    rw [hnone, List.append_nil, href]
    cases hended : world.ended admission.scope with
    | some reason =>
      have hcut : world.CutShort (.telling admission) := ⟨admission, rfl, by simp [hended]⟩
      simp only [World.turn, hended]
      exact .cutShort (.inr hcut)
    | none =>
      have hwhole : ¬(cut ∨ world.CutShort (.telling admission)) := by
        rintro (hcut | ⟨other, heq, hover⟩)
        · exact whole hcut
        · cases heq
          exact hover hended
      simp only [World.turn, hended, look_of_limiter? hfound]
      exact .allowed rfl hwhole
  | @timing admission permit owns whole =>
    have hwhole : ¬(cut ∨ world.CutShort (.timing admission permit)) := not_cut_or whole (by simp)
    have hafter := howns owns
    obtain ⟨number, limiter, -, hfound⟩ := owns
    rw [World.turn, look_of_limiter? hfound] at hafter ⊢
    cases hpatient : admission.patient with
    | true =>
      simp only [hpatient, if_true] at hafter ⊢
      exact .setting hafter hwhole
    | false =>
      simp only [Bool.false_eq_true, if_false]
      exact .denied rfl hwhole
  | @setting admission delay owns whole =>
    have hwhole : ¬(cut ∨ world.CutShort (.setting admission delay)) := not_cut_or whole (by simp)
    cases hended : world.ended admission.scope with
    | some reason =>
      simp only [World.turn, hended]
      exact .ended hwhole
    | none =>
      simp only [World.turn, hended]
      exact .waiting owns hwhole
  | @waiting admission until? owns whole =>
    have hwhole : ¬(cut ∨ world.CutShort (.waiting admission until?)) := not_cut_or whole (by simp)
    cases hnoticed : world.scopes.noticed admission.scope world.now with
    | some reason =>
      simp only [World.turn, hnoticed]
      exact .ended hwhole
    | none =>
      simp only [World.turn, hnoticed]
      cases world.fired until? with
      | true => exact .trying owns hwhole
      | false => exact .waiting owns hwhole
  | allowed yes whole => exact .allowed yes (not_cut_or whole (by simp))
  | denied no whole => exact .denied no (not_cut_or whole (by simp))
  | ended whole => exact .ended (not_cut_or whole (by simp))
  | cutShort short => exact .cutShort (.inl short)

/-- The account holds after every schedule. -/
theorem accounts_follow (h : world.Regular) {registry : Registry}
    (hregistry : world.registryAt index = some registry) (key : String) (scope : Scope)
    (patient : Bool) (schedule : List Occasion) :
    let start := Stage.asking index key scope patient
    (admitting.follow world start schedule).1.Accounts index
      (admitting.Met CutShort world start schedule) (admitting.follow world start schedule).2
      (admitting.spent world start schedule) := by
  intro start
  induction schedule using List.reverseRecOn with
  | nil => exact .asking hregistry (admitting.not_met_nil world start CutShort)
  | append_singleton schedule occasion ih =>
    have hsound := (admitting.regular_follow world start h schedule).sound
    cases occasion with
    | others deed =>
      rw [Task.follow_others, Task.spent_others, Task.met_others]
      exact ih.perform hsound deed
    | turn =>
      rw [Task.follow_turn, Task.spent_turn, Task.met_turn]
      exact ih.turn hsound

end Accounts

/-- **A failed admission costs nothing, unless it was cut short.** Whatever world it begins in and
whatever others do meanwhile: an admission that fails has spent nothing just if it was not cut
short. Else one unit of a limiter of the registry is lost, and never more. An admission that comes
to a decision was not cut short, and it has spent a unit if the key is allowed, and nothing if it is
denied. Nothing else can come of it. -/
theorem admission_costs (deeds : List Deed) (index : Nat) (registry : Registry) (key : String)
    (scope : Scope) (patient : Bool) (schedule : List Occasion)
    (hregistry : (initial.performAll deeds).registryAt index = some registry) :
    let world := initial.performAll deeds
    let start := Stage.asking index key scope patient
    let spent := admitting.spent world start schedule
    let cut := admitting.Met CutShort world start schedule
    ∀ outcome, (admitting.follow world start schedule).2 = .reached outcome →
      (∃ reason, outcome = .ended reason ∧ (spent = [] ↔ ¬cut) ∧
        (cut → ∃ number, spent = [(.kept index number, 1)])) ∨
      (∃ decision, outcome = .decided decision ∧ ¬cut ∧
        (decision.allowed = true → ∃ number, spent = [(.kept index number, 1)]) ∧
        (decision.allowed = false → spent = [])) := by
  intro world start spent cut outcome hreached
  have haccounts := accounts_follow (regular_performAll deeds) hregistry key scope patient schedule
  change Accounts _ index cut _ spent at haccounts
  generalize spent = paid at haccounts ⊢
  rw [hreached] at haccounts
  cases haccounts with
  | @allowed decision number yes whole =>
    refine .inr ⟨decision, rfl, whole, fun _ => ⟨number, rfl⟩, fun no => ?_⟩
    cases yes.symm.trans no
  | @denied decision no whole =>
    refine .inr ⟨decision, rfl, whole, fun yes => ?_, fun _ => rfl⟩
    cases yes.symm.trans no
  | @ended reason whole =>
    exact .inl ⟨reason, rfl, iff_of_true rfl whole, fun short => absurd short whole⟩
  | @cutShort reason number short =>
    refine .inl ⟨reason, rfl, iff_of_false (List.cons_ne_nil _ _) ?_, fun _ => ⟨number, rfl⟩⟩
    exact not_not_intro short

/-- An admission waits for the unit that somebody else has taken, and is cancelled meanwhile. It has
spent nothing, and was not cut short. -/
theorem admission_costs_cancelled :
    let world := initial.performAll
      [.found .oneInThreeMillis .background Time.second, .ask 0 "k" .background,
        .use (.kept 0 0) Limiter.single]
    let start := Stage.asking 0 "k" ⟨1, none⟩ true
    let cancel := Deed.rearrange #[] ⟨#[⟨none, false⟩, ⟨some 0, true⟩]⟩ #[]
    let schedule : List Occasion := [.turn, .turn, .turn, .turn, .turn, .others cancel, .turn]
    (admitting.follow world start schedule).2 = .reached (.ended .canceled) ∧
      admitting.spent world start schedule = [] ∧ ¬admitting.Met CutShort world start schedule := by
  intro world start cancel schedule
  have hended : (admitting.follow world start schedule).2 = .reached (.ended .canceled) := by
    decide +kernel
  have hspent : admitting.spent world start schedule = [] := by decide +kernel
  have hcosts := admission_costs
    [.found .oneInThreeMillis .background Time.second, .ask 0 "k" .background,
      .use (.kept 0 0) Limiter.single] 0
    ⟨.oneInThreeMillis, [("k", 0)],
      #[((Policy.oneInThreeMillis.make 0).use Limiter.single 0).limiter]⟩
    "k" ⟨1, none⟩ true schedule (by decide +kernel) _ hended
  rcases hcosts with ⟨reason, -, hiff, -⟩ | ⟨decision, hdecided, -⟩
  · exact ⟨hended, hspent, hiff.mp hspent⟩
  · cases hdecided

/-- Half a millisecond after somebody else was let through, an admission begins to wait for the
instant at which three milliseconds have passed. It is woken up half a millisecond late, after its
deadline. It is let through, and fails: a unit is lost. -/
theorem failed_admission_costs_unit :
    let world := initial.performAll
      [.found .oneInThreeMillis .background Time.second, .ask 0 "k" .background,
        .use (.kept 0 0) Limiter.single, .pass (Time.millisecond / 2)]
    let start := Stage.asking 0 "k" ⟨0, some 3300000⟩ true
    let schedule : List Occasion := [.turn, .turn, .turn, .turn,
      .others (.pass (3 * Time.millisecond)), .turn, .turn, .turn]
    (admitting.follow world start schedule).2 = .reached (.ended .deadlineExceeded) ∧
      admitting.spent world start schedule = [(.kept 0 0, 1)] := by
  decide +kernel

end Throttle.World
