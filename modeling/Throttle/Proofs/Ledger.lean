import Mathlib
import Throttle.Plan

/-!
# Ledgers

A ledger is the list of everything that was recorded, with the instants at which it was. Nothing in
a program keeps one; it is what bounds on rates are about. `unitsWithin` is what a ledger holds in a
closed span of time.

## Main statements

* `Plan.Bounds` — what a plan promises about a ledger: in no span of its reach more than its limit.
* `Plan.Bounds.twice` — then in no interval more than twice the limit.
-/

namespace Throttle

/-- Some units, and the instant at which they were recorded. -/
structure Recording where
  instant : Int
  units : Nat
deriving Repr, DecidableEq

/-- What was recorded at the instants that satisfy `p`. -/
def unitsWhere (ledger : List Recording) (p : Int → Bool) : Nat :=
  ((ledger.filter fun entry => p entry.instant).map Recording.units).sum

/-- What was recorded at `start` or later. -/
def unitsSince (ledger : List Recording) (start : Int) : Nat :=
  unitsWhere ledger fun instant => start ≤ instant

/-- What was recorded from `start` to `finish`, both of them included. -/
def unitsWithin (ledger : List Recording) (start finish : Int) : Nat :=
  unitsWhere ledger fun instant => start ≤ instant ∧ instant ≤ finish

section Where

variable {ledger : List Recording} {p q r : Int → Bool}

@[simp] theorem unitsWhere_nil (p : Int → Bool) : unitsWhere [] p = 0 := rfl

theorem unitsWhere_cons (entry : Recording) (ledger : List Recording) (p : Int → Bool) :
    unitsWhere (entry :: ledger) p =
      (if p entry.instant then entry.units else 0) + unitsWhere ledger p := by
  by_cases h : p entry.instant <;> simp [unitsWhere, h]

theorem unitsWhere_append (first second : List Recording) (p : Int → Bool) :
    unitsWhere (first ++ second) p = unitsWhere first p + unitsWhere second p := by
  simp [unitsWhere]

theorem unitsWhere_singleton (instant : Int) (units : Nat) (p : Int → Bool) :
    unitsWhere [⟨instant, units⟩] p = if p instant then units else 0 := by
  rw [unitsWhere_cons, unitsWhere_nil, Nat.add_zero]

theorem unitsWhere_eq_zero (h : ∀ entry ∈ ledger, p entry.instant = false) :
    unitsWhere ledger p = 0 := by
  rw [unitsWhere, List.filter_eq_nil_iff.mpr fun entry he => by simp [h entry he]]
  rfl

/-- What satisfies `p` satisfies one of `q` and `r`. -/
theorem unitsWhere_le_add
    (h : ∀ entry ∈ ledger, p entry.instant → q entry.instant ∨ r entry.instant) :
    unitsWhere ledger p ≤ unitsWhere ledger q + unitsWhere ledger r := by
  induction ledger with
  | nil => simp
  | cons entry ledger ih =>
    have hrest := ih fun other ho => h other (List.mem_cons_of_mem entry ho)
    have hhead := h entry List.mem_cons_self
    simp only [unitsWhere_cons]
    by_cases hp : p entry.instant
    · rcases hhead hp with hq | hr
      · rw [if_pos hp, if_pos hq]
        omega
      · rw [if_pos hp, if_pos hr]
        omega
    · rw [if_neg hp]
      omega

theorem unitsWhere_mono (h : ∀ entry ∈ ledger, p entry.instant → q entry.instant) :
    unitsWhere ledger p ≤ unitsWhere ledger q := by
  have := unitsWhere_le_add (r := fun _ => false) fun entry he hp => Or.inl (h entry he hp)
  rwa [unitsWhere_eq_zero (p := fun _ => false) fun _ _ => rfl] at this

/-- An entry that satisfies `p` is part of what does. -/
theorem units_le_unitsWhere {entry : Recording} (hentry : entry ∈ ledger) (hp : p entry.instant) :
    entry.units ≤ unitsWhere ledger p :=
  List.le_sum_of_mem (List.mem_map_of_mem (List.mem_filter.mpr ⟨hentry, hp⟩))

end Where

theorem unitsWithin_le_unitsSince (ledger : List Recording) (start finish : Int) :
    unitsWithin ledger start finish ≤ unitsSince ledger start :=
  unitsWhere_mono fun _ _ h => by
    simp only [decide_eq_true_eq] at h ⊢
    exact h.1

theorem unitsSince_antitone (ledger : List Recording) {s t : Int} (h : s ≤ t) :
    unitsSince ledger t ≤ unitsSince ledger s :=
  unitsWhere_mono fun _ _ ht => by
    simp only [decide_eq_true_eq] at ht ⊢
    omega

theorem unitsSince_append_singleton (ledger : List Recording) (instant : Int) (units : Nat)
    (start : Int) :
    unitsSince (ledger ++ [⟨instant, units⟩]) start =
      unitsSince ledger start + if start ≤ instant then units else 0 := by
  simp [unitsSince, unitsWhere_append, unitsWhere_singleton]

theorem unitsWithin_append_singleton (ledger : List Recording) (instant : Int) (units : Nat)
    (start finish : Int) :
    unitsWithin (ledger ++ [⟨instant, units⟩]) start finish =
      unitsWithin ledger start finish +
        if start ≤ instant ∧ instant ≤ finish then units else 0 := by
  simp [unitsWithin, unitsWhere_append, unitsWhere_singleton]

/-- A span of time is no fuller than two spans that cover it. -/
theorem unitsWithin_le_add (ledger : List Recording) (start middle finish : Int) :
    unitsWithin ledger start finish ≤
      unitsWithin ledger start middle + unitsWithin ledger (middle + 1) finish :=
  unitsWhere_le_add fun _ _ h => by
    simp only [decide_eq_true_eq] at h ⊢
    omega

namespace Plan

/-- For how long a unit is counted at least: all segments but one. -/
def reach (plan : Plan) : Nat := (plan.segments - 1) * plan.width

theorem reach_add_width (plan : Plan) : plan.reach + plan.width = plan.segments * plan.width := by
  have hs : plan.segments = plan.segments - 1 + 1 := by have := plan.two_le_segments; omega
  conv_rhs => rw [hs, Nat.add_mul, Nat.one_mul]
  rfl

/-- The reach is more than half of the interval: what is left of the interval, and of the
nanoseconds that belong to no segment, is no longer than the reach. -/
theorem interval_le_two_mul_reach (plan : Plan) : plan.interval ≤ 2 * plan.reach + 1 := by
  have htwo := plan.two_le_segments
  have hdiv := Nat.div_add_mod plan.interval plan.segments
  have hmod := Nat.mod_lt plan.interval (Nat.lt_of_lt_of_le Nat.two_pos htwo)
  have hreach := plan.reach_add_width
  have hrest : (plan.segments - 2) * 1 ≤ (plan.segments - 2) * plan.width :=
    Nat.mul_le_mul_left _ plan.width_pos
  have hmore : plan.reach = plan.width + (plan.segments - 2) * plan.width := by
    have hs : plan.segments - 1 = 1 + (plan.segments - 2) := by omega
    rw [reach, hs, Nat.add_mul, Nat.one_mul]
  change plan.segments * plan.width + _ = _ at hdiv
  omega

/-- In no span of the plan's reach more than its limit was recorded. -/
def Bounds (plan : Plan) (ledger : List Recording) : Prop :=
  ∀ start finish : Int, finish - start ≤ plan.reach →
    unitsWithin ledger start finish ≤ plan.limit

@[simp] theorem bounds_nil (plan : Plan) : plan.Bounds [] := fun _ _ _ => Nat.zero_le _

/-- **In no interval more than twice the limit was recorded**: two spans of the reach cover it. -/
theorem Bounds.twice {plan : Plan} {ledger : List Recording} (h : plan.Bounds ledger)
    {start finish : Int} (hspan : finish - start ≤ plan.interval) :
    unitsWithin ledger start finish ≤ 2 * plan.limit := by
  have hinterval := plan.interval_le_two_mul_reach
  calc unitsWithin ledger start finish
      ≤ unitsWithin ledger start (start + plan.reach) +
          unitsWithin ledger (start + plan.reach + 1) finish := unitsWithin_le_add ..
    _ ≤ plan.limit + plan.limit :=
        Nat.add_le_add (h _ _ (by omega)) (h _ _ (by omega))
    _ = 2 * plan.limit := (Nat.two_mul _).symm

end Plan

end Throttle
