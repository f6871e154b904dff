import Throttle.Proofs.Limiter.Rush
import Throttle.Proofs.Registry.Overlap
import Throttle.Proofs.Window.Journal

/-!
# What a sweep forgets

A sweep looks at the limiter of every key. It forgets those that count nothing when they are turned
to its reading, and no others; what it leaves are the same limiters, turned. A limiter knows only
in which segment something was let through. So whether it is forgotten can be told from what it has
let through, up to the width of a segment: not as long as something lies within the reach of the
plan, and surely once everything is as old as all segments together.

This says nothing about what the key is told afterwards, by a fresh limiter.

## Main statements

* `Registry.entries_sweep` — an entry is kept if its key is still served.
* `Clients.pos_of_mem_limiterLedger` — whatever a limiter lets through is at least one unit.
* `Clients.sweep_exact` — what a sweep forgets, counts and leaves, and that another one at the same
  reading forgets nothing.
-/

namespace Throttle

/-- A window counts nothing if there is nothing in any segment. -/
theorem Window.total_eq_zero_iff (window : Window) :
    window.total = 0 ↔ ∀ count ∈ window.counts, count = 0 := by
  rw [total_eq_left]
  exact List.sum_eq_zero_iff_forall_eq_nat

/-! ## The entries of a registry -/

namespace Registry

variable {registry : Registry} {key : String} {index : Nat}

/-- An entry is kept in a sweep just if its key is served afterwards. -/
theorem entries_sweep (ht : registry.Tidy) (now : Int) :
    (registry.sweep now).entries =
      registry.entries.filter fun entry => (registry.sweep now).find? entry.1 ≠ none := by
  refine List.filter_congr fun entry hentry => ?_
  have hkept : entry ∈ (registry.sweep now).entries ↔
      (!(registry.advance now).isRecovered entry.2) = true := by
    refine List.mem_filter.trans ?_
    simp only [hentry, true_and]
  have hserved : entry ∈ (registry.sweep now).entries ↔
      (registry.sweep now).find? entry.1 ≠ none := by
    constructor
    · intro hmem
      rw [(ht.sweep now).find?_of_mem hmem]
      exact Option.some_ne_none _
    · intro hsome
      obtain ⟨found, hfound⟩ := Option.ne_none_iff_exists'.mp hsome
      have hsame := find?_of_find?_sweep ht hfound
      rw [ht.find?_of_mem hentry, Option.some.injEq] at hsame
      rw [← hsame] at hfound
      exact mem_of_find? hfound
  rw [Bool.eq_iff_iff, decide_eq_true_eq]
  exact hkept.symm.trans hserved

/-- What is kept in a sweep and what is forgotten make up all entries. -/
theorem size_sweep_add (ht : registry.Tidy) (now : Int) :
    (registry.sweep now).size +
        registry.entries.countP (fun entry => (registry.sweep now).find? entry.1 = none) =
      registry.size := by
  rw [size, entries_sweep ht, ← List.countP_eq_length_filter]
  refine Eq.trans ?_ (List.length_eq_countP_add_countP
    (fun entry => decide ((registry.sweep now).find? entry.1 ≠ none))).symm
  congr 2
  funext entry
  simp

/-- **A sweep tells how many entries it has taken away**: what it keeps and what it finds recovered make up
all entries. -/
theorem size_sweep_add_forgotten (registry : Registry) (now : Int) :
    (registry.sweep now).size + registry.forgotten now = registry.size := by
  let recovered (entry : String × Nat) : Bool := (registry.advance now).isRecovered entry.2
  have hkept : (registry.sweep now).size = registry.entries.countP fun entry => !recovered entry :=
    List.countP_eq_length_filter.symm
  have hall := registry.entries.length_eq_countP_add_countP recovered
  have hnot : (fun entry => decide ¬recovered entry = true) = fun entry => !recovered entry := by
    funext entry
    simp
  rw [hnot] at hall
  rw [hkept, size, hall]
  exact Nat.add_comm ..

/-- The limiter of a key that is kept is the same one, turned. -/
theorem limiters_sweep_of_find? (ht : registry.Tidy) (h : registry.find? key = some index)
    (now : Int) : (registry.sweep now).limiters[index]? =
      registry.limiters[index]?.map fun limiter => limiter.advance now := by
  rw [limiters_sweep ht, if_pos (List.mem_map_of_mem (mem_of_find? h))]

/-- Another sweep at the same reading keeps every key. -/
theorem find?_sweep_sweep (ht : registry.Tidy) (now : Int) (key : String) :
    ((registry.sweep now).sweep now).find? key = (registry.sweep now).find? key := by
  cases hfind : (registry.sweep now).find? key with
  | none => exact find?_sweep_of_none (ht.sweep now) hfind now
  | some index =>
    have hbefore := find?_of_find?_sweep ht hfind
    have hlt := ht.lt_of_find? hbefore
    have hlimiter := Array.getElem?_eq_getElem hlt
    have hwindow := window?_of_find? hbefore
    rw [hlimiter, Option.map_some] at hwindow
    have hturned := window?_of_find? hfind
    rw [limiters_sweep_of_find? ht hbefore, hlimiter, Option.map_some, Option.map_some] at hturned
    have hcounts := find?_sweep ht hbefore hwindow now
    rw [find?_sweep (ht.sweep now) hfind hturned, Limiter.advance, Window.advance_advance_self]
    by_cases hzero : (registry.limiters[index].window.advance now).total = 0
    · rw [hfind, if_pos hzero] at hcounts
      cases hcounts
    · rw [if_neg hzero]

theorem entries_sweep_sweep (ht : registry.Tidy) (now : Int) :
    ((registry.sweep now).sweep now).entries = (registry.sweep now).entries := by
  rw [entries_sweep (ht.sweep now)]
  refine List.filter_eq_self.mpr fun entry hentry => decide_eq_true ?_
  rw [find?_sweep_sweep ht, (ht.sweep now).find?_of_mem hentry]
  exact Option.some_ne_none _

end Registry

namespace Clients

/-! ## Units of permits -/

variable {clients : Clients} {now : Int} {act : Act} {index units : Nat}

/-- What an act records at a limiter are the units of a permit that the limiter has issued. -/
theorem exists_permit (h : clients.recorded now act = some (index, units)) :
    ∃ permit ∈ clients.permits index, permit.units = units := by
  cases act with
  | ask key ended => cases h
  | sweep => cases h
  | call handle call =>
    rw [recorded] at h
    cases hhanded : clients.handed[handle]? with
    | none =>
      rw [hhanded] at h
      cases h
    | some entry =>
      obtain ⟨key, found⟩ := entry
      rw [hhanded, Option.bind_some] at h
      obtain ⟨told, htold, heq⟩ := Option.map_eq_some_iff.mp h
      obtain ⟨rfl, rfl⟩ := Prod.mk.inj heq
      rw [serve, hhanded] at htold
      cases hlimiter : clients.registry.limiters[found]? with
      | none =>
        simp only [hlimiter] at htold
        cases htold
      | some limiter =>
        simp only [hlimiter, Report.recordedFor_told] at htold
        exact Desk.mem_of_recorded_serve htold

/-- Every permit is for at least one unit. -/
def Positive (clients : Clients) : Prop :=
  ∀ index, ∀ permit ∈ clients.permits index, 0 < permit.units

theorem positive_new (policy : Policy) : (new policy).Positive := by
  simp [Positive, new]

theorem Positive.serve (h : clients.Positive) (now : Int) (act : Act) :
    (clients.serve now act).1.Positive := by
  cases act with
  | ask key ended =>
    cases ended with
    | some reason => exact h
    | none => exact h
  | sweep => exact h
  | call handle call =>
    rw [Clients.serve]
    split
    · exact h
    · rename_i key found _
      split
      · exact h
      · rename_i limiter _
        intro other
        simp only
        split
        · exact Desk.forall_permits_serve ⟨limiter, clients.permits found⟩ now call
            (fun _ hpos _ => hpos) (h found)
        · exact h other

/-- **Whatever a limiter lets through is at least one unit.** -/
theorem pos_of_mem_limiterLedger (h : clients.Positive) (acts : List (Int × Act))
    {entry : Recording} (hentry : entry ∈ clients.limiterLedger index acts) : 0 < entry.units := by
  induction acts generalizing clients with
  | nil => cases hentry
  | cons event acts ih =>
    obtain ⟨now, act⟩ := event
    rw [limiterLedger, ledger] at hentry
    rcases List.mem_append.mp hentry with hentry | hentry
    · have hrecorded := Registry.recordedAt_eq_some (recorded_of_mem_entries hentry)
      obtain ⟨permit, hmem, hunits⟩ := exists_permit hrecorded
      exact hunits ▸ h index permit hmem
    · exact ih (h.serve now act) hentry

/-! ## A sweep -/

section Sweep

variable {policy : Policy} {acts : List (Int × Act)} {now : Int} {index : Nat} {limiter : Limiter}

/-- A limiter that is turned to a reading has kept what was recorded at it. -/
theorem kept_limiterLedger (hacts : (readings acts ++ [now]).Pairwise (· ≤ ·))
    (hlimiter : ((new policy).run acts).1.registry.limiters[index]? = some limiter) :
    limiter.window.plan = policy.plan ∧
      Window.Kept ⟨now, (new policy).limiterLedger index acts⟩ (limiter.window.advance now) := by
  have hall : (readings (acts ++ [(now, Act.sweep)])).Pairwise (· ≤ ·) := by
    rw [readings, List.map_append]
    exact hacts
  obtain ⟨last, hlast⟩ := exists_reading_before hall
  rw [readings, List.map_append, ← List.cons_append] at hlast
  obtain ⟨hreadings, -, hnow⟩ := List.pairwise_append.mp hlast
  obtain ⟨latest, hlatest, hkept⟩ := @keeps_limiterLedger policy _ _ hreadings index
  have hlater : latest ≤ now := hnow latest hlatest now (List.mem_singleton_self now)
  rw [hlimiter] at hkept
  obtain ⟨hplan, hrepresents, -, hstart⟩ := hkept.represents limiter.window rfl
  have hturned := Int.le_trans hstart hlater
  refine ⟨hplan, hrepresents.advance hturned, Window.start_advance_le hturned, ?_⟩
  rw [Window.plan_advance]
  exact limiter.window.lt_start_advance_add_width now

/-- As long as something lies within the reach of the plan, a limiter counts it. -/
theorem total_ne_zero (hacts : (readings acts ++ [now]).Pairwise (· ≤ ·))
    (hlimiter : ((new policy).run acts).1.registry.limiters[index]? = some limiter)
    {entry : Recording} (hentry : entry ∈ (new policy).limiterLedger index acts)
    (hrecent : now - entry.instant ≤ policy.plan.reach) :
    (limiter.window.advance now).total ≠ 0 := by
  obtain ⟨hplan, hkept⟩ := kept_limiterLedger hacts hlimiter
  have hpos := pos_of_mem_limiterLedger (positive_new policy) acts hentry
  have hcounted := hkept.le_total
  rw [Window.plan_advance, hplan] at hcounted
  have hunits : entry.units ≤ (limiter.window.advance now).total :=
    Nat.le_trans (units_le_unitsWhere hentry (decide_eq_true hrecent)) hcounted
  omega

/-- Once everything is as old as all segments together, a limiter counts nothing. -/
theorem total_eq_zero (hacts : (readings acts ++ [now]).Pairwise (· ≤ ·))
    (hlimiter : ((new policy).run acts).1.registry.limiters[index]? = some limiter)
    (hold : ∀ entry ∈ (new policy).limiterLedger index acts,
      (policy.plan.segments * policy.plan.width : Nat) ≤ now - entry.instant) :
    (limiter.window.advance now).total = 0 := by
  obtain ⟨hplan, hkept⟩ := kept_limiterLedger hacts hlimiter
  have hcounted := hkept.total_le
  rw [Window.plan_advance, hplan] at hcounted
  rw [unitsWhere_eq_zero fun entry hentry => ?_] at hcounted
  · exact Nat.le_zero.mp hcounted
  · exact decide_eq_false (Int.not_lt.mpr (hold entry hentry))

end Sweep

/-- **What a sweep forgets.** Clients have done anything with a registry, while the clock did not go
back, and then it is swept. The sweep tells how many keys it has taken away; no key is added. A key
is taken away just if there is nothing in any segment of its limiter once this is turned to the
reading. It is not taken away if the limiter has let something through that is no older than all
segments but one, and it is if all that the limiter has let through is as old as all segments. A key
that is not taken away has the same limiter as before, turned, and this counts as much as before.
Another sweep at the same reading takes nothing away. -/
theorem sweep_exact (policy : Policy) (acts : List (Int × Act)) (now : Int)
    (hacts : (readings acts ++ [now]).Pairwise (· ≤ ·)) :
    let clients := ((new policy).run acts).1
    let swept := clients.serve now .sweep
    let before := clients.registry
    let after := swept.1.registry
    let taken := before.entries.countP fun entry => after.find? entry.1 = none
    let again := swept.1.serve now .sweep
    (swept.2 = .swept taken ∧ after.size + taken = before.size) ∧
    (∀ key, before.find? key = none → after.find? key = none) ∧
    (∀ key index, before.find? key = some index →
      ∃ limiter, before.limiters[index]? = some limiter ∧
        (after.find? key = none ↔ ∀ count ∈ (limiter.window.advance now).counts, count = 0) ∧
        (after.find? key ≠ none →
          after.find? key = some index ∧ after.limiters[index]? = some (limiter.advance now) ∧
          ((limiter.advance now).window.advance now).total = (limiter.window.advance now).total) ∧
        ((∃ entry ∈ (new policy).limiterLedger index acts,
            now - entry.instant ≤ ((policy.plan.segments - 1) * policy.plan.width : Nat)) →
          after.find? key ≠ none) ∧
        ((∀ entry ∈ (new policy).limiterLedger index acts,
            (policy.plan.segments * policy.plan.width : Nat) ≤ now - entry.instant) →
          after.find? key = none)) ∧
    (again.2 = .swept 0 ∧ again.1.registry.entries = after.entries) := by
  intro clients swept before after taken again
  have htidy : before.Tidy := ((tidy_new policy).run acts).registry
  have hsize : after.size + taken = before.size := Registry.size_sweep_add htidy now
  have hagain : again.1.registry.entries = after.entries := Registry.entries_sweep_sweep htidy now
  refine ⟨⟨?_, hsize⟩, fun key hnone => Registry.find?_sweep_of_none htidy hnone now, ?_, ?_, hagain⟩
  · have htold : after.size + before.forgotten now = before.size := before.size_sweep_add_forgotten now
    exact congrArg Report.swept (Nat.add_left_cancel (htold.trans hsize.symm))
  · intro key index hfind
    obtain ⟨limiter, hlimiter⟩ : ∃ limiter, before.limiters[index]? = some limiter :=
      ⟨_, Array.getElem?_eq_getElem (htidy.lt_of_find? hfind)⟩
    refine ⟨limiter, hlimiter, ?_⟩
    have hwindow := Registry.window?_of_find? hfind
    rw [hlimiter, Option.map_some] at hwindow
    have hserved : after.find? key = if (limiter.window.advance now).total = 0 then none
        else some index := Registry.find?_sweep htidy hfind hwindow now
    have htaken : after.find? key = none ↔ (limiter.window.advance now).total = 0 := by
      rw [hserved, ite_eq_left_iff]
      simp
    refine ⟨htaken.trans (Window.total_eq_zero_iff _), fun hkept => ⟨?_, ?_, ?_⟩, ?_, ?_⟩
    · rw [hserved, if_neg fun hzero => hkept (htaken.mpr hzero)]
    · exact (Registry.limiters_sweep_of_find? htidy hfind now).trans (by rw [hlimiter]; rfl)
    · rw [Limiter.advance, Window.advance_advance_self]
    · rintro ⟨entry, hentry, hrecent⟩ hnone
      exact total_ne_zero hacts hlimiter hentry hrecent (htaken.mp hnone)
    · exact fun hold => htaken.mpr (total_eq_zero hacts hlimiter hold)
  · have htold : again.1.registry.size + after.forgotten now = after.size :=
      after.size_sweep_add_forgotten now
    rw [Registry.size, Registry.size, hagain] at htold
    exact congrArg Report.swept (Nat.add_left_cancel htold)

/-- A unit that was let through at 2 is six nanoseconds old at 8, which is the reach: the key stays,
and a key that was only asked for goes. -/
theorem sweep_exact_two_keys :
    let acts : List (Int × Act) :=
      [(0, .ask "a" none), (1, .ask "b" none), (2, .call 0 .single), (2, .call 0 (.use 0))]
    let swept := ((new .twoInTen).run acts).1.serve 8 .sweep
    (readings acts ++ [8]).Pairwise (· ≤ ·) ∧ swept.2 = .swept 1 ∧
      swept.1.registry.find? "a" ≠ none ∧ swept.1.registry.find? "b" = none ∧
      (swept.1.serve 8 .sweep).2 = .swept 0 := by
  intro acts swept
  have hacts : (readings acts ++ [8]).Pairwise (· ≤ ·) := by decide
  obtain ⟨⟨htaken, -⟩, -, hkeys, hagain, -⟩ := sweep_exact .twoInTen acts 8 hacts
  obtain ⟨_, -, -, -, hrecent, -⟩ := hkeys "a" 0 (by decide +kernel)
  obtain ⟨_, -, -, -, -, hold⟩ := hkeys "b" 1 (by decide +kernel)
  refine ⟨hacts, htaken.trans (by decide +kernel), hrecent ⟨⟨2, 1⟩, ?_, by decide⟩, hold ?_, hagain⟩
  · decide +kernel
  · have hnone : (new .twoInTen).limiterLedger 1 acts = [] := by decide +kernel
    rw [hnone]
    simp

end Clients

end Throttle
