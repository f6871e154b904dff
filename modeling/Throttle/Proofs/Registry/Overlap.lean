import Throttle.Proofs.Limiter.Reset
import Throttle.Proofs.Registry.Isolation
import Throttle.Proofs.Registry.RateBound

/-!
# The rate of a key when forgotten limiters are held

Whoever holds a limiter that was forgotten goes on counting on it, while another one serves the key.
The limiters that serve the key in turn let no more through than one of them would, in a span of its
reach; every limiter that was forgotten and is still used adds as much as it lets through itself.
With one such limiter this is twice the limit. But each sweep may leave another one behind, and
nothing keeps the number of those that are held small: no multiple of the limit bounds what is let
through for the key.

## Main definitions

* `Clients.ledger` — what a run adds to a ledger that is kept of some of its acts.
* `Clients.strays` — the limiters that let something through for a key in a span of time after they
  were forgotten.

## Main statements

* `Clients.keeps_ledger` — the plan bounds a ledger if every act moves the window it is kept of.
* `Clients.unitsWithin_strays_le` — as many times the limit as there are strays, and once more.
* `Clients.exists_units_eq` — this bound is reached for any number of strays, at a single instant.
-/

namespace Throttle

/-- A call leaves the clock of the limiter alone. -/
theorem Desk.limiter_serve (desk : Desk) (now : Int) (call : Call) :
    (desk.serve now call).1.limiter =
      { desk.limiter with window := (desk.serve now call).1.limiter.window } := by
  have hclock : (desk.serve now call).1.limiter.clock = desk.limiter.clock := by
    cases call with
    | single => rfl
    | request units =>
      rw [serve]
      split <;> rfl
    | use number =>
      rw [serve]
      split
      · rfl
      · rename_i permit _
        rcases desk.limiter.use_cases permit now with ⟨-, huse⟩ | ⟨-, -, huse⟩ | ⟨-, -, huse⟩
        · rw [huse]
        · rw [huse]
          rfl
        · rw [huse]
    | allows number | resetsAt number | retryAfter number =>
      rw [serve, ask]
      split <;> rfl
    | available ended => cases ended <;> rfl
  exact congrArg (Limiter.mk · (desk.serve now call).1.limiter.window) hclock

/-- **What a step makes of the window of a limiter**, whether it has been made before or not. -/
theorem Registry.Step.moves_limiter {now : Int} {registry after : Registry}
    {recorded : Option (Nat × Nat)} (s : registry.Step now recorded after) (h : registry.Tidy)
    (index : Nat) :
    Clients.Moves registry.policy.plan now (registry.limiters[index]?.map Limiter.window)
      (recordedAt index recorded) (after.limiters[index]?.map Limiter.window) := by
  cases hfound : registry.limiters[index]? with
  | some limiter =>
    obtain ⟨window, hafter, move⟩ := s.move_limiter h hfound
    rw [hafter]
    exact .moved move
  | none =>
    have hnone : recordedAt index recorded = none := by
      cases s with
      | stay => rfl
      | ask key => rfl
      | @move other _ _ _ found _ =>
        refine recordedAt_map_of_ne (fun heq => ?_) _
        rw [heq, hfound] at found
        cases found
      | sweep => rfl
    rw [hnone]
    cases hafter : after.limiters[index]? with
    | none => exact .absent
    | some limiter =>
      rw [s.eq_make h hfound hafter, Policy.make_eq]
      exact .made

namespace Clients

/-! ## What acts record -/

/-- The limiter at which an act records units, and how many. -/
def recorded (clients : Clients) (now : Int) : Act → Option (Nat × Nat)
  | .call handle call => clients.handed[handle]?.bind fun entry =>
      ((clients.serve now (.call handle call)).2.recordedFor entry.1).map (entry.2, ·)
  | _ => none

/-- **An act is a step of the registry.** -/
theorem step_serve (clients : Clients) (now : Int) (act : Act) :
    clients.registry.Step now (clients.recorded now act) (clients.serve now act).1.registry := by
  cases act with
  | ask key ended =>
    cases ended with
    | some reason => exact .stay
    | none => exact .ask key
  | sweep => exact .sweep
  | call handle call =>
    rw [recorded, serve]
    cases hhanded : clients.handed[handle]? with
    | none => exact .stay
    | some entry =>
      obtain ⟨key, index⟩ := entry
      cases hlimiter : clients.registry.limiters[index]? with
      | none =>
        simp only [hlimiter]
        exact .stay
      | some limiter =>
        simp only [hlimiter, Option.bind_some, Report.recordedFor, if_true]
        rw [Desk.limiter_serve]
        exact .move hlimiter (Desk.move_serve ⟨limiter, clients.permits index⟩ now call)

/-- Units that are recorded for a key are recorded at some limiter. -/
theorem exists_recorded {clients : Clients} {key : String} {now : Int} {act : Act} {units : Nat}
    (h : (clients.serve now act).2.recordedFor key = some units) :
    ∃ index, clients.recorded now act = some (index, units) := by
  cases act with
  | ask asked ended => cases ended <;> cases h
  | sweep => cases h
  | call handle call =>
    cases hhanded : clients.handed[handle]? with
    | none =>
      rw [serve, hhanded] at h
      cases h
    | some entry =>
      obtain ⟨asked, index⟩ := entry
      have hasked : asked = key := by
        rw [serve, hhanded] at h
        cases hlimiter : clients.registry.limiters[index]? with
        | none =>
          simp only [hlimiter] at h
          cases h
        | some limiter =>
          simp only [hlimiter, Report.recordedFor] at h
          exact (Option.ite_none_right_eq_some.mp h).1
      subst hasked
      refine ⟨index, ?_⟩
      rw [recorded, hhanded, Option.bind_some, h]
      rfl

theorem Report.recordedFor_told (key : String) (answer : Desk.Answer) :
    (Report.told key answer).recordedFor key = answer.recorded := if_pos rfl

/-! ## Ledgers of runs -/

theorem recordingsFor_cons (key : String) (now : Int) (report : Report)
    (reports : List (Int × Report)) :
    recordingsFor key ((now, report) :: reports) =
      Window.entries now (report.recordedFor key) ++ recordingsFor key reports := rfl

/-- What a run adds to a ledger that is kept of what `tells` tells of each act. -/
def ledger (tells : Clients → Int → Act → Option Nat) (clients : Clients) :
    List (Int × Act) → List Recording
  | [] => []
  | (now, act) :: acts =>
    Window.entries now (tells clients now act) ++ (clients.serve now act).1.ledger tells acts

theorem recordingsFor_run (clients : Clients) (key : String) (acts : List (Int × Act)) :
    recordingsFor key (clients.run acts).2 =
      clients.ledger (fun clients now act => (clients.serve now act).2.recordedFor key) acts := by
  induction acts generalizing clients with
  | nil => rfl
  | cons event acts ih =>
    obtain ⟨now, act⟩ := event
    rw [run_cons, ledger, recordingsFor_cons, ih]

/-- **A run keeps to the plan** for a ledger if whatever this is kept of moves one window, which may
be forgotten when it counts nothing. -/
theorem keeps_ledger (view : Clients → Option Window) {tells : Clients → Int → Act → Option Nat}
    (hmoves : ∀ clients : Clients, clients.Tidy → ∀ now act,
      Moves clients.registry.policy.plan now (view clients) (tells clients now act)
        (view (clients.serve now act).1))
    {clients : Clients} (htidy : clients.Tidy) {last : Int} {told : List Recording}
    (h : Keeps clients.registry.policy.plan last (view clients) told) (acts : List (Int × Act))
    (hacts : (last :: readings acts).Pairwise (· ≤ ·)) :
    ∃ latest ∈ last :: readings acts, Keeps clients.registry.policy.plan latest
      (view (clients.run acts).1) (told ++ clients.ledger tells acts) := by
  induction acts generalizing last clients told with
  | nil =>
    refine ⟨last, List.mem_cons_self, ?_⟩
    rw [ledger, List.append_nil]
    exact h
  | cons event acts ih =>
    obtain ⟨now, act⟩ := event
    have hnow := (List.pairwise_cons.mp hacts).1 now List.mem_cons_self
    have hkept := (h.later hnow).moves (hmoves clients htidy now act)
    rw [← policy_serve clients now act] at hkept
    obtain ⟨latest, hlatest, hrest⟩ :=
      ih (htidy.serve now act) hkept (List.pairwise_cons.mp hacts).2
    rw [policy_serve, List.append_assoc] at hrest
    exact ⟨latest, List.mem_cons_of_mem last hlatest, hrest⟩

/-- What is recorded at the limiter that serves a key at that time. -/
def servingLedger (key : String) (clients : Clients) (acts : List (Int × Act)) : List Recording :=
  clients.ledger
    (fun clients now act => clients.registry.recordedFor key (clients.recorded now act)) acts

/-- What is recorded at one limiter, whether it serves a key or not. -/
def limiterLedger (index : Nat) (clients : Clients) (acts : List (Int × Act)) : List Recording :=
  clients.ledger (fun clients now act => Registry.recordedAt index (clients.recorded now act)) acts

section Bounds

variable {policy : Policy} {acts : List (Int × Act)}

theorem bounds_servingLedger (hacts : (readings acts).Pairwise (· ≤ ·)) (key : String) :
    policy.plan.Bounds ((new policy).servingLedger key acts) := by
  obtain ⟨last, hlast⟩ := exists_reading_before hacts
  obtain ⟨_, -, hkept⟩ := keeps_ledger (fun clients => clients.registry.window? key)
    (fun clients htidy now act => (clients.step_serve now act).moves_key htidy.registry key)
    (tidy_new policy) (keeps_new policy.plan last) acts hlast
  exact hkept.bounds

/-- What is recorded at a limiter is what its window accounts for. -/
theorem keeps_limiterLedger {last : Int} (hacts : (last :: readings acts).Pairwise (· ≤ ·))
    (index : Nat) :
    ∃ latest ∈ last :: readings acts, Keeps policy.plan latest
      (((new policy).run acts).1.registry.limiters[index]?.map Limiter.window)
      ((new policy).limiterLedger index acts) :=
  keeps_ledger (fun clients => clients.registry.limiters[index]?.map Limiter.window)
    (fun clients htidy now act => (clients.step_serve now act).moves_limiter htidy.registry index)
    (tidy_new policy) (keeps_new policy.plan last) acts hacts

theorem bounds_limiterLedger (hacts : (readings acts).Pairwise (· ≤ ·)) (index : Nat) :
    policy.plan.Bounds ((new policy).limiterLedger index acts) := by
  obtain ⟨last, hlast⟩ := exists_reading_before hacts
  obtain ⟨_, -, hkept⟩ := keeps_limiterLedger hlast index
  exact hkept.bounds

end Bounds

/-! ## Strays -/

/-- The limiter at which an act records units for a key although the limiter does not serve it. The
limiter was handed out for the key, and so it has been forgotten since. -/
def stray? (key : String) (clients : Clients) (now : Int) (act : Act) : Option Nat :=
  match (clients.serve now act).2.recordedFor key, clients.recorded now act with
  | some _, some (index, _) => if clients.registry.find? key = some index then none else some index
  | _, _ => none

/-- The limiters that let something through for a key from `start` to `finish` after they were
forgotten. -/
def strays (key : String) (start finish : Int) (clients : Clients) :
    List (Int × Act) → Finset Nat
  | [] => ∅
  | (now, act) :: acts =>
    let rest := (clients.serve now act).1.strays key start finish acts
    match clients.stray? key now act with
    | none => rest
    | some index => if start ≤ now ∧ now ≤ finish then insert index rest else rest

section Strays

variable {clients : Clients} {key : String} {now start finish : Int} {act : Act}
  {acts : List (Int × Act)}

theorem unitsWithin_entries_append (now : Int) (recorded : Option Nat) (rest : List Recording)
    (start finish : Int) :
    unitsWithin (Window.entries now recorded ++ rest) start finish =
      (if start ≤ now ∧ now ≤ finish then recorded.getD 0 else 0) +
        unitsWithin rest start finish := by
  rw [unitsWithin, unitsWithin, unitsWhere_append]
  cases recorded with
  | none => simp [Window.entries]
  | some units => simp [Window.entries, unitsWhere_singleton]

theorem strays_subset_cons : (clients.serve now act).1.strays key start finish acts ⊆
    clients.strays key start finish ((now, act) :: acts) := by
  rw [strays]
  split
  · exact Finset.Subset.refl _
  · split
    · exact Finset.subset_insert ..
    · exact Finset.Subset.refl _

theorem stray?_call_of_serves {handle index : Nat}
    (hhanded : clients.handed[handle]? = some (key, index))
    (hserves : clients.registry.find? key = some index) (now : Int) (call : Desk.Call) :
    clients.stray? key now (.call handle call) = none := by
  rw [stray?, recorded, hhanded, Option.bind_some]
  cases (clients.serve now (.call handle call)).2.recordedFor key with
  | none => rfl
  | some units => exact if_pos hserves

theorem strays_of_none (h : clients.stray? key now act = none) :
    clients.strays key start finish ((now, act) :: acts) =
      (clients.serve now act).1.strays key start finish acts := by
  rw [strays, h]

theorem strays_of_silent (h : (clients.serve now act).2.recordedFor key = none) :
    clients.strays key start finish ((now, act) :: acts) =
      (clients.serve now act).1.strays key start finish acts :=
  strays_of_none (by rw [stray?, h])

theorem card_strays_cons_le : (clients.strays key start finish ((now, act) :: acts)).card ≤
    ((clients.serve now act).1.strays key start finish acts).card + 1 := by
  rw [strays]
  split
  · exact Nat.le_succ _
  · split
    · exact Finset.card_insert_le ..
    · exact Nat.le_succ _

/-- Whatever is recorded for a key is recorded at the limiter that serves it, or at a stray. -/
theorem recordedFor_le (hspan : start ≤ now ∧ now ≤ finish) {limiters : Finset Nat}
    (hstrays : clients.strays key start finish ((now, act) :: acts) ⊆ limiters) :
    ((clients.serve now act).2.recordedFor key).getD 0 ≤
      (clients.registry.recordedFor key (clients.recorded now act)).getD 0 +
        limiters.sum fun index =>
          (Registry.recordedAt index (clients.recorded now act)).getD 0 := by
  cases hreport : (clients.serve now act).2.recordedFor key with
  | none => exact Nat.zero_le _
  | some units =>
    obtain ⟨index, hrecorded⟩ := exists_recorded hreport
    have hat : Registry.recordedAt index (some (index, units)) = some units :=
      Registry.recordedAt_map_self index (some units)
    rw [hrecorded]
    by_cases hserves : clients.registry.find? key = some index
    · rw [Registry.recordedFor_of_find? hserves, hat]
      exact Nat.le_add_right ..
    · have hstray : clients.stray? key now act = some index := by
        rw [stray?, hreport, hrecorded]
        exact if_neg hserves
      have hmem : index ∈ limiters := by
        refine hstrays ?_
        rw [strays, hstray]
        simp only [if_pos hspan]
        exact Finset.mem_insert_self ..
      have hone := Finset.single_le_sum
        (f := fun other => (Registry.recordedAt other (some (index, units))).getD 0)
        (fun _ _ => Nat.zero_le _) hmem
      rw [hat] at hone
      exact hone.trans (Nat.le_add_left ..)

/-- **What is let through for a key** is let through by the limiters that serve it in turn, and by
strays. -/
theorem unitsWithin_le_add_sum (acts : List (Int × Act)) {limiters : Finset Nat}
    (hstrays : clients.strays key start finish acts ⊆ limiters) :
    unitsWithin (recordingsFor key (clients.run acts).2) start finish ≤
      unitsWithin (clients.servingLedger key acts) start finish +
        limiters.sum fun index => unitsWithin (clients.limiterLedger index acts) start finish := by
  rw [recordingsFor_run]
  -- The sum runs over the same limiters in every step: the strays of the rest are among them.
  induction acts generalizing clients with
  | nil => exact Nat.zero_le _
  | cons event acts ih =>
    obtain ⟨now, act⟩ := event
    have hrest := ih (strays_subset_cons.trans hstrays)
    simp only [servingLedger, limiterLedger] at hrest ⊢
    simp only [ledger, unitsWithin_entries_append, Finset.sum_add_distrib]
    by_cases hspan : start ≤ now ∧ now ≤ finish
    · have hfirst := recordedFor_le hspan hstrays
      simp only [if_pos hspan]
      omega
    · simp only [if_neg hspan, Finset.sum_const_zero]
      omega

end Strays

/-! ## The bound -/

/-- **The rate of a key when forgotten limiters are held.** While the clock does not go back, a key
lets no more through in a closed span of time that is no longer than all segments but one than the
limit, and once more the limit for every limiter that lets something through in this span after it
was forgotten. With one such limiter at most, this is twice the limit. -/
theorem unitsWithin_strays_le (policy : Policy) (key : String) (acts : List (Int × Act))
    (hacts : (readings acts).Pairwise (· ≤ ·)) (start finish : Int)
    (hspan : finish - start ≤ ((policy.plan.segments - 1) * policy.plan.width : Nat)) :
    let units := unitsWithin (recordingsFor key ((new policy).run acts).2) start finish
    let forgotten := (new policy).strays key start finish acts
    units ≤ (1 + forgotten.card) * policy.plan.limit ∧
      (forgotten.card ≤ 1 → units ≤ 2 * policy.plan.limit) := by
  intro units forgotten
  have hserving : unitsWithin ((new policy).servingLedger key acts) start finish ≤
      policy.plan.limit := bounds_servingLedger hacts key start finish hspan
  have hforgotten : (forgotten.sum fun index =>
      unitsWithin ((new policy).limiterLedger index acts) start finish) ≤
        forgotten.card * policy.plan.limit :=
    Finset.sum_le_card_nsmul _ _ _ fun index _ =>
      bounds_limiterLedger hacts index start finish hspan
  have hunits : units ≤ (1 + forgotten.card) * policy.plan.limit :=
    calc units
        ≤ unitsWithin ((new policy).servingLedger key acts) start finish +
            forgotten.sum fun index =>
              unitsWithin ((new policy).limiterLedger index acts) start finish :=
          unitsWithin_le_add_sum acts (Finset.Subset.refl _)
      _ ≤ policy.plan.limit + forgotten.card * policy.plan.limit :=
          Nat.add_le_add hserving hforgotten
      _ = (1 + forgotten.card) * policy.plan.limit := by ring
  refine ⟨hunits, fun hone => hunits.trans ?_⟩
  exact Nat.mul_le_mul_right _ (by omega)

/-- A limiter is forgotten at once, and both it and the next one let a pair of units through: twice
the limit at a single instant. -/
theorem unitsWithin_strays_one_held :
    let acts : List (Int × Act) :=
      [(0, .ask "a" none), (0, .sweep), (0, .ask "a" none), (5, .call 0 (.request 2)),
        (5, .call 0 (.use 0)), (5, .call 1 (.request 2)), (5, .call 1 (.use 0))]
    let units := unitsWithin (recordingsFor "a" ((new .twoInTen).run acts).2) 0 6
    (new .twoInTen).strays "a" 0 6 acts = {0} ∧ units = 4 ∧ units ≤ 2 * 2 := by
  intro acts units
  have hstrays : (new .twoInTen).strays "a" 0 6 acts = {0} := by decide +kernel
  exact ⟨hstrays, by decide +kernel, (unitsWithin_strays_le .twoInTen "a" acts (by decide) 0 6
    (by decide)).2 (by rw [hstrays, Finset.card_singleton])⟩

/-- **More than twice the limit.** Two limiters are forgotten before anything is let through. All
three that were handed out for the key let a unit through at the same instant. -/
theorem three_units_at_once :
    let acts : List (Int × Act) :=
      [(0, .ask "k" none), (0, .sweep), (0, .ask "k" none), (0, .sweep), (0, .ask "k" none),
        (0, .call 0 .single), (0, .call 0 (.use 0)), (0, .call 1 .single), (0, .call 1 (.use 0)),
        (0, .call 2 .single), (0, .call 2 (.use 0))]
    let units := unitsWithin (recordingsFor "k" ((new .oneInTenSeconds).run acts).2) 0 0
    (readings acts).Pairwise (· ≤ ·) ∧ units = 3 ∧
      ¬units ≤ 2 * Policy.oneInTenSeconds.plan.limit := by
  refine ⟨by decide, by decide +kernel, by decide +kernel⟩

/-! ## The bound is reached -/

/-- A limiter is handed out and forgotten, and then all of its room is used. -/
def round (key : String) (units handle : Nat) : List (Int × Act) :=
  [(0, .ask key none), (0, .sweep), (0, .call handle (.request units)), (0, .call handle (.use 0))]

/-- Some rounds, from the limiter with the number `handle` on, and then all of the room of a limiter
that serves the key. -/
def rounds (key : String) (units handle : Nat) : Nat → List (Int × Act)
  | 0 => [(0, .ask key none), (0, .call handle (.request units)), (0, .call handle (.use 0))]
  | count + 1 => round key units handle ++ rounds key units (handle + 1) count

theorem eq_zero_of_mem_rounds {key : String} {units handle count : Nat} {event : Int × Act}
    (h : event ∈ rounds key units handle count) : event.1 = 0 := by
  induction count generalizing handle with
  | zero =>
    simp only [rounds, List.mem_cons, List.not_mem_nil, or_false] at h
    rcases h with rfl | rfl | rfl <;> rfl
  | succ count ih =>
    rcases List.mem_append.mp h with hround | hrest
    · simp only [round, List.mem_cons, List.not_mem_nil, or_false] at hround
      rcases hround with rfl | rfl | rfl | rfl <;> rfl
    · exact ih hrest

section Call

variable {clients : Clients} {key : String} {handle index units : Nat} {limiter : Limiter}

/-- What a call leaves at the desk of its limiter, and what it is told. -/
theorem desk_call (hhanded : clients.handed[handle]? = some (key, index))
    (hlimiter : clients.registry.limiters[index]? = some limiter) (now : Int) (call : Desk.Call) :
    let served := Desk.serve ⟨limiter, clients.permits index⟩ now call
    let after := clients.serve now (.call handle call)
    after.1.registry.limiters[index]? = some served.1.limiter ∧
      after.1.permits index = served.1.permits ∧ after.2 = .told key served.2 := by
  intro served after
  have hafter : after = _ := serve_call hhanded hlimiter now call
  rw [hafter]
  refine ⟨?_, if_pos rfl, rfl⟩
  rw [Registry.limiters_put, if_pos rfl, hlimiter]
  rfl

theorem find?_call (clients : Clients) (now : Int) (handle : Nat) (call : Desk.Call) :
    (clients.serve now (.call handle call)).1.registry.find? key = clients.registry.find? key := by
  rw [serve]
  split
  · rfl
  · split <;> rfl

/-- All of the room of a limiter that was just made can be used. -/
theorem serve_request_use {policy : Policy} (hhanded : clients.handed[handle]? = some (key, index))
    (hlimiter : clients.registry.limiters[index]? = some (policy.make 0))
    (hissued : clients.permits index = []) :
    let limit := policy.plan.limit
    let requested := clients.serve 0 (.call handle (.request limit))
    requested.2 = .told key .issued ∧
      (requested.1.serve 0 (.call handle (.use 0))).2 = .told key (.used limit none) := by
  intro limit requested
  have hrequest : Desk.serve ⟨policy.make 0, []⟩ 0 (.request limit) =
      (⟨policy.make 0, [⟨limit, false⟩]⟩, .issued) := by
    have hsome : limit ≠ 0 := policy.plan.limit_pos.ne'
    have hfits : ¬(policy.make 0).limit < limit := Nat.lt_irrefl limit
    rw [Desk.serve, Limiter.request, if_neg hsome, if_neg hfits]
    rfl
  have hroom : limit ≤ ((policy.make 0).window.advance 0).available := by
    rw [Window.available, Window.total_advance]
    simp [Policy.make_eq, limit]
  obtain ⟨hlimiter', hpermits', htold⟩ := desk_call hhanded hlimiter 0 (.request limit)
  rw [hissued, hrequest] at hlimiter' hpermits' htold
  have hhanded' : requested.1.handed[handle]? = some (key, index) := by rwa [handed_call]
  obtain ⟨-, -, htold'⟩ := desk_call hhanded' hlimiter' 0 (.use 0)
  rw [hpermits', Desk.serve_use_eq rfl, if_pos hroom] at htold'
  exact ⟨htold, htold'⟩

end Call

/-- Nothing serves the key, and so many limiters were handed out. -/
structure Vacant (key : String) (handle : Nat) (clients : Clients) : Prop where
  orderly : clients.Orderly
  find? : clients.registry.find? key = none
  handed : clients.handed.length = handle

namespace Vacant

variable {key : String} {handle : Nat} {clients : Clients}

/-- Who asks is handed a limiter that has all of its room and has issued no permits. -/
theorem ask (h : Vacant key handle clients) :
    let asked := (clients.serve 0 (.ask key none)).1
    ∃ index, asked.registry.find? key = some index ∧ asked.handed[handle]? = some (key, index) ∧
      asked.registry.limiters[index]? = some (clients.registry.policy.make 0) ∧
      asked.permits index = [] := by
  have hfind := h.find?
  refine ⟨clients.registry.limiters.size, ?_, ?_, ?_, h.orderly.unissued _ (Nat.le_refl _)⟩
  · change (clients.registry.limiterFor key 0).1.find? key = _
    rw [Registry.find?_limiterFor, Registry.limiterFor_of_none hfind]
  · change (clients.handed ++ [(key, (clients.registry.limiterFor key 0).2)])[handle]? = _
    rw [← h.handed, List.getElem?_concat_length, Registry.limiterFor_of_none hfind]
  · change (clients.registry.limiterFor key 0).1.limiters[_]? = _
    rw [Registry.limiterFor_of_none hfind, Array.getElem?_push_size]

/-- A limiter that nothing was let through by is forgotten in the next sweep, and is left as it
was. -/
theorem ask_sweep (h : Vacant key handle clients) :
    let swept := ((clients.serve 0 (.ask key none)).1.serve 0 .sweep).1
    swept.registry.find? key = none ∧
      ∃ index, swept.handed[handle]? = some (key, index) ∧
        swept.registry.limiters[index]? = some (clients.registry.policy.make 0) ∧
        swept.permits index = [] := by
  obtain ⟨index, hfind, hhanded, hlimiter, hpermits⟩ := h.ask
  have htidy := (h.orderly.ask 0 key).tidy.registry
  have hwindow := Registry.window?_of_find? hfind
  rw [hlimiter] at hwindow
  refine ⟨?_, index, hhanded, ?_, hpermits⟩
  · refine (Registry.find?_sweep htidy hfind hwindow 0).trans (if_pos ?_)
    rw [Window.total_advance, Policy.make_eq]
    exact Window.left_fresh ..
  · have hmem := List.mem_map_of_mem (f := Prod.snd) (Registry.mem_of_find? hfind)
    have hfresh : (clients.registry.policy.make 0).window.advance 0 =
        (clients.registry.policy.make 0).window := by
      refine Window.advance_eq_self ?_
      have hwidth := clients.registry.policy.plan.width_pos
      change (0 : Int) < 0 + (clients.registry.policy.plan.width : Nat)
      omega
    refine (Registry.limiters_sweep htidy 0 index).trans ?_
    rw [if_pos hmem, hlimiter, Option.map_some, Limiter.advance, hfresh]

/-- A round lets as many units through as the limit, by one stray. -/
theorem run_round (h : Vacant key handle clients) (rest : List (Int × Act)) :
    let limit := clients.registry.policy.plan.limit
    let acts := round key limit handle ++ rest
    ∃ after : Clients, Vacant key (handle + 1) after ∧
      after.registry.policy = clients.registry.policy ∧
      recordingsFor key (clients.run acts).2 = ⟨0, limit⟩ :: recordingsFor key (after.run rest).2 ∧
      (clients.strays key 0 0 acts).card ≤ (after.strays key 0 0 rest).card + 1 := by
  intro limit acts
  obtain ⟨hfind, index, hhanded, hlimiter, hpermits⟩ := h.ask_sweep
  obtain ⟨hrequested, hused⟩ := serve_request_use hhanded hlimiter hpermits
  have hissued := (congrArg (Report.recordedFor key) hrequested).trans (Report.recordedFor_told ..)
  let swept := ((clients.serve 0 (.ask key none)).1.serve 0 .sweep).1
  let requested := (swept.serve 0 (.call handle (.request limit))).1
  refine ⟨(requested.serve 0 (.call handle (.use 0))).1, ⟨?_, ?_, ?_⟩, ?_, ?_, ?_⟩
  · exact (((h.orderly.serve 0 _).serve 0 _).serve 0 _).serve 0 _
  · rw [find?_call, find?_call, hfind]
  · rw [handed_call, handed_call]
    change (clients.handed ++ [_]).length = handle + 1
    rw [List.length_append, h.handed]
    rfl
  · simp only [requested, swept, policy_serve]
  · simp only [acts, round, List.cons_append, List.nil_append, run_cons, recordingsFor_cons]
    rw [hrequested, hused, Report.recordedFor_told, Report.recordedFor_told]
    rfl
  · simp only [acts, round, List.cons_append, List.nil_append]
    rw [strays_of_silent rfl, strays_of_silent rfl, strays_of_silent hissued]
    exact card_strays_cons_le ..

/-- What serves the key lets as many units through, and there are no strays. -/
theorem run_last (h : Vacant key handle clients) :
    let limit := clients.registry.policy.plan.limit
    recordingsFor key (clients.run (rounds key limit handle 0)).2 = [⟨0, limit⟩] ∧
      clients.strays key 0 0 (rounds key limit handle 0) = ∅ := by
  intro limit
  obtain ⟨index, hfind, hhanded, hlimiter, hpermits⟩ := h.ask
  obtain ⟨hrequested, hused⟩ := serve_request_use hhanded hlimiter hpermits
  have hissued := (congrArg (Report.recordedFor key) hrequested).trans (Report.recordedFor_told ..)
  constructor
  · simp only [rounds, run_cons, recordingsFor_cons]
    rw [hrequested, hused, Report.recordedFor_told, Report.recordedFor_told]
    rfl
  · rw [rounds, strays_of_silent rfl, strays_of_silent hissued]
    have hserves : ((clients.serve 0 (.ask key none)).1.serve 0
        (.call handle (.request limit))).1.registry.find? key = some index := by
      rw [find?_call, hfind]
    have hhanded' : ((clients.serve 0 (.ask key none)).1.serve 0
        (.call handle (.request limit))).1.handed[handle]? = some (key, index) := by
      rwa [handed_call]
    rw [strays_of_none (stray?_call_of_serves hhanded' hserves 0 (.use 0))]
    rfl

theorem run_rounds {limit : Nat} (hlimit : clients.registry.policy.plan.limit = limit)
    (h : Vacant key handle clients) (count : Nat) :
    recordingsFor key (clients.run (rounds key limit handle count)).2 =
        List.replicate (1 + count) ⟨0, limit⟩ ∧
      (clients.strays key 0 0 (rounds key limit handle count)).card ≤ count := by
  subst hlimit
  induction count generalizing handle clients with
  | zero =>
    obtain ⟨hrecordings, hstrays⟩ := h.run_last
    rw [hrecordings, hstrays]
    exact ⟨rfl, Nat.le_refl 0⟩
  | succ count ih =>
    obtain ⟨after, hafter, hpolicy, hrecordings, hcard⟩ :=
      h.run_round (rounds key clients.registry.policy.plan.limit (handle + 1) count)
    obtain ⟨hrest, hless⟩ := ih hafter
    rw [hpolicy] at hrest hless
    rw [rounds, hrecordings, hrest]
    exact ⟨rfl, hcard.trans (Nat.succ_le_succ hless)⟩

end Vacant

/-- **The bound is reached** for any number of strays, at a single instant. So no multiple of the
limit bounds what a key lets through when forgotten limiters are held. -/
theorem exists_units_eq (policy : Policy) (key : String) (count : Nat) :
    ∃ acts : List (Int × Act), (∀ event ∈ acts, event.1 = 0) ∧
      ((new policy).strays key 0 0 acts).card ≤ count ∧
      unitsWithin (recordingsFor key ((new policy).run acts).2) 0 0 =
        (1 + count) * policy.plan.limit := by
  have hvacant : Vacant key 0 (new policy) := ⟨orderly_new policy, rfl, rfl⟩
  obtain ⟨hrecordings, hcard⟩ := hvacant.run_rounds rfl count
  refine ⟨_, fun event hevent => eq_zero_of_mem_rounds hevent, hcard, ?_⟩
  rw [hrecordings]
  simp [unitsWithin, unitsWhere, new, Registry.empty]

end Clients

end Throttle
