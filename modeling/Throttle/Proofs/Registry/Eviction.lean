import Throttle.Proofs.Registry.Visitors

/-!
# What sweeps change

A limiter that is forgotten in a sweep counts nothing, as a fresh one does. But its segments start
at other instants than those of the fresh one that takes its place, and so what is recorded next is
turned out earlier or later than it would have been. Here a run that is served with sweeps is
compared with the same run served without them.

## Main definitions

* `Visitors.Shadow` — how the registry that is swept is related to the one that is not.

## Main statements

* `Visitors.decisions_swept` — as long as whatever is recorded falls in segments that start at the
  same instants, sweeps change no decision; and from the first recording on of which this is not so,
  a single question about the room that is left can tell the registries apart.
* `Visitors.sweep_changes_decision` — a sweep after which a permit is refused that could have been
  used without it.
-/

namespace Throttle

namespace Visitors

/-! ## The windows of one key -/

/-- What serves a key at the reading `now`, in a registry that is not swept and in one that is. The
sweeps have taken away a window that counts nothing, or else the two windows are twins. -/
inductive Counterparts (now : Int) : Option Window → Option Window → Prop
  | absent : Counterparts now none none
  | forgotten {window : Window} (start_le : window.start ≤ now) (withinLimit : window.WithinLimit)
      (empty : (window.advance now).total = 0) : Counterparts now (some window) none
  | twins {first second : Window} (twins : first.Twins now second) :
      Counterparts now (some first) (some second)

namespace Counterparts

variable {now : Int} {plain? swept? : Option Window}

theorem later {later : Int} (h : Counterparts now plain? swept?) (hlater : now ≤ later) :
    Counterparts later plain? swept? := by
  cases h with
  | absent => exact .absent
  | forgotten start_le withinLimit empty =>
    refine .forgotten (Int.le_trans start_le hlater) withinLimit ?_
    rename_i window
    have hless := window.left_antitone (window.turnsAt_mono hlater)
    rw [← Window.total_advance, ← Window.total_advance, empty] at hless
    exact Nat.le_zero.mp hless
  | twins twins => exact .twins (twins.later hlater)

/-- Where a window was taken away, a fresh one is its twin. -/
theorem getD_fresh {plan : Plan} (h : Counterparts now plain? swept?)
    (hplan : ∀ window, plain? = some window → window.plan = plan) :
    (plain?.getD (Window.fresh plan now)).Twins now (swept?.getD (Window.fresh plan now)) := by
  cases h with
  | absent =>
    have hlimit := Window.withinLimit_fresh plan now
    exact ⟨.refl _ _, ⟨Int.le_refl now, Int.le_refl now⟩, ⟨hlimit, hlimit⟩⟩
  | forgotten start_le withinLimit empty =>
    rw [← hplan _ rfl]
    exact .of_total_eq_zero start_le withinLimit empty
  | twins twins => exact twins

/-- A sweep takes away a window that counts nothing; its counterpart counts nothing either. -/
theorem sweep (h : Counterparts now plain? swept?) :
    Counterparts now plain? (swept?.bind fun window =>
      if (window.advance now).total = 0 then none else some (window.advance now)) := by
  cases h with
  | absent => exact .absent
  | forgotten start_le withinLimit empty => exact .forgotten start_le withinLimit empty
  | twins twins =>
    rw [Option.bind_some]
    split
    · rename_i hempty
      have hsame := twins.agrees.total_eq (Int.le_refl now)
      exact .forgotten twins.start_le.1 twins.withinLimit.1 (hsame.trans hempty)
    · exact .twins (twins.move .stay .turn (.inl rfl))

end Counterparts

/-! ## The two registries -/

/-- A registry that was not swept and one that was, after the same visits until `now`. -/
structure Shadow (now : Int) (plain swept : Visitors) : Prop where
  tidy_plain : plain.registry.Tidy
  tidy_swept : swept.registry.Tidy
  policy_eq : plain.registry.policy = swept.registry.policy
  permits_eq : plain.permits = swept.permits
  permits_pos : ∀ key, ∀ permit ∈ swept.permits key, 0 < permit.units
  counterparts : ∀ key,
    Counterparts now (plain.registry.window? key) (swept.registry.window? key)

theorem shadow_new (policy : Policy) (now : Int) : Shadow now (new policy) (new policy) where
  tidy_plain := Registry.tidy_empty policy
  tidy_swept := Registry.tidy_empty policy
  policy_eq := rfl
  permits_eq := rfl
  permits_pos := by simp [new]
  counterparts _ := .absent

namespace Shadow

variable {now : Int} {plain swept : Visitors}

theorem later {later : Int} (h : Shadow now plain swept) (hlater : now ≤ later) :
    Shadow later plain swept :=
  { h with counterparts := fun key => (h.counterparts key).later hlater }

theorem twins_desk (h : Shadow now plain swept) (key : String) :
    (plain.desk key now).limiter.window.Twins now (swept.desk key now).limiter.window := by
  rw [window_desk now key h.tidy_plain, window_desk now key h.tidy_swept, ← h.policy_eq]
  exact (h.counterparts key).getD_fresh fun _ hwindow => h.tidy_plain.plan_window? hwindow

theorem permits_desk (h : Shadow now plain swept) (key : String) :
    (plain.desk key now).permits = (swept.desk key now).permits :=
  congrFun h.permits_eq key

/-- At the next visit the same is decided. -/
theorem decision_eq (h : Shadow now plain swept) (visit : Visit) :
    (swept.serve true now visit).2.bind Desk.Answer.decision =
      (plain.serve false now visit).2.bind Desk.Answer.decision := by
  cases visit with
  | enter key ended => cases ended <;> rfl
  | call key call =>
    exact (Desk.serve_of_agrees (h.permits_desk key) (h.twins_desk key).agrees call).2.symm
  | pause => rfl

theorem recorded_eq (h : Shadow now plain swept) (key : String) (call : Desk.Call) :
    ((plain.desk key now).serve now call).2.recorded =
      ((swept.desk key now).serve now call).2.recorded := by
  rw [Desk.Answer.recorded_eq, Desk.Answer.recorded_eq,
    (Desk.serve_of_agrees (h.permits_desk key) (h.twins_desk key).agrees call).2]

/-- What a call makes of the two windows, each a move that records the same. -/
theorem move_plain (h : Shadow now plain swept) (key : String) (call : Desk.Call) :
    Window.Move now (plain.desk key now).limiter.window
      ((swept.desk key now).serve now call).2.recorded
      ((plain.desk key now).serve now call).1.limiter.window :=
  h.recorded_eq key call ▸ (plain.desk key now).move_serve now call

/-- A call whose recording, if there is one, falls in segments that start at the same instant. -/
theorem call (h : Shadow now plain swept) (key : String) (call : Desk.Call)
    (haligned : plain.alignedAt swept now (.call key call)) :
    Shadow now (plain.serve false now (.call key call)).1
      (swept.serve true now (.call key call)).1 where
  tidy_plain := tidy_serve now false h.tidy_plain _
  tidy_swept := tidy_serve now true h.tidy_swept _
  policy_eq := by rw [policy_serve, policy_serve, h.policy_eq]
  permits_eq := by
    have hserved := (Desk.serve_of_agrees (h.permits_desk key) (h.twins_desk key).agrees call).1
    simp only [serve, hserved, h.permits_eq]
  permits_pos other := by
    simp only [serve]
    split
    · exact Desk.forall_permits_serve _ now call (fun _ hpos _ => hpos) (h.permits_pos key)
    · exact h.permits_pos other
  counterparts other := by
    by_cases heq : other = key
    · subst heq
      rw [window?_call now other call false h.tidy_plain,
        window?_call now other call true h.tidy_swept]
      exact .twins ((h.twins_desk other).move (h.move_plain other call)
        ((swept.desk other now).move_serve now call) (of_decide_eq_true haligned))
    · rw [window?_call_of_ne now key call false h.tidy_plain heq,
        window?_call_of_ne now key call true h.tidy_swept heq]
      exact h.counterparts other

theorem enter (h : Shadow now plain swept) (key : String) :
    Shadow now (plain.serve false now (.enter key none)).1
      (swept.serve true now (.enter key none)).1 where
  tidy_plain := tidy_serve now false h.tidy_plain _
  tidy_swept := tidy_serve now true h.tidy_swept _
  policy_eq := by rw [policy_serve, policy_serve, h.policy_eq]
  permits_eq := h.permits_eq
  permits_pos := h.permits_pos
  counterparts other := by
    simp only [serve]
    by_cases heq : other = key
    · subst heq
      rw [Registry.window?_limiterFor h.tidy_plain, Registry.window?_limiterFor h.tidy_swept,
        ← h.policy_eq]
      exact .twins ((h.counterparts other).getD_fresh fun _ hwindow =>
        h.tidy_plain.plan_window? hwindow)
    · rw [Registry.window?_limiterFor_of_ne h.tidy_plain heq,
        Registry.window?_limiterFor_of_ne h.tidy_swept heq]
      exact h.counterparts other

theorem pause (h : Shadow now plain swept) :
    Shadow now (plain.serve false now .pause).1 (swept.serve true now .pause).1 where
  tidy_plain := h.tidy_plain
  tidy_swept := h.tidy_swept.sweep now
  policy_eq := h.policy_eq
  permits_eq := rfl
  permits_pos := by simp [serve]
  counterparts key := by
    rw [window?_pause now key h.tidy_swept]
    exact (h.counterparts key).sweep

/-- **One visit**, with its sweep and without it. -/
theorem serve (h : Shadow now plain swept) (visit : Visit)
    (haligned : plain.alignedAt swept now visit) :
    Shadow now (plain.serve false now visit).1 (swept.serve true now visit).1 := by
  cases visit with
  | enter key ended =>
    cases ended with
    | some reason => exact h
    | none => exact h.enter key
  | call key call => exact h.call key call haligned
  | pause => exact h.pause

/-- A recording that falls in segments with different starts leaves different room at some
instant. -/
theorem exists_room_ne (h : Shadow now plain swept) {visit : Visit}
    (hmisaligned : plain.alignedAt swept now visit = false) : ∃ key later, now ≤ later ∧
      ((swept.serve true now visit).1.serve true later (.call key (.available none))).2.bind
          Desk.Answer.decision ≠
        ((plain.serve false now visit).1.serve false later (.call key (.available none))).2.bind
          Desk.Answer.decision := by
  cases visit with
  | enter key ended => cases hmisaligned
  | pause => cases hmisaligned
  | call key call =>
    have hnot := of_decide_eq_false hmisaligned
    obtain ⟨hsome, hgrid⟩ := not_or.mp hnot
    obtain ⟨units, hunits⟩ := Option.ne_none_iff_exists'.mp hsome
    obtain ⟨permit, hmem, rfl⟩ := Desk.mem_of_recorded_serve hunits
    have hplain := h.move_plain key call
    have hswept := (swept.desk key now).move_serve now call
    rw [hunits] at hplain hswept
    obtain ⟨later, hlater, hne⟩ :=
      (h.twins_desk key).exists_available_ne (h.permits_pos key permit hmem) hplain hswept hgrid
    refine ⟨key, later, hlater, fun heq => hne ?_⟩
    have hroom : ∀ (sweeps : Bool) {visitors : Visitors} {window : Window},
        visitors.registry.Tidy → visitors.registry.window? key = some window →
        (visitors.serve sweeps later (.call key (.available none))).2.bind Desk.Answer.decision =
          some (.room (window.advance later).available) := by
      intro sweeps visitors window htidy hwindow
      have hdesk := window_desk later key htidy
      rw [hwindow, Option.getD_some] at hdesk
      rw [← hdesk]
      rfl
    rw [hroom true (tidy_serve now true h.tidy_swept _)
        (window?_call now key call true h.tidy_swept),
      hroom false (tidy_serve now false h.tidy_plain _)
        (window?_call now key call false h.tidy_plain)] at heq
    exact (Desk.Answer.room.inj (Option.some.inj heq)).symm

/-! ## Runs -/

/-- An aligned run is decided alike. -/
theorem decisions_eq (h : Shadow now plain swept) (visits : List (Int × Visit))
    (hvisits : (now :: readings visits).Pairwise (· ≤ ·)) (haligned : plain.aligned swept visits) :
    decisions (swept.run true visits) = decisions (plain.run false visits) := by
  induction visits generalizing now plain swept with
  | nil => rfl
  | cons event visits ih =>
    obtain ⟨reading, visit⟩ := event
    rw [aligned, Bool.and_eq_true] at haligned
    have hnow := h.later ((List.pairwise_cons.mp hvisits).1 reading List.mem_cons_self)
    have hrest := ih (hnow.serve visit haligned.1) (List.pairwise_cons.mp hvisits).2 haligned.2
    exact congrArg₂ List.cons (hnow.decision_eq visit) hrest

/-- In a run that is not aligned there is a place from which on the registries can be told apart. -/
theorem exists_decisions_ne (h : Shadow now plain swept) (visits : List (Int × Visit))
    (hvisits : (now :: readings visits).Pairwise (· ≤ ·))
    (hmisaligned : plain.aligned swept visits = false) :
    ∃ front back key later, visits = front ++ back ∧
      (now :: readings (front ++ [(later, .call key (.available none))])).Pairwise (· ≤ ·) ∧
      decisions (swept.run true (front ++ [(later, .call key (.available none))])) ≠
        decisions (plain.run false (front ++ [(later, .call key (.available none))])) := by
  induction visits generalizing now plain swept with
  | nil => cases hmisaligned
  | cons event visits ih =>
    obtain ⟨reading, visit⟩ := event
    have hreading := (List.pairwise_cons.mp hvisits).1 reading List.mem_cons_self
    have hnow := h.later hreading
    rw [aligned] at hmisaligned
    cases hat : plain.alignedAt swept reading visit with
    | false =>
      -- The recording is made in different segments: asking at the right instant shows it.
      obtain ⟨key, later, hlater, hne⟩ := hnow.exists_room_ne hat
      refine ⟨[(reading, visit)], visits, key, later, rfl, ?_, fun heq => hne ?_⟩
      · simp only [readings, List.cons_append, List.nil_append, List.map_cons, List.map_nil]
        exact List.pairwise_cons.mpr ⟨by simp; omega, by simpa using hlater⟩
      · exact (List.cons.inj (List.cons.inj heq).2).1
    | true =>
      rw [hat, Bool.true_and] at hmisaligned
      obtain ⟨front, back, key, later, rfl, hfront, hne⟩ :=
        ih (hnow.serve visit hat) (List.pairwise_cons.mp hvisits).2 hmisaligned
      refine ⟨(reading, visit) :: front, back, key, later, rfl, ?_, fun heq => hne ?_⟩
      · refine List.pairwise_cons.mpr ⟨fun instant hinstant => ?_, hfront⟩
        rcases List.mem_cons.mp hinstant with rfl | hinstant
        · exact hreading
        · exact Int.le_trans hreading ((List.pairwise_cons.mp hfront).1 instant hinstant)
      · exact (List.cons.inj heq).2

end Shadow

/-- **What sweeps change.** While the clock does not go back: if whatever is recorded in a run falls
in segments that start at the same instants with sweeps and without them, then every decision is the
same with them and without them. If not, then the run has a beginning after which somebody who asks
for the room of a key at some later instant is told something else with sweeps than without them. -/
theorem decisions_swept (policy : Policy) (visits : List (Int × Visit))
    (hvisits : (readings visits).Pairwise (· ≤ ·)) :
    ((new policy).aligned (new policy) visits = true →
      decisions ((new policy).run true visits) = decisions ((new policy).run false visits)) ∧
    ((new policy).aligned (new policy) visits = false →
      ∃ front back key later, visits = front ++ back ∧
        (readings (front ++ [(later, .call key (.available none))])).Pairwise (· ≤ ·) ∧
        decisions ((new policy).run true (front ++ [(later, .call key (.available none))])) ≠
          decisions ((new policy).run false (front ++ [(later, .call key (.available none))]))) := by
  obtain ⟨last, hlast⟩ := exists_reading_before hvisits
  have hnew := shadow_new policy last
  refine ⟨hnew.decisions_eq visits hlast, fun hmisaligned => ?_⟩
  obtain ⟨front, back, key, later, heq, hfront, hne⟩ :=
    hnew.exists_decisions_ne visits hlast hmisaligned
  exact ⟨front, back, key, later, heq, (List.pairwise_cons.mp hfront).2, hne⟩

/-- A limiter that was made at 0 is forgotten at 5 seconds, when a segment of the old one starts as
well; what is then recorded is turned out at the same instant. -/
theorem decisions_swept_on_grid :
    let visits : List (Int × Visit) :=
      [(0, .enter "k" none), (5 * Time.second, .pause), (5 * Time.second, .call "k" .single),
        (5 * Time.second, .call "k" (.use 0)), (11 * Time.second, .call "k" .single),
        (11 * Time.second, .call "k" (.use 1)), (15 * Time.second, .call "k" (.use 1))]
    (readings visits).Pairwise (· ≤ ·) ∧
      decisions ((new .oneInTenSeconds).run true visits) =
        decisions ((new .oneInTenSeconds).run false visits) := by
  intro visits
  have hvisits : (readings visits).Pairwise (· ≤ ·) := by decide
  exact ⟨hvisits, (decisions_swept .oneInTenSeconds visits hvisits).1 (by decide +kernel)⟩

/-- **A sweep changes a decision.** A limiter that was made at 0 is forgotten at 4 seconds. A unit
is let through at once, by a fresh limiter, and fills it until 14 seconds; without the sweep it would
have filled the old limiter until 10 seconds only. At 11 seconds another permit is refused. -/
theorem sweep_changes_decision :
    let visits : List (Int × Visit) :=
      [(0, .enter "k" none), (4 * Time.second, .pause), (4 * Time.second, .call "k" .single),
        (4 * Time.second, .call "k" (.use 0)), (11 * Time.second, .call "k" .single),
        (11 * Time.second, .call "k" (.use 1))]
    (readings visits).Pairwise (· ≤ ·) ∧
      decisions ((new .oneInTenSeconds).run true visits) =
        [none, none, some .issued, some (.used 1 none), some .issued,
          some (.used 1 (some .noRoom))] ∧
      decisions ((new .oneInTenSeconds).run false visits) =
        [none, none, some .issued, some (.used 1 none), some .issued, some (.used 1 none)] := by
  refine ⟨by decide, by decide +kernel, by decide +kernel⟩

end Visitors

end Throttle
