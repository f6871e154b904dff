import Throttle.Proofs.Registry.Clients

/-!
# The rate bound of a key

A key may be served by many limiters in turn: each is forgotten in a sweep when its window counts
nothing, and another one is made when the key is asked for again. All of them together let no more
through than one limiter would in a span of its reach, provided that nobody goes on with a limiter
that may have been forgotten.

A window that is forgotten counts nothing, so whatever was let through for the key lies further back
than the reach; and then the fresh window that takes its place represents the same ledger.
-/

namespace Throttle.Clients

/-- The clients have kept to the plan for a key until the clock showed `last`: the ledger holds what
was let through for the key, and the window that serves it now, if there is one, represents it. -/
structure Keeps (plan : Plan) (last : Int) (window? : Option Window) (ledger : List Recording) :
    Prop where
  represents : ∀ window, window? = some window →
    window.plan = plan ∧ window.Represents ledger ∧ window.WithinLimit ∧ window.start ≤ last
  absent : window? = none → unitsSince ledger (last - plan.reach) = 0
  instant_le : ∀ entry ∈ ledger, entry.instant ≤ last
  bounds : plan.Bounds ledger

theorem keeps_new (plan : Plan) (last : Int) : Keeps plan last none [] where
  represents := by simp
  absent _ := rfl
  instant_le := by simp
  bounds := Plan.bounds_nil plan

theorem Keeps.later {plan : Plan} {last now : Int} {window? : Option Window}
    {ledger : List Recording} (h : Keeps plan last window? ledger) (hnow : last ≤ now) :
    Keeps plan now window? ledger where
  represents window hw := by
    obtain ⟨hplan, hrepresents, hlimit, hstart⟩ := h.represents window hw
    exact ⟨hplan, hrepresents, hlimit, Int.le_trans hstart hnow⟩
  absent hnone := by
    have hless := unitsSince_antitone ledger (Int.sub_le_sub_right hnow plan.reach)
    rw [h.absent hnone] at hless
    exact Nat.le_zero.mp hless
  instant_le entry hentry := Int.le_trans (h.instant_le entry hentry) hnow
  bounds := h.bounds

theorem instant_le_of_mem_entries {now : Int} {recorded : Option Nat} {entry : Recording}
    (h : entry ∈ Window.entries now recorded) : entry.instant = now := by
  cases recorded with
  | none => cases h
  | some units => rw [List.mem_singleton.mp h]

theorem recorded_of_mem_entries {now : Int} {recorded : Option Nat} {entry : Recording}
    (h : entry ∈ Window.entries now recorded) : recorded = some entry.units := by
  cases recorded with
  | none => cases h
  | some units => rw [List.mem_singleton.mp h]

/-- One act: what it lets through for the key goes to the ledger. -/
theorem Keeps.moves {plan : Plan} {now : Int} {before after : Option Window}
    {recorded : Option Nat} {ledger : List Recording} (h : Keeps plan now before ledger)
    (hmoves : Moves plan now before recorded after) :
    Keeps plan now after (ledger ++ Window.entries now recorded) := by
  cases hmoves with
  | absent => simpa [Window.entries] using h
  | made =>
    have hw := plan.width_pos
    have hfresh : (Window.fresh plan now).Represents ledger :=
      Window.represents_fresh (h.absent rfl) fun entry hentry => by
        have := h.instant_le entry hentry
        omega
    simp only [Window.entries, Option.map_none, Option.toList_none, List.append_nil]
    refine ⟨fun window hwindow => ?_, by simp, h.instant_le, h.bounds⟩
    obtain rfl := Option.some.inj hwindow
    exact ⟨rfl, hfresh, Window.withinLimit_fresh plan now, Int.le_refl _⟩
  | moved move =>
    obtain ⟨hplan, hrepresents, hlimit, hstart⟩ := h.represents _ rfl
    refine ⟨fun window hwindow => ?_, by simp, fun entry hentry => ?_, ?_⟩
    · obtain rfl := Option.some.inj hwindow
      exact ⟨move.plan_eq.trans hplan, hrepresents.move hlimit hstart move, hlimit.move move,
        move.start_le hstart⟩
    · rcases List.mem_append.mp hentry with hentry | hentry
      · exact h.instant_le entry hentry
      · exact Int.le_of_eq (instant_le_of_mem_entries hentry)
    · exact hplan ▸ hrepresents.bounds_move hlimit hstart (hplan ▸ h.bounds) move
  | forgotten hempty =>
    rename_i window
    -- Nothing is counted: the ledger holds nothing since the start of the oldest segment.
    obtain ⟨hplan, hrepresents, -, hstart⟩ := h.represents window rfl
    have hcounted := (hrepresents.advance hstart).unitsSince_le (now - plan.reach)
      (by rw [Window.plan_advance, hplan]; have := Window.start_advance_le hstart; omega)
    rw [hempty] at hcounted
    simp only [Window.entries, Option.map_none, Option.toList_none, List.append_nil]
    exact ⟨by simp, fun _ => Nat.le_zero.mp hcounted, h.instant_le, h.bounds⟩

/-- A run keeps to the plan for a key if the use of the key's permits is prompt. -/
theorem Keeps.run {key : String} {last : Int} {clients : Clients} {ledger : List Recording}
    (htidy : clients.Tidy)
    (h : Keeps clients.registry.policy.plan last (clients.registry.window? key) ledger)
    (acts : List (Int × Act)) (hacts : (last :: readings acts).Pairwise (· ≤ ·))
    (hprompt : clients.prompt key acts) :
    clients.registry.policy.plan.Bounds (ledger ++ recordingsFor key (clients.run acts).2) := by
  induction acts generalizing last clients ledger with
  | nil => simpa [recordingsFor, Clients.run] using h.bounds
  | cons event acts ih =>
    obtain ⟨now, act⟩ := event
    rw [prompt, Bool.and_eq_true] at hprompt
    have hnow := (List.pairwise_cons.mp hacts).1 now List.mem_cons_self
    have hmoves := moves_serve htidy now key act hprompt.1
    have hkept := (h.later hnow).moves hmoves
    rw [← policy_serve clients now act] at hkept
    have hrest := ih (htidy.serve now act) hkept (List.pairwise_cons.mp hacts).2 hprompt.2
    rw [policy_serve, List.append_assoc] at hrest
    exact hrest

/-- **The rate bound of a key.** While the clock does not go back, no more than the limit is let
through for a key in a closed span of time that is no longer than all segments but one, by all the
limiters together that ever served the key, if every permit of the key is used at a limiter that was
handed out for the key since the last sweep. -/
theorem unitsWithin_key_le (policy : Policy) (key : String) (acts : List (Int × Act))
    (hacts : (readings acts).Pairwise (· ≤ ·)) (hprompt : (new policy).prompt key acts)
    (start finish : Int)
    (hspan : finish - start ≤ ((policy.plan.segments - 1) * policy.plan.width : Nat)) :
    unitsWithin (recordingsFor key ((new policy).run acts).2) start finish ≤ policy.plan.limit := by
  obtain ⟨last, hlast⟩ := exists_reading_before hacts
  exact (keeps_new policy.plan last).run (tidy_new policy) acts hlast hprompt start finish hspan

/-- A pair of units is let through for a key at 2 and is gone at 9; the limiter is forgotten, and
the next one lets another pair through. Both pairs lie in a span of seven, one longer than the reach. -/
theorem unitsWithin_key_two_limiters :
    let acts : List (Int × Act) :=
      [(0, .ask "a" none), (2, .call 0 (.request 2)), (2, .call 0 (.use 0)), (8, .sweep),
        (9, .sweep), (9, .ask "a" none), (9, .call 1 (.request 2)), (9, .call 1 (.use 0))]
    let ledger := recordingsFor "a" ((new .twoInTen).run acts).2
    ledger = [⟨2, 2⟩, ⟨9, 2⟩] ∧ unitsWithin ledger 3 9 ≤ 2 := by
  intro acts ledger
  exact ⟨by decide +kernel, unitsWithin_key_le .twoInTen "a" acts (by decide) (by decide +kernel)
    3 9 (by decide)⟩

end Throttle.Clients
