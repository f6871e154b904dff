import Throttle.Proofs.Limiter.Reset
import Throttle.Proofs.Limiter.Twins

/-!
# What questions change

Asking how much room there is lets nothing through, but it turns the window, and a window that nobody
looked at for an interval starts afresh when it is looked at. From then on its segments start at other
instants than they would have, and what is let through next is turned out earlier or later. Here a run
of calls is compared with the same run without its questions.

## Main definitions

* `Desk.plainly` — a run without its questions.
* `Desk.uses` — what came of the uses of permits in a run.
* `Desk.aligned` — with questions and without them, whatever is let through is recorded in segments
  that start at the same instant.

## Main statements

* `Desk.uses_run` — as long as a run is aligned its questions change the outcome of no use; and from
  the first use on of which this is not so, one more permit can tell the difference.
* `Desk.question_changes_use` — a question after which a permit can be used that would have been
  refused without it.
-/

namespace Throttle

namespace Desk

/-- A call that only asks something. -/
def Call.isQuestion : Call → Bool
  | .allows _ | .resetsAt _ | .retryAfter _ | .available _ => true
  | .single | .request _ | .use _ => false

/-- The run without its questions. -/
def plainly (calls : List (Int × Call)) : List (Int × Call) :=
  calls.filter fun event => !event.2.isQuestion

/-- The answer to somebody who used a permit. -/
def Answer.isUse : Answer → Bool
  | .used _ _ => true
  | _ => false

/-- What came of the uses of permits. -/
def uses (answers : List (Int × Answer)) : List (Int × Answer) :=
  answers.filter fun answer => answer.2.isUse

/-- Without questions and with them, whatever is let through in a run is recorded in segments that
start at the same instant. -/
def aligned (plain asked : Desk) : List (Int × Call) → Bool
  | [] => true
  | (now, call) :: calls =>
    if call.isQuestion then plain.aligned (asked.serve now call).1 calls
    else
      decide ((asked.serve now call).2.recorded = none ∨
        (plain.limiter.window.advance now).start = (asked.limiter.window.advance now).start) &&
      (plain.serve now call).1.aligned (asked.serve now call).1 calls

/-! ## Questions -/

/-- A question lets nothing through, and it is not answered as a use is. -/
theorem serve_question {call : Call} (h : call.isQuestion) (desk : Desk) (now : Int) :
    (desk.serve now call).1.permits = desk.permits ∧ (desk.serve now call).2.recorded = none ∧
      (desk.serve now call).2.isUse = false := by
  have hask : ∀ (number : Nat) {tell : Limiter → Permit → Answer},
      (∀ limiter permit, (tell limiter permit).isUse = false) →
      (desk.ask now number tell).2.isUse = false := by
    intro number tell htell
    rw [ask]
    split
    · rfl
    · exact htell _ _
  refine ⟨?_, desk.recorded_serve_eq_none now call (fun number huse => ?_), ?_⟩
  · cases call with
    | allows number => exact desk.ask_permits now number
    | resetsAt number => exact desk.ask_permits now number
    | retryAfter number => exact desk.ask_permits now number
    | available ended => cases ended <;> rfl
    | single | request _ | use _ => cases h
  · rw [huse] at h
    cases h
  · cases call with
    | allows number => exact hask number fun _ _ => rfl
    | resetsAt number => exact hask number fun _ _ => rfl
    | retryAfter number => exact hask number fun _ _ => rfl
    | available ended => cases ended <;> rfl
    | single | request _ | use _ => cases h

/-- What is answered to a call that is no question is a decision. -/
theorem decision_serve {call : Call} (h : call.isQuestion = false) (desk : Desk) (now : Int) :
    (desk.serve now call).2.decision = some (desk.serve now call).2 := by
  cases call with
  | single => rfl
  | request units =>
    rw [serve]
    split <;> rfl
  | use number =>
    rw [serve]
    split <;> rfl
  | allows _ | resetsAt _ | retryAfter _ | available _ => cases h

theorem uses_run_cons (desk : Desk) (now : Int) (call : Call) (calls : List (Int × Call)) :
    uses (desk.run ((now, call) :: calls)).2 =
      uses [(now, (desk.serve now call).2)] ++ uses ((desk.serve now call).1.run calls).2 :=
  List.filter_append [_] _

theorem plainly_cons_of_question {call : Call} (h : call.isQuestion) (now : Int)
    (calls : List (Int × Call)) : plainly ((now, call) :: calls) = plainly calls :=
  List.filter_cons_of_neg (by simp [h])

theorem plainly_cons {call : Call} (h : call.isQuestion = false) (now : Int)
    (calls : List (Int × Call)) : plainly ((now, call) :: calls) = (now, call) :: plainly calls :=
  List.filter_cons_of_pos (by simp [h])

/-- A question is no use. -/
theorem uses_run_question {call : Call} (h : call.isQuestion) (desk : Desk) (now : Int)
    (calls : List (Int × Call)) :
    uses (desk.run ((now, call) :: calls)).2 = uses ((desk.serve now call).1.run calls).2 := by
  have hnot := (serve_question h desk now).2.2
  rw [uses_run_cons]
  simp [uses, hnot]

/-! ## One more permit -/

/-- Ask for a permit and use it at once. -/
def trial (now : Int) (units : Nat) (desk : Desk) : List (Int × Call) :=
  [(now, .request units), (now, .use desk.permits.length)]

/-- What comes of one more permit tells whether there is room for its units. -/
theorem mem_uses_run_trial {desk other : Desk} (hpermits : desk.permits = other.permits)
    {units : Nat} (hpos : 0 < units) (hfits : units ≤ desk.limiter.limit) (now : Int) :
    (now, .used units none) ∈ uses (desk.run (trial now units other)).2 ↔
      units ≤ (desk.limiter.window.advance now).available := by
  have hrequest : desk.limiter.request units = .ok ⟨units, false⟩ := by
    rw [Limiter.request, if_neg (by omega), if_neg (by omega)]
  have hserve : desk.serve now (.request units) =
      ({ desk with permits := desk.permits ++ [⟨units, false⟩] }, .issued) := by
    rw [serve, hrequest]
  have hpermit : (desk.permits ++ [⟨units, false⟩])[other.permits.length]? =
      some (⟨units, false⟩ : Permit) := by
    rw [← hpermits]
    exact List.getElem?_concat_length
  let issued : Desk := { desk with permits := desk.permits ++ [⟨units, false⟩] }
  have huse : (issued.serve now (.use other.permits.length)).2 = .used units
      (if units ≤ (desk.limiter.window.advance now).available then none else some .noRoom) :=
    serve_use_eq hpermit now
  rw [trial, run_cons, run_cons, hserve]
  simp only [uses, issued, Answer.isUse, huse, run_nil]
  by_cases hroom : units ≤ (desk.limiter.window.advance now).available <;> simp [hroom]

/-! ## Two desks -/

/-- A desk at which no questions were asked and one at which some were, after the same other calls
until `now`. -/
structure Alike (now : Int) (plain asked : Desk) : Prop where
  sound_plain : plain.Sound now
  sound_asked : asked.Sound now
  permits_eq : plain.permits = asked.permits
  agrees : plain.limiter.window.Agrees now asked.limiter.window

theorem alike_opening (policy : Policy) (now : Int) :
    Alike now (opening policy now) (opening policy now) :=
  ⟨sound_opening policy now, sound_opening policy now, rfl, .refl _ _⟩

namespace Alike

variable {last now : Int} {plain asked : Desk}

theorem later (h : Alike last plain asked) (hnow : last ≤ now) : Alike now plain asked where
  sound_plain := h.sound_plain.later hnow
  sound_asked := h.sound_asked.later hnow
  permits_eq := h.permits_eq
  agrees := h.agrees.later hnow

theorem twins (h : Alike now plain asked) :
    plain.limiter.window.Twins now asked.limiter.window :=
  ⟨h.agrees, ⟨h.sound_plain.start_le, h.sound_asked.start_le⟩,
    ⟨h.sound_plain.withinLimit, h.sound_asked.withinLimit⟩⟩

/-- A question at one of the desks. -/
theorem question (h : Alike now plain asked) {call : Call} (hquestion : call.isQuestion) :
    Alike now plain (asked.serve now call).1 where
  sound_plain := h.sound_plain
  sound_asked := h.sound_asked.serve (Int.le_refl now) call
  permits_eq := by
    rw [(serve_question hquestion asked now).1, h.permits_eq]
  agrees :=
    h.agrees.trans (agrees_serve h.sound_asked.start_le (serve_question hquestion asked now).2.1).symm

/-- A call that is no question gets the same answer at both desks. -/
theorem answer_eq (h : Alike now plain asked) {call : Call} (hcall : call.isQuestion = false) :
    (plain.serve now call).2 = (asked.serve now call).2 := by
  have hdecision := (serve_of_agrees h.permits_eq h.agrees call).2
  rw [decision_serve hcall, decision_serve hcall] at hdecision
  exact Option.some.inj hdecision

/-- A call that is made at both desks, and whose recording, if there is one, falls in segments that
start at the same instant. -/
theorem serve (h : Alike now plain asked) {call : Call} (hcall : call.isQuestion = false)
    (hgrid : (asked.serve now call).2.recorded = none ∨
      (plain.limiter.window.advance now).start = (asked.limiter.window.advance now).start) :
    Alike now (plain.serve now call).1 (asked.serve now call).1 where
  sound_plain := h.sound_plain.serve (Int.le_refl now) call
  sound_asked := h.sound_asked.serve (Int.le_refl now) call
  permits_eq := (serve_of_agrees h.permits_eq h.agrees call).1
  agrees := by
    have hplain := plain.move_serve now call
    rw [h.answer_eq hcall] at hplain
    exact (h.twins.move hplain (asked.move_serve now call) hgrid).agrees

/-- A use that is recorded in segments with different starts: at some later instant a permit for the
right number of units can be used at one of the desks only. -/
theorem exists_trial_ne (h : Alike now plain asked) {call : Call} (hcall : call.isQuestion = false)
    (hgrid : ¬((asked.serve now call).2.recorded = none ∨
      (plain.limiter.window.advance now).start = (asked.limiter.window.advance now).start)) :
    ∃ units later, now ≤ later ∧
      uses ((asked.serve now call).1.run (trial later units (asked.serve now call).1)).2 ≠
        uses ((plain.serve now call).1.run (trial later units (asked.serve now call).1)).2 := by
  obtain ⟨hsome, hstart⟩ := not_or.mp hgrid
  obtain ⟨recorded, hrecorded⟩ := Option.ne_none_iff_exists'.mp hsome
  obtain ⟨permit, hmem, rfl⟩ := mem_of_recorded_serve hrecorded
  have hplain := plain.move_serve now call
  have hasked := asked.move_serve now call
  rw [h.answer_eq hcall, hrecorded] at hplain
  rw [hrecorded] at hasked
  obtain ⟨later, hlater, hne⟩ := h.twins.exists_available_ne
    (h.sound_asked.permits_fit permit hmem).1 hplain hasked hstart
  have hpermits := (serve_of_agrees h.permits_eq h.agrees call).1
  have hlimit : (plain.serve now call).1.limiter.limit = (asked.serve now call).1.limiter.limit := by
    rw [Limiter.limit, Limiter.limit, plan_serve, plan_serve, h.agrees.plan_eq]
  -- The larger of the two rooms fits in one of the windows only.
  generalize (plain.serve now call).1 = first at *
  generalize (asked.serve now call).1 = second at *
  have hroom : ∀ desk : Desk, (desk.limiter.window.advance later).available ≤ desk.limiter.limit := by
    intro desk
    rw [Window.available, Window.plan_advance]
    exact Nat.sub_le _ _
  have hfirst := hroom first
  have hsecond := hroom second
  obtain ⟨units, hpos, hfits, honly⟩ : ∃ units, 0 < units ∧ units ≤ first.limiter.limit ∧
      ¬(units ≤ (second.limiter.window.advance later).available ↔
        units ≤ (first.limiter.window.advance later).available) :=
    ⟨max (first.limiter.window.advance later).available
      (second.limiter.window.advance later).available, by omega, by omega, by omega⟩
  refine ⟨units, later, hlater, fun heq => honly ?_⟩
  rw [← mem_uses_run_trial hpermits hpos hfits, ← mem_uses_run_trial rfl hpos (hlimit ▸ hfits), heq]

/-! ## Runs -/

/-- In an aligned run every use comes out as it does without the questions. -/
theorem uses_eq (h : Alike last plain asked) (calls : List (Int × Call))
    (hcalls : (last :: readings calls).Pairwise (· ≤ ·)) (haligned : plain.aligned asked calls) :
    uses (asked.run calls).2 = uses (plain.run (plainly calls)).2 := by
  induction calls generalizing last plain asked with
  | nil => rfl
  | cons event calls ih =>
    obtain ⟨now, call⟩ := event
    obtain ⟨hnow, hrest⟩ := List.pairwise_cons.mp hcalls
    have halike := h.later (hnow now List.mem_cons_self)
    rw [aligned] at haligned
    cases hquestion : call.isQuestion with
    | true =>
      rw [if_pos hquestion] at haligned
      rw [uses_run_question hquestion, plainly_cons_of_question hquestion]
      exact ih (halike.question hquestion) hrest haligned
    | false =>
      rw [if_neg (by simp [hquestion]), Bool.and_eq_true, decide_eq_true_eq] at haligned
      have hsame := ih (halike.serve hquestion haligned.1) hrest haligned.2
      rw [plainly_cons hquestion, uses_run_cons, uses_run_cons, hsame, halike.answer_eq hquestion]

/-- In a run that is not aligned there is a place from which on one more permit can tell whether there
were questions. -/
theorem exists_uses_ne (h : Alike last plain asked) (calls : List (Int × Call))
    (hcalls : (last :: readings calls).Pairwise (· ≤ ·))
    (hmisaligned : plain.aligned asked calls = false) :
    ∃ front back units later, calls = front ++ back ∧
      (last :: readings front ++ [later]).Pairwise (· ≤ ·) ∧
      uses (asked.run (front ++ trial later units (asked.run front).1)).2 ≠
        uses (plain.run (plainly front ++ trial later units (asked.run front).1)).2 := by
  induction calls generalizing last plain asked with
  | nil => cases hmisaligned
  | cons event calls ih =>
    obtain ⟨now, call⟩ := event
    obtain ⟨hnow, hrest⟩ := List.pairwise_cons.mp hcalls
    have hlast := hnow now List.mem_cons_self
    have halike := h.later hlast
    rw [aligned] at hmisaligned
    cases hquestion : call.isQuestion with
    | true =>
      rw [if_pos hquestion] at hmisaligned
      obtain ⟨front, back, units, later, rfl, hfront, hne⟩ :=
        ih (halike.question hquestion) hrest hmisaligned
      refine ⟨(now, call) :: front, back, units, later, rfl, hfront.cons_cons_of_trans hlast, ?_⟩
      rw [List.cons_append, uses_run_question hquestion, plainly_cons_of_question hquestion]
      exact hne
    | false =>
      rw [if_neg (by simp [hquestion])] at hmisaligned
      -- A place later in the run is a place in this run, since this call is answered alike.
      have hcons : ∀ front units later,
          uses ((asked.serve now call).1.run
              (front ++ trial later units ((asked.serve now call).1.run front).1)).2 ≠
            uses ((plain.serve now call).1.run
              (plainly front ++ trial later units ((asked.serve now call).1.run front).1)).2 →
          uses (asked.run ((now, call) :: front ++
              trial later units (asked.run ((now, call) :: front)).1)).2 ≠
            uses (plain.run (plainly ((now, call) :: front) ++
              trial later units (asked.run ((now, call) :: front)).1)).2 := by
        intro front units later hne heq
        rw [plainly_cons hquestion, List.cons_append, List.cons_append, uses_run_cons,
          uses_run_cons, halike.answer_eq hquestion] at heq
        exact hne (List.append_cancel_left heq)
      by_cases hgrid : (asked.serve now call).2.recorded = none ∨
          (plain.limiter.window.advance now).start = (asked.limiter.window.advance now).start
      · rw [decide_eq_true hgrid, Bool.true_and] at hmisaligned
        obtain ⟨front, back, units, later, rfl, hfront, hne⟩ :=
          ih (halike.serve hquestion hgrid) hrest hmisaligned
        exact ⟨(now, call) :: front, back, units, later, rfl, hfront.cons_cons_of_trans hlast,
          hcons front units later hne⟩
      · obtain ⟨units, later, hlater, hne⟩ := halike.exists_trial_ne hquestion hgrid
        have hpair : (now :: readings ([] : List (Int × Call)) ++ [later]).Pairwise (· ≤ ·) := by
          simpa [readings] using hlater
        exact ⟨[(now, call)], calls, units, later, rfl, hpair.cons_cons_of_trans hlast,
          hcons [] units later hne⟩

end Alike

/-- **What questions change.** While the clock does not go back: if whatever is let through in a run
is recorded in segments that start at the same instants with the questions and without them, then
every use of a permit comes out the same with them and without them. If not, then the run has a
beginning after which one more permit, used at some later instant, can be used with the questions and
not without them, or the other way round. -/
theorem uses_run (policy : Policy) (opened : Int) (calls : List (Int × Call))
    (hcalls : (opened :: readings calls).Pairwise (· ≤ ·)) :
    let desk := opening policy opened
    (desk.aligned desk calls = true →
      uses (desk.run calls).2 = uses (desk.run (plainly calls)).2) ∧
    (desk.aligned desk calls = false →
      ∃ front back units later, calls = front ++ back ∧
        (opened :: readings front ++ [later]).Pairwise (· ≤ ·) ∧
        uses (desk.run (front ++ trial later units (desk.run front).1)).2 ≠
          uses (desk.run (plainly front ++ trial later units (desk.run front).1)).2) :=
  ⟨(alike_opening policy opened).uses_eq calls hcalls,
    (alike_opening policy opened).exists_uses_ne calls hcalls⟩

/-- A run with questions at 1, 6 and 8 that is aligned: the window never starts afresh because of
them. -/
theorem uses_run_on_grid :
    let calls : List (Int × Call) :=
      [(1, .single), (1, .available none), (2, .use 0), (6, .resetsAt 0), (7, .single),
        (8, .allows 1), (9, .use 1), (10, .use 1)]
    let desk := opening .oneInTen 0
    (0 :: readings calls).Pairwise (· ≤ ·) ∧
      uses (desk.run calls).2 =
        [(2, .used 1 none), (9, .used 1 (some .noRoom)), (10, .used 1 none)] ∧
      uses (desk.run calls).2 = uses (desk.run (plainly calls)).2 := by
  intro calls desk
  have hcalls : (0 :: readings calls).Pairwise (· ≤ ·) := by decide
  exact ⟨hcalls, by decide +kernel, (uses_run .oneInTen 0 calls hcalls).1 (by decide +kernel)⟩

/-- **A question changes the outcome of a use.** Somebody asks at 12 whether a permit could be used, and
the window starts afresh then; the unit that is recorded at 13 is turned out at 22. Had nobody asked,
the window would have started afresh at 13, and the permit that is used at 22 would be refused. -/
theorem question_changes_use :
    let calls : List (Int × Call) :=
      [(0, .single), (12, .allows 0), (13, .use 0), (22, .single), (22, .use 1)]
    let desk := opening .oneInTen 0
    (0 :: readings calls).Pairwise (· ≤ ·) ∧
      uses (desk.run calls).2 = [(13, .used 1 none), (22, .used 1 none)] ∧
      uses (desk.run (plainly calls)).2 =
        [(13, .used 1 none), (22, .used 1 (some .noRoom))] := by
  refine ⟨by decide, by decide +kernel, by decide +kernel⟩

end Desk

end Throttle
