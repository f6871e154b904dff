import Throttle.Proofs.Limiter.Desk
import Throttle.Proofs.Window.Reset

/-!
# The instant from which a permit can be used

A permit that was not used yet is told an instant. While no permit of the limiter is used, this
instant stays what it is: asked again, the limiter names it again, and at that instant and not
before it the permit can be used. It does not matter what else is asked meanwhile, or which uses
fail.
-/

namespace Throttle.Desk

/-! ## Calls that let nothing through -/

/-- A call that lets nothing through leaves the window in agreement with what it was. -/
theorem agrees_serve {desk : Desk} {now : Int} {call : Call}
    (hstart : desk.limiter.window.start ≤ now) (h : (desk.serve now call).2.recorded = none) :
    (desk.serve now call).1.limiter.window.Agrees now desk.limiter.window := by
  have hmove := desk.move_serve now call
  rw [h] at hmove
  exact hmove.agrees hstart

/-- A call that lets nothing through changes no permit that was issued before. -/
theorem permit_serve {desk : Desk} {now : Int} {call : Call} {number : Nat} {permit : Permit}
    (h : (desk.serve now call).2.recorded = none) (hpermit : desk.permits[number]? = some permit) :
    (desk.serve now call).1.permits[number]? = some permit := by
  rcases desk.permits_serve now call with ⟨units, -, -, heq⟩ | ⟨_, units, -, hrecorded, -⟩ | heq
  · obtain ⟨hbound, -⟩ := List.getElem?_eq_some_iff.mp hpermit
    rw [heq, List.getElem?_append_left hbound, hpermit]
  · rw [h] at hrecorded
    cases hrecorded
  · rw [heq, hpermit]

theorem recorded_eq_none {now : Int} {answer : Answer} {answers : List (Int × Answer)}
    (h : recordings ((now, answer) :: answers) = []) :
    answer.recorded = none ∧ recordings answers = [] := by
  rw [recordings_cons, List.append_eq_nil_iff] at h
  refine ⟨?_, h.2⟩
  cases hr : answer.recorded with
  | none => rfl
  | some units => simp [Window.entries, hr] at h

/-- A run that lets nothing through leaves the window in agreement with what it was, and the permits
as they were. -/
theorem Sound.idle_run {last finish : Int} {desk : Desk} (hsound : desk.Sound last)
    (calls : List (Int × Call)) (hcalls : (last :: readings calls ++ [finish]).Pairwise (· ≤ ·))
    (hidle : recordings (desk.run calls).2 = []) {number : Nat} {permit : Permit}
    (hpermit : desk.permits[number]? = some permit) :
    desk.limiter.window.Agrees finish (desk.run calls).1.limiter.window ∧
      (desk.run calls).1.permits[number]? = some permit := by
  induction calls generalizing last desk with
  | nil => exact ⟨.refl _ _, hpermit⟩
  | cons event calls ih =>
    obtain ⟨now, call⟩ := event
    rw [run_cons] at hidle ⊢
    obtain ⟨hnone, hrest⟩ := recorded_eq_none hidle
    simp only [readings, List.map_cons, List.cons_append] at hcalls
    have hlater := (List.pairwise_cons.mp hcalls).2
    have hnow : last ≤ now := (List.pairwise_cons.mp hcalls).1 now List.mem_cons_self
    have hfinish : now ≤ finish := (List.pairwise_cons.mp hlater).1 finish (by simp)
    have hagrees := agrees_serve (Int.le_trans hsound.start_le hnow) hnone
    obtain ⟨hwindow, hpermits⟩ :=
      ih (hsound.serve hnow call) hlater hrest (permit_serve hnone hpermit)
    exact ⟨(hagrees.later hfinish).symm.trans hwindow, hpermits⟩

/-! ## Asking about a permit and using it -/

theorem ask_eq {desk : Desk} {number : Nat} {permit : Permit}
    (h : desk.permits[number]? = some permit) (now : Int) (tell : Limiter → Permit → Answer) :
    desk.ask now number tell =
      ({ desk with limiter := desk.limiter.advance now },
        tell (desk.limiter.advance now) permit) := by
  rw [ask, h]

/-- An unused permit is used if there is room for it, and refused for want of room otherwise. -/
theorem serve_use_eq {desk : Desk} {number units : Nat}
    (h : desk.permits[number]? = some ⟨units, false⟩) (now : Int) :
    (desk.serve now (.use number)).2 =
      .used units (if units ≤ (desk.limiter.window.advance now).available
        then none else some .noRoom) := by
  rw [serve, h]
  rcases desk.limiter.use_cases ⟨units, false⟩ now with
    ⟨hused, -⟩ | ⟨-, hroom, huse⟩ | ⟨-, hroom, huse⟩
  · cases hused
  · have hno : ¬units ≤ (desk.limiter.window.advance now).available := Nat.not_le.mpr hroom
    simp only [huse, if_neg hno]
  · have hyes : units ≤ (desk.limiter.window.advance now).available := hroom
    simp only [huse, if_pos hyes]

/-- What an unused permit is answered at `later`, at a desk whose window agrees with what another
desk's window was at `now`: it is all about the instant that was named there. -/
theorem Sound.answers_of_agrees {now later : Int} {desk waited : Desk} {number units : Nat}
    (hsound : desk.Sound now) (hwaited : waited.Sound later) (hlater : now ≤ later)
    (hagree : desk.limiter.window.Agrees later waited.limiter.window)
    (hfits : units ≤ desk.limiter.limit)
    (hpermit : waited.permits[number]? = some ⟨units, false⟩) {reset : Int}
    (hnamed : (desk.limiter.window.advance now).resetsAt now units = reset) :
    (waited.serve later (.use number)).2 =
        .used units (if reset ≤ later then none else some .noRoom) ∧
      (waited.serve later (.resetsAt number)).2 = .instant (max later reset) ∧
      (waited.serve later (.retryAfter number)).2 = .span (reset - later).toNat := by
  have hiff := Window.resetsAt_advance_le_iff hsound.withinLimit hsound.start_le hlater hfits
  have hreset := Window.resetsAt_advance_of_agree hagree hsound.withinLimit hwaited.withinLimit
    hsound.start_le hlater hwaited.start_le hfits
  rw [hnamed, hagree.available_eq (Int.le_refl later)] at hiff
  rw [hnamed] at hreset
  refine ⟨?_, ?_, ?_⟩
  · rw [serve_use_eq hpermit]
    simp only [← hiff]
  · rw [Desk.serve, ask_eq hpermit]
    exact congrArg Answer.instant hreset
  · rw [Desk.serve, ask_eq hpermit]
    refine congrArg Answer.span ?_
    change Time.elapsed later ((waited.limiter.window.advance later).resetsAt later units) = _
    rw [hreset, Time.elapsed]
    omega

/-- **The instant from which a permit can be used is exact and does not drift.** A permit that has
not been used is told an instant. As long as nothing is let through afterwards, it can be used when
this instant has come and not before, and who asks again is told the same instant and the time that
is left until then. -/
theorem exists_reset (policy : Policy) (opened now : Int) (history : List (Int × Call))
    (hhistory : (opened :: readings history ++ [now]).Pairwise (· ≤ ·)) (number units : Nat)
    (hpermit : ((opening policy opened).run history).1.permits[number]? = some ⟨units, false⟩) :
    let asked := ((opening policy opened).run history).1.serve now (.resetsAt number)
    ∃ reset : Int, asked.2 = .instant reset ∧ now ≤ reset ∧
      ∀ (idle : List (Int × Call)) (later : Int),
        (now :: readings idle ++ [later]).Pairwise (· ≤ ·) →
        recordings (asked.1.run idle).2 = [] →
        let waited := (asked.1.run idle).1
        (waited.serve later (.use number)).2 =
            .used units (if reset ≤ later then none else some .noRoom) ∧
          (waited.serve later (.resetsAt number)).2 = .instant (max later reset) ∧
          (waited.serve later (.retryAfter number)).2 = .span (reset - later).toNat := by
  have hsound := (sound_opening policy opened).run history hhistory
  generalize ((opening policy opened).run history).1 = desk at hpermit hsound
  have hfits := (hsound.permits_fit _ (List.mem_of_getElem? hpermit)).2
  have hask := desk.ask_eq hpermit now fun limiter permit => .instant (limiter.resetsAt permit now)
  have hrecorded : (desk.serve now (.resetsAt number)).2.recorded = none :=
    congrArg (fun asked => asked.2.recorded) hask
  have hserved := hsound.serve (Int.le_refl now) (.resetsAt number)
  refine ⟨_, congrArg Prod.snd hask, Window.le_resetsAt .., fun idle later hidle hnone => ?_⟩
  have hlater : now ≤ later := (List.pairwise_cons.mp hidle).1 later (by simp)
  obtain ⟨hagree, hkept⟩ :=
    hserved.idle_run idle hidle hnone (permit_serve hrecorded hpermit)
  have hasked := (agrees_serve hsound.start_le hrecorded).later hlater
  exact hsound.answers_of_agrees (hserved.run idle hidle) hlater (hasked.symm.trans hagree) hfits
    hkept rfl

/-- Two units were let through, at 1 and at 4. Room for a pair is announced for 12, when the segment
that started at 3 is turned out, and it comes then, although the pair was tried at 7 in vain. -/
theorem exists_reset_pair :
    let history : List (Int × Call) :=
      [(1, .single), (1, .use 0), (4, .single), (4, .use 1), (5, .request 2)]
    let idle : List (Int × Call) := [(7, .use 2), (10, .available none)]
    let asked := ((opening .twoInTen 0).run history).1.serve 5 (.resetsAt 2)
    let waited := (asked.1.run idle).1
    asked.2 = .instant 12 ∧
      (waited.serve 11 (.use 2)).2 = .used 2 (some .noRoom) ∧
      (waited.serve 11 (.retryAfter 2)).2 = .span 1 ∧
      (waited.serve 12 (.use 2)).2 = .used 2 none ∧
      (waited.serve 13 (.resetsAt 2)).2 = .instant 13 := by
  intro history idle asked waited
  obtain ⟨reset, hreset, -, hidle⟩ :=
    exists_reset .twoInTen 0 5 history (by decide) 2 2 (by decide +kernel)
  have htwelve : asked.2 = .instant 12 := by decide +kernel
  have heq : reset = 12 := Answer.instant.inj (hreset.symm.trans htwelve)
  subst heq
  have hnone : recordings (asked.1.run idle).2 = [] := by decide +kernel
  have heleven := hidle idle 11 (by decide) hnone
  have hthirteen := hidle idle 13 (by decide) hnone
  exact ⟨htwelve, heleven.1, heleven.2.2, (hidle idle 12 (by decide) hnone).1, hthirteen.2.1⟩

end Throttle.Desk
