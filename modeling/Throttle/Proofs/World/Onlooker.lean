import Throttle.Proofs.World.Course
import Throttle.Proofs.World.Tasks

/-!
# The onlooker

An onlooker follows a patient admission through a schedule, in which others act at any time: they
use permits of the same limiter, they ask for other keys, they sweep the registry. What is noted are
the steps of the admission, and when somebody else is let through by its limiter.

## Main definitions

* `Remark`, `World.remark?` — what there is to note about an occasion.
* `World.watch` — what comes of a schedule, and all that is noted about it.

## Main statements

* `OnCourse.spaced_watch` — between two refusals somebody else is let through.
* `OnCourse.steps_watch` — only refusals add to the steps that an admission takes.
-/

namespace Throttle

/-- What an onlooker notes about an admission. -/
inductive Remark where
  | refused
  /-- It has got further without being refused. -/
  | moved
  /-- Somebody else was let through by its limiter. -/
  | overtaken
deriving Repr, DecidableEq

/-- What there is to note about a step. -/
def Stage.remark (before after : Stage) : Option Remark :=
  if after = before then none
  else match after with
    | .timing _ _ => some .refused
    | _ => some .moved

/-- A step that gets nowhere is not noted; one that does is a refusal or not. -/
theorem Stage.remark_cases (before after : Stage) :
    (after = before ∧ before.remark after = none) ∨
      (after ≠ before ∧ (∃ admission permit, after = .timing admission permit) ∧
        before.remark after = some .refused) ∨
      (after ≠ before ∧ (∀ admission permit, after ≠ .timing admission permit) ∧
        before.remark after = some .moved) := by
  by_cases heq : after = before
  · exact .inl ⟨heq, if_pos heq⟩
  · have hremark : before.remark after = _ := if_neg heq
    cases after with
    | timing admission permit => exact .inr (.inl ⟨heq, ⟨admission, permit, rfl⟩, hremark⟩)
    | asking _ _ _ _ | trying _ | telling _ | setting _ _ | waiting _ _ | reached _ =>
      exact .inr (.inr ⟨heq, nofun, hremark⟩)

theorem Stage.eq_timing_of_remark {before after : Stage}
    (h : before.remark after = some .refused) :
    after ≠ before ∧ ∃ admission permit, after = .timing admission permit := by
  rcases before.remark_cases after with ⟨-, hnone⟩ | ⟨hne, htiming, -⟩ | ⟨-, -, hmoved⟩
  · cases h.symm.trans hnone
  · exact ⟨hne, htiming⟩
  · cases h.symm.trans hmoved

/-- How many steps an admission takes at most from a stage on, if it is not refused any more. -/
def Stage.ahead : Stage → Nat
  | .timing _ _ => 5
  | .setting _ _ => 4
  | .asking _ _ _ _ | .waiting _ _ => 3
  | .trying _ => 2
  | .telling _ => 1
  | .reached _ => 0

namespace World

/-- What there is to note about an occasion. -/
def remark? (world : World) (stage : Stage) : Occasion → Option Remark
  | .others deed =>
    ((limiterOf stage).bind (recordedBy · (world.recorded deed))).map fun _ => .overtaken
  | .turn => stage.remark (world.turn stage).2

/-- What comes of a schedule, and all that there is to note about it. -/
def watch (world : World) (stage : Stage) (schedule : List Occasion) :
    (World × Stage) × List Remark :=
  (admitting.follow world stage schedule, admitting.notes remark? world stage schedule)

/-- A scope is not over at any time in a schedule. -/
def Lasts (world : World) (scope : Scope) (stage : Stage) (schedule : List Occasion) : Prop :=
  ∀ front, front <+: schedule → (world.watch stage front).1.1.ended scope = none

theorem watch_cons (world : World) (stage : Stage) (occasion : Occasion)
    (schedule : List Occasion) :
    world.watch stage (occasion :: schedule) =
      let met := admitting.happen world stage occasion
      ((met.1.watch met.2 schedule).1,
        (world.remark? stage occasion).toList ++ (met.1.watch met.2 schedule).2) := rfl

theorem watch_append (world : World) (stage : Stage) (front back : List Occasion) :
    world.watch stage (front ++ back) =
      (((world.watch stage front).1.1.watch (world.watch stage front).1.2 back).1,
        (world.watch stage front).2 ++
          ((world.watch stage front).1.1.watch (world.watch stage front).1.2 back).2) :=
  Prod.ext (admitting.follow_append ..) (admitting.notes_append ..)

theorem Lasts.now {world : World} {scope : Scope} {stage : Stage} {schedule : List Occasion}
    (h : world.Lasts scope stage schedule) : world.ended scope = none :=
  h [] (List.nil_prefix)

theorem Lasts.rest {world : World} {scope : Scope} {stage : Stage} (front : List Occasion)
    {back : List Occasion} (h : world.Lasts scope stage (front ++ back)) :
    (world.watch stage front).1.1.Lasts scope (world.watch stage front).1.2 back := by
  intro more hmore
  have hend := h (front ++ more) ((List.prefix_append_right_inj front).mpr hmore)
  rwa [watch_append] at hend

theorem Lasts.front {world : World} {scope : Scope} {stage : Stage} {front back : List Occasion}
    (h : world.Lasts scope stage (front ++ back)) : world.Lasts scope stage front :=
  fun more hmore => h more (hmore.trans (List.prefix_append front back))

/-! ## One occasion -/

section Happen

variable {world : World} {scope : Scope} {plan : Plan} {stage : Stage}

theorem OnCourse.happen (h : world.OnCourse scope plan stage) (hscope : world.ended scope = none)
    (occasion : Occasion) :
    let met := admitting.happen world stage occasion
    met.1.OnCourse scope plan met.2 := by
  cases occasion with
  | others deed => exact h.perform deed
  | turn => exact h.turn hscope

theorem now_happen (world : World) (stage : Stage) (occasion : Occasion) :
    (admitting.happen world stage occasion).1.now = world.now + occasion.span := by
  cases occasion with
  | others deed => exact world.now_perform deed
  | turn => exact (world.now_turn stage).trans (Int.add_zero _).symm

/-- An admission that was refused has the promise. -/
theorem promised_of_refused {occasion : Occasion}
    (hrefused : world.remark? stage occasion = some .refused) :
    let met := admitting.happen world stage occasion
    met.1.Promised met.2 := by
  cases occasion with
  | others deed =>
    obtain ⟨_, _, hnot⟩ := Option.map_eq_some_iff.mp hrefused
    cases hnot
  | turn =>
    obtain ⟨-, admission, permit, hstage⟩ := Stage.eq_timing_of_remark hrefused
    change (world.turn stage).1.Promised (world.turn stage).2
    rw [hstage]
    trivial

/-- An admission that has the promise keeps it and is not refused, unless it is overtaken. -/
theorem OnCourse.promised_happen (h : world.OnCourse scope plan stage)
    (hscope : world.ended scope = none) {occasion : Occasion}
    (hspared : world.remark? stage occasion ≠ some .overtaken)
    (hpromised : world.Promised stage) :
    let met := admitting.happen world stage occasion
    met.1.Promised met.2 ∧ world.remark? stage occasion ≠ some .refused := by
  cases occasion with
  | others deed =>
    cases hbind : (limiterOf stage).bind (recordedBy · (world.recorded deed)) with
    | some units =>
      rw [World.remark?, hbind] at hspared
      exact absurd rfl hspared
    | none =>
      refine ⟨promised_perform h hbind hpromised, ?_⟩
      rw [World.remark?, hbind]
      nofun
  | turn =>
    obtain ⟨hafter, hnot⟩ := promised_turn h hscope hpromised
    refine ⟨hafter, fun hrefused => ?_⟩
    obtain ⟨hne, admission, permit, hstage⟩ := Stage.eq_timing_of_remark hrefused
    rcases hnot with hsame | hnot
    · exact hne hsame
    · exact hnot admission permit hstage

/-- Every step that gets somewhere leaves fewer steps ahead, unless it is a refusal. -/
theorem Advances.ahead {after : Stage} (h : world.Advances scope plan stage after) :
    after = stage ∨ after.ahead < stage.ahead ∨
      (∃ admission permit, after = .timing admission permit) ∧ stage.ahead = 2 := by
  cases h with
  | found | letThrough | allowed | told | set | woken => exact .inr (.inl (Nat.lt_succ_self _))
  | refused => exact .inr (.inr ⟨⟨_, _, rfl⟩, rfl⟩)
  | asleep | decided => exact .inl rfl

/-- What is noted about an occasion on which the stage changes, and what is ahead afterwards. -/
theorem OnCourse.ahead_happen (h : world.OnCourse scope plan stage)
    (hscope : world.ended scope = none) (occasion : Occasion) :
    let after := (admitting.happen world stage occasion).2
    let remark? := world.remark? stage occasion
    ((remark? = none ∨ remark? = some .overtaken) ∧ after = stage) ∨
      (remark? = some .moved ∧ after.ahead + 1 ≤ stage.ahead) ∨
      (remark? = some .refused ∧ after.ahead + 1 ≤ stage.ahead + 4) := by
  cases occasion with
  | others deed =>
    refine .inl ⟨?_, rfl⟩
    cases hbind : (limiterOf stage).bind (recordedBy · (world.recorded deed)) with
    | none => exact .inl (by rw [World.remark?, hbind]; rfl)
    | some units => exact .inr (by rw [World.remark?, hbind]; rfl)
  | turn =>
    have hahead := (h.advances hscope).ahead
    rcases stage.remark_cases (world.turn stage).2 with
      ⟨hsame, hremark⟩ | ⟨hne, ⟨admission, permit, htiming⟩, hremark⟩ | ⟨hne, hnot, hremark⟩
    · exact .inl ⟨.inl hremark, hsame⟩
    · refine .inr (.inr ⟨hremark, ?_⟩)
      rcases hahead with hsame | hless | ⟨-, htwo⟩
      · exact absurd hsame hne
      · exact Nat.le_trans hless (Nat.le_add_right _ _)
      · change (world.turn stage).2.ahead + 1 ≤ stage.ahead + 4
        rw [htiming, htwo]
        exact Nat.le_refl _
    · refine .inr (.inl ⟨hremark, ?_⟩)
      rcases hahead with hsame | hless | ⟨⟨admission, permit, htiming⟩, -⟩
      · exact absurd hsame hne
      · exact hless
      · exact absurd htiming (hnot admission permit)

end Happen

/-! ## Remarks -/

/-- Whether somebody else was let through between any two refusals. One who has the promise was
refused and not overtaken yet. -/
def spaced (promised : Bool) : List Remark → Bool
  | [] => true
  | .refused :: remarks => !promised && spaced true remarks
  | .moved :: remarks => spaced promised remarks
  | .overtaken :: remarks => spaced false remarks

/-- How many steps were noted. -/
def steps (remarks : List Remark) : Nat := remarks.count .moved + remarks.count .refused

theorem steps_append (front back : List Remark) :
    steps (front ++ back) = steps front + steps back := by
  rw [steps, steps, steps, List.count_append, List.count_append]
  omega

theorem overtaken_mem_of_promised {mid back : List Remark}
    (h : spaced true (mid ++ .refused :: back) = true) : .overtaken ∈ mid := by
  induction mid with
  | nil => cases h
  | cons remark mid ih =>
    cases remark with
    | refused => cases h
    | moved => exact List.mem_cons_of_mem _ (ih h)
    | overtaken => exact List.mem_cons_self

theorem overtaken_mem {promised : Bool} {front mid back : List Remark}
    (h : spaced promised (front ++ .refused :: (mid ++ .refused :: back)) = true) :
    .overtaken ∈ mid := by
  induction front generalizing promised with
  | nil =>
    rw [List.nil_append, spaced, Bool.and_eq_true] at h
    exact overtaken_mem_of_promised h.2
  | cons remark front ih =>
    cases remark with
    | refused =>
      rw [List.cons_append, spaced, Bool.and_eq_true] at h
      exact ih h.2
    | moved => exact ih h
    | overtaken => exact ih h

theorem count_refused_le {promised : Bool} {remarks : List Remark}
    (h : spaced promised remarks = true) :
    remarks.count .refused + promised.toNat ≤ remarks.count .overtaken + 1 := by
  induction remarks generalizing promised with
  | nil => cases promised <;> simp
  | cons remark remarks ih =>
    cases remark with
    | refused =>
      rw [spaced, Bool.and_eq_true, Bool.not_eq_true'] at h
      have hrest := ih h.2
      rw [h.1]
      simp at hrest ⊢
      omega
    | moved =>
      have hrest := ih h
      simpa using hrest
    | overtaken =>
      have hrest := ih h
      have hbit := promised.toNat_le
      simp at hrest ⊢
      omega

/-! ## Schedules -/

section Watch

variable {world : World} {scope : Scope} {plan : Plan} {stage : Stage} {schedule : List Occasion}

theorem OnCourse.watch (h : world.OnCourse scope plan stage)
    (hlasts : world.Lasts scope stage schedule) :
    (world.watch stage schedule).1.1.OnCourse scope plan (world.watch stage schedule).1.2 := by
  induction schedule generalizing world stage with
  | nil => exact h
  | cons occasion schedule ih =>
    exact ih (h.happen hlasts.now occasion) (hlasts.rest [occasion])

theorem now_watch (world : World) (stage : Stage) (schedule : List Occasion) :
    (world.watch stage schedule).1.1.now = world.now + lasting schedule := by
  induction schedule generalizing world stage with
  | nil => exact (Int.add_zero _).symm
  | cons occasion schedule ih =>
    rw [watch_cons, ih, now_happen]
    simp [lasting, Int.add_assoc]

/-- **Between two refusals somebody else is let through.** -/
theorem OnCourse.spaced_watch (h : world.OnCourse scope plan stage)
    (hlasts : world.Lasts scope stage schedule) :
    spaced false (world.watch stage schedule).2 = true ∧
      (world.Promised stage → spaced true (world.watch stage schedule).2 = true) := by
  induction schedule generalizing world stage with
  | nil => exact ⟨rfl, fun _ => rfl⟩
  | cons occasion schedule ih =>
    obtain ⟨hrest, hkept⟩ :=
      ih (h.happen hlasts.now occasion) (hlasts.rest [occasion])
    have hpromise := @OnCourse.promised_happen _ _ _ _ h hlasts.now occasion
    rw [watch_cons]
    cases hremark : world.remark? stage occasion with
    | none =>
      rw [hremark] at hpromise
      exact ⟨hrest, fun hpromised => hkept (hpromise nofun hpromised).1⟩
    | some remark =>
      cases remark with
      | refused =>
        rw [hremark] at hpromise
        refine ⟨hkept (promised_of_refused hremark), fun hpromised => ?_⟩
        exact absurd rfl (hpromise nofun hpromised).2
      | moved =>
        rw [hremark] at hpromise
        exact ⟨hrest, fun hpromised => hkept (hpromise nofun hpromised).1⟩
      | overtaken => exact ⟨hrest, fun _ => hrest⟩

/-- Only refusals add to the steps that an admission takes. -/
theorem OnCourse.steps_watch (h : world.OnCourse scope plan stage)
    (hlasts : world.Lasts scope stage schedule) :
    steps (world.watch stage schedule).2 + (world.watch stage schedule).1.2.ahead ≤
      4 * (world.watch stage schedule).2.count .refused + stage.ahead := by
  induction schedule generalizing world stage with
  | nil => simp [steps, World.watch]
  | cons occasion schedule ih =>
    have hrest := ih (h.happen hlasts.now occasion) (hlasts.rest [occasion])
    rw [watch_cons]
    rcases h.ahead_happen hlasts.now occasion with
      ⟨hremark | hremark, hstage⟩ | ⟨hremark, hahead⟩ | ⟨hremark, hahead⟩
    · rw [hstage] at hrest
      simp only [hremark, hstage, Option.toList_none, List.nil_append]
      exact hrest
    · rw [hstage] at hrest
      simp [steps, hremark, hstage] at hrest ⊢
      omega
    · simp [steps, hremark] at hrest hahead ⊢
      omega
    · simp [steps, hremark] at hrest hahead ⊢
      omega

/-- Where no step was noted, the admission stands where it stood. -/
theorem OnCourse.stage_watch (h : world.OnCourse scope plan stage)
    (hlasts : world.Lasts scope stage schedule)
    (hnone : steps (world.watch stage schedule).2 = 0) :
    (world.watch stage schedule).1.2 = stage := by
  induction schedule generalizing world stage with
  | nil => rfl
  | cons occasion schedule ih =>
    have hrest := ih (h.happen hlasts.now occasion) (hlasts.rest [occasion])
    rw [watch_cons] at hnone ⊢
    rcases h.ahead_happen hlasts.now occasion with
      ⟨hremark | hremark, hstage⟩ | ⟨hremark, -⟩ | ⟨hremark, -⟩
    · rw [hremark] at hnone
      exact (hrest hnone).trans hstage
    · rw [hremark] at hnone
      refine (hrest ?_).trans hstage
      simpa [steps] using hnone
    · simp [steps, hremark] at hnone
    · simp [steps, hremark] at hnone

/-- Nothing more is noted about an admission that is over. -/
theorem watch_reached (world : World) (outcome : Outcome) (schedule : List Occasion) :
    (world.watch (.reached outcome) schedule).1.2 = .reached outcome := by
  induction schedule generalizing world with
  | nil => rfl
  | cons occasion schedule ih =>
    rw [watch_cons]
    cases occasion with
    | others deed => exact ih _
    | turn => exact ih _

end Watch

end World

end Throttle
