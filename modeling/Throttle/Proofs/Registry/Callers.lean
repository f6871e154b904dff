import Throttle.Proofs.Limiter.Desk
import Throttle.Proofs.Registry.View

/-!
# Callers that ask at the same time

Asking a registry for a key takes two steps: the key is looked up, and who does not find it enters
it. A sweep goes from one key to the next. Between any two of these steps others may take theirs:
they ask for the same key, use permits, or forget the limiter that was just found. Here all steps of
all parties are turns, taken one after the other in any order.

## Main definitions

* `Registry.visit` — what a sweep does at one key.
* `Callers.serve`, `Callers.run` — what comes of turns.
* `Callers.Passes` — what a turn makes of the limiter that serves a key.

## Main statements

* `Registry.Tidy.foldl_visit` — a sweep visits every key.
* `Callers.passes_serve` — the event of a turn tells what became of a key.
* `Callers.handed_alike` — limiters are built no more often than they are forgotten, but for the
  first one, and callers are handed the same limiter if it is not forgotten in between.
-/

namespace Throttle

namespace Registry

/-- What a sweep does at one key: advance the limiter that serves it, and forget it if it has
recovered. -/
def visit (registry : Registry) (key : String) (now : Int) : Registry :=
  match registry.find? key with
  | none => registry
  | some index =>
    let registry := { registry with limiters := registry.limiters.modify index (·.advance now) }
    if registry.isRecovered index then
      { registry with entries := registry.entries.filter fun entry => entry.1 ≠ key }
    else registry

/-- Whether the limiter with an index will have recovered when it is advanced to `now`. -/
def recoversAt (registry : Registry) (now : Int) (index : Nat) : Bool :=
  registry.limiters[index]?.any fun limiter => (limiter.advance now).recovered

theorem lookup_filter_of_ne {key other : String} (hne : other ≠ key)
    (entries : List (String × Nat)) :
    (entries.filter fun entry => entry.1 ≠ key).lookup other = entries.lookup other := by
  induction entries with
  | nil => rfl
  | cons entry entries ih =>
    obtain ⟨found, index⟩ := entry
    by_cases hkey : found = key
    · have hnot : (other == found) = false := by simpa [hkey] using hne
      rw [List.filter_cons_of_neg (by simpa using hkey), ih, List.lookup_cons, hnot]
    · rw [List.filter_cons_of_pos (by simpa using hkey), List.lookup_cons, List.lookup_cons, ih]

/-- Registries are told apart by their limiters one by one. -/
theorem eq_of_getElem? {registry other : Registry} (hpolicy : registry.policy = other.policy)
    (hentries : registry.entries = other.entries)
    (hlimiters : ∀ index : Nat, registry.limiters[index]? = other.limiters[index]?) :
    registry = other := by
  cases registry
  cases other
  simp only [mk.injEq]
  exact ⟨hpolicy, hentries, Array.ext_getElem? hlimiters⟩

section Visit

variable {registry : Registry} {key other : String} {index : Nat} (now : Int)

theorem visit_of_none (h : registry.find? key = none) : registry.visit key now = registry := by
  rw [visit, h]

/-- A limiter has recovered now if it will have when it is advanced. -/
theorem isRecovered_eq {advanced : Registry}
    (h : advanced.limiters[index]? = registry.limiters[index]?.map (·.advance now)) :
    advanced.isRecovered index = registry.recoversAt now index := by
  rw [isRecovered, recoversAt, h]
  cases registry.limiters[index]? <;> rfl

theorem isRecovered_modify (registry : Registry) (index : Nat) :
    isRecovered { registry with limiters := registry.limiters.modify index (·.advance now) } index =
      registry.recoversAt now index := by
  refine isRecovered_eq now ?_
  rw [Array.getElem?_modify, if_pos rfl]

theorem visit_of_some (h : registry.find? key = some index) :
    registry.visit key now = { registry with
      limiters := registry.limiters.modify index (·.advance now)
      entries := if registry.recoversAt now index then
        registry.entries.filter fun entry => entry.1 ≠ key else registry.entries } := by
  rw [visit, h]
  simp only [isRecovered_modify]
  split <;> rfl

theorem limiters_visit (registry : Registry) (key : String) (now : Int) (index : Nat) :
    (registry.visit key now).limiters[index]? =
      if registry.find? key = some index then
        registry.limiters[index]?.map fun limiter => limiter.advance now
      else registry.limiters[index]? := by
  cases h : registry.find? key with
  | none =>
    rw [visit_of_none now h]
    rfl
  | some found =>
    rw [visit_of_some now h, Array.getElem?_modify]
    simp only [Option.some.injEq]

theorem Tidy.entries_visit (ht : registry.Tidy) (key : String) :
    (registry.visit key now).entries =
      registry.entries.filter fun entry => !(entry.1 = key && registry.recoversAt now entry.2) := by
  cases h : registry.find? key with
  | none =>
    rw [visit_of_none now h, eq_comm, List.filter_eq_self]
    intro entry hentry
    have hne := List.lookup_eq_none_iff.mp h entry hentry
    simp [Ne.symm (by simpa using hne : key ≠ entry.1)]
  | some index =>
    rw [visit_of_some now h]
    have hfound : ∀ entry ∈ registry.entries, entry.1 = key → entry.2 = index := by
      intro entry hentry hkey
      have hfind := ht.find?_of_mem hentry
      rw [hkey, h] at hfind
      exact (Option.some.inj hfind).symm
    by_cases hr : registry.recoversAt now index
    · rw [if_pos hr]
      refine List.filter_congr fun entry hentry => ?_
      by_cases hkey : entry.1 = key
      · simp [hkey, hfound entry hentry hkey, hr]
      · simp [hkey]
    · rw [if_neg hr, eq_comm, List.filter_eq_self]
      intro entry hentry
      by_cases hkey : entry.1 = key
      · simp [hfound entry hentry hkey, hr]
      · simp [hkey]

theorem policy_visit (registry : Registry) (key : String) (now : Int) :
    (registry.visit key now).policy = registry.policy := by
  cases h : registry.find? key with
  | none => rw [visit_of_none now h]
  | some index => rw [visit_of_some now h]

theorem size_limiters_visit (registry : Registry) (key : String) (now : Int) :
    (registry.visit key now).limiters.size = registry.limiters.size := by
  cases h : registry.find? key with
  | none => rw [visit_of_none now h]
  | some index =>
    rw [visit_of_some now h]
    exact Array.size_modify

theorem Tidy.visit (ht : registry.Tidy) (key : String) : (registry.visit key now).Tidy := by
  have hsub : (registry.visit key now).entries.Sublist registry.entries := by
    rw [ht.entries_visit now]
    exact List.filter_sublist
  refine ⟨ht.keys_nodup.sublist (hsub.map _), ht.indices_nodup.sublist (hsub.map _), ?_, ?_⟩
  · intro entry hentry
    rw [size_limiters_visit]
    exact ht.indices_lt entry (hsub.subset hentry)
  · intro index limiter hget
    rw [policy_visit]
    rw [limiters_visit] at hget
    split at hget
    · obtain ⟨before, hbefore, rfl⟩ := Option.map_eq_some_iff.mp hget
      exact (Window.plan_advance before.window now).trans (ht.plan_eq index before hbefore)
    · exact ht.plan_eq index limiter hget

/-- Visiting a key does not show at another one. -/
theorem Tidy.recoversAt_visit (ht : registry.Tidy) (h : registry.find? other = some index)
    (hne : other ≠ key) : (registry.visit key now).recoversAt now index =
      registry.recoversAt now index := by
  have hnot : registry.find? key ≠ some index := fun hkey => hne (ht.key_eq h hkey)
  rw [recoversAt, recoversAt, limiters_visit, if_neg hnot]

/-- Other keys do not notice a visit. -/
theorem find?_visit_of_ne (hne : other ≠ key) :
    (registry.visit key now).find? other = registry.find? other := by
  cases h : registry.find? key with
  | none => rw [visit_of_none now h]
  | some index =>
    rw [visit_of_some now h]
    simp only [find?]
    split
    · exact lookup_filter_of_ne hne _
    · rfl

/-- A visit takes the limiter away from a key, or leaves it. -/
theorem find?_visit (h : registry.find? key = some index) :
    (registry.visit key now).find? key =
      if registry.recoversAt now index then none else some index := by
  rw [visit_of_some now h]
  simp only [find?]
  split
  · refine List.lookup_eq_none_iff.mpr fun entry hentry => ?_
    have hne : entry.1 ≠ key := of_decide_eq_true (List.mem_filter.mp hentry).2
    exact bne_iff_ne.mpr hne.symm
  · exact h

/-- What has become of a registry when some keys have been visited. -/
theorem Tidy.visited (ht : registry.Tidy) {keys : List String} (hnodup : keys.Nodup) :
    let after := keys.foldl (fun registry key => registry.visit key now) registry
    after.policy = registry.policy ∧
      after.entries = (registry.entries.filter fun entry =>
        !(decide (entry.1 ∈ keys) && registry.recoversAt now entry.2)) ∧
      ∀ index : Nat, after.limiters[index]? =
        if ∃ key ∈ keys, registry.find? key = some index then
          registry.limiters[index]?.map fun limiter => limiter.advance now
        else registry.limiters[index]? := by
  induction keys generalizing registry with
  | nil => simp
  | cons key keys ih =>
    obtain ⟨hnew, hrest⟩ := List.nodup_cons.mp hnodup
    obtain ⟨hpolicy, hentries, hlimiters⟩ := ih (ht.visit now key) hrest
    intro after
    refine ⟨hpolicy.trans (policy_visit ..), hentries.trans ?_, fun index => ?_⟩
    · rw [ht.entries_visit now, List.filter_filter]
      refine List.filter_congr fun entry hentry => ?_
      have hfind := ht.find?_of_mem hentry
      by_cases hkey : entry.1 = key
      · simp [hkey, hnew]
      · simp [hkey, ht.recoversAt_visit now hfind hkey]
    · -- The limiter of a key that is visited later is found by it before as well as after.
      have hlater : (∃ other ∈ keys, (registry.visit key now).find? other = some index) ↔
          ∃ other ∈ keys, registry.find? other = some index :=
        exists_congr fun other => and_congr_right fun hother => by
          rw [find?_visit_of_ne now (ne_of_mem_of_not_mem hother hnew)]
      refine (hlimiters index).trans ?_
      rw [limiters_visit]
      simp only [hlater]
      by_cases hfound : ∃ other ∈ keys, registry.find? other = some index
      · obtain ⟨other, hother, hfind⟩ := hfound
        have hnot : registry.find? key ≠ some index := fun hkey =>
          hnew (ht.key_eq hfind hkey ▸ hother)
        rw [if_pos ⟨other, hother, hfind⟩, if_neg hnot,
          if_pos ⟨other, List.mem_cons_of_mem key hother, hfind⟩]
      · rw [if_neg hfound]
        simp only [List.mem_cons, exists_eq_or_imp, hfound, or_false]

/-- **A sweep visits every key**, in any order. -/
theorem Tidy.foldl_visit (ht : registry.Tidy) {keys : List String}
    (hkeys : keys.Perm (registry.entries.map Prod.fst)) :
    keys.foldl (fun registry key => registry.visit key now) registry = registry.sweep now := by
  obtain ⟨hpolicy, hentries, hlimiters⟩ := ht.visited now (hkeys.nodup_iff.mpr ht.keys_nodup)
  have hserves : ∀ index : Nat, (∃ key ∈ keys, registry.find? key = some index) ↔
      index ∈ registry.entries.map Prod.snd := by
    intro index
    constructor
    · rintro ⟨key, -, hfind⟩
      exact List.mem_map_of_mem (mem_of_find? hfind)
    · intro hmem
      obtain ⟨entry, hentry, rfl⟩ := List.mem_map.mp hmem
      exact ⟨entry.1, hkeys.mem_iff.mpr (List.mem_map_of_mem hentry), ht.find?_of_mem hentry⟩
  have hsame : ∀ index : Nat, (keys.foldl (fun registry key => registry.visit key now)
      registry).limiters[index]? = (registry.sweep now).limiters[index]? := by
    intro index
    rw [hlimiters, limiters_sweep ht]
    simp only [hserves]
  have hrest : (keys.foldl (fun registry key => registry.visit key now) registry).entries =
      (registry.sweep now).entries := by
    rw [hentries]
    refine List.filter_congr fun entry hentry => ?_
    have hmem : entry.1 ∈ keys := hkeys.mem_iff.mpr (List.mem_map_of_mem hentry)
    have hadvanced := limiters_sweep ht now entry.2
    rw [if_pos (List.mem_map_of_mem hentry)] at hadvanced
    have hrecovered : (registry.advance now).isRecovered entry.2 =
        registry.recoversAt now entry.2 := isRecovered_eq now hadvanced
    rw [hrecovered]
    simp [hmem]
  exact eq_of_getElem? hpolicy hrest hsame

end Visit

end Registry

/-- A registry, and the callers who ask it for limiters. -/
structure Callers where
  registry : Registry
  /-- The key that a caller has looked up and not found, until he enters it. -/
  missed : Nat → Option String
  /-- The permits that each limiter has issued. -/
  permits : Nat → List Permit

namespace Callers

/-- The steps of callers and sweeps. -/
inductive Turn where
  /-- A caller asks for a key: it is looked up. -/
  | look (caller : Nat) (key : String)
  /-- A caller who has not found his key enters it. -/
  | enter (caller : Nat)
  /-- A sweep comes to a key. -/
  | visit (key : String)
  /-- Somebody calls on a limiter, whether it serves a key or not. -/
  | call (limiter : Nat) (call : Desk.Call)
deriving Repr, DecidableEq

/-- What comes of a step. -/
inductive Event where
  | missed (key : String)
  /-- A caller is handed the limiter of a key, and whether it was built for him. -/
  | handed (key : String) (limiter : Nat) (built : Bool)
  | forgotten (key : String)
  | told (answer : Desk.Answer)
  /-- There was nothing to do. -/
  | nothing
deriving Repr, DecidableEq

/-- Whether a limiter is built for a key. -/
def Event.builds (key : String) : Event → Bool
  | .handed found _ built => found = key && built
  | _ => false

theorem Event.builds_eq_false {key : String} {event : Event}
    (h : ∀ index built, event ≠ .handed key index built) : event.builds key = false := by
  cases event with
  | handed found index built =>
    have hne : found ≠ key := fun heq => h index built (heq ▸ rfl)
    simp [builds, hne]
  | _ => rfl

/-- Nobody has asked for anything. -/
def idle (policy : Policy) : Callers := ⟨.empty policy, fun _ => none, fun _ => []⟩

/-- Serve a turn at the reading `now`. A caller who is on his way does not ask for another key. -/
def serve (callers : Callers) (now : Int) : Turn → Callers × Event
  | .look caller key =>
    match callers.missed caller with
    | some _ => (callers, .nothing)
    | none =>
      match callers.registry.find? key with
      | some index => (callers, .handed key index false)
      | none =>
        ({ callers with missed := Function.update callers.missed caller (some key) }, .missed key)
  | .enter caller =>
    match callers.missed caller with
    | none => (callers, .nothing)
    | some key =>
      let entered := callers.registry.enter key now
      ({ callers with
          registry := entered.1
          missed := Function.update callers.missed caller none },
        .handed key entered.2 (callers.registry.limiters.size < entered.1.limiters.size))
  | .visit key =>
    let registry := callers.registry.visit key now
    ({ callers with registry },
      if (callers.registry.find? key).isSome ∧ registry.find? key = none then .forgotten key
      else .nothing)
  | .call index call =>
    match callers.registry.limiters[index]? with
    | none => (callers, .nothing)
    | some limiter =>
      let served := Desk.serve ⟨limiter, callers.permits index⟩ now call
      ({ callers with
          registry := callers.registry.put index served.1.limiter
          permits := Function.update callers.permits index served.1.permits },
        .told served.2)

/-- Serve one turn after the other. -/
def run (callers : Callers) : List (Int × Turn) → Callers × List Event
  | [] => (callers, [])
  | (now, turn) :: turns =>
    let served := callers.serve now turn
    let rest := served.1.run turns
    (rest.1, served.2 :: rest.2)

theorem run_cons (callers : Callers) (now : Int) (turn : Turn) (turns : List (Int × Turn)) :
    callers.run ((now, turn) :: turns) =
      (((callers.serve now turn).1.run turns).1,
        (callers.serve now turn).2 :: ((callers.serve now turn).1.run turns).2) := rfl

section Serve

variable {callers : Callers} {now : Int} {caller index : Nat} {key : String}

theorem serve_look_of_some (hidle : callers.missed caller = none)
    (hfind : callers.registry.find? key = some index) :
    callers.serve now (.look caller key) = (callers, .handed key index false) := by
  rw [serve, hidle]
  simp only [hfind]

theorem serve_look_of_none (hidle : callers.missed caller = none)
    (hfind : callers.registry.find? key = none) :
    callers.serve now (.look caller key) =
      ({ callers with missed := Function.update callers.missed caller (some key) },
        .missed key) := by
  rw [serve, hidle]
  simp only [hfind]

/-- Somebody else was there first. -/
theorem serve_enter_of_some (hmissed : callers.missed caller = some key)
    (hfind : callers.registry.find? key = some index) :
    callers.serve now (.enter caller) =
      ({ callers with missed := Function.update callers.missed caller none },
        .handed key index false) := by
  rw [serve, hmissed]
  simp [Registry.enter, hfind]

theorem serve_enter_of_none (hmissed : callers.missed caller = some key)
    (hfind : callers.registry.find? key = none) :
    callers.serve now (.enter caller) =
      ({ callers with
          registry := (callers.registry.limiterFor key now).1
          missed := Function.update callers.missed caller none },
        .handed key callers.registry.limiters.size true) := by
  rw [serve, hmissed]
  simp [Registry.limiterFor_of_none hfind, Registry.enter, hfind]

/-- **Two steps that nobody comes between** are one call. -/
theorem run_look_enter (hidle : callers.missed caller = none) :
    (callers.run [(now, .look caller key), (now, .enter caller)]).1 =
        { callers with registry := (callers.registry.limiterFor key now).1 } ∧
      ∃ built, .handed key (callers.registry.limiterFor key now).2 built ∈
        (callers.run [(now, .look caller key), (now, .enter caller)]).2 := by
  have hback : Function.update callers.missed caller none = callers.missed := by
    rw [← hidle, Function.update_eq_self]
  cases hfind : callers.registry.find? key with
  | some index =>
    have hnothing : callers.serve now (.enter caller) = (callers, .nothing) := by
      rw [serve, hidle]
    rw [run_cons, serve_look_of_some hidle hfind, run_cons, hnothing,
      Registry.limiterFor_of_some hfind]
    exact ⟨rfl, false, List.mem_cons_self⟩
  | none =>
    have hmissed : ({ callers with
        missed := Function.update callers.missed caller (some key) } : Callers).missed caller =
          some key := Function.update_self ..
    rw [run_cons, serve_look_of_none hidle hfind, run_cons, serve_enter_of_none hmissed hfind]
    refine ⟨?_, true, ?_⟩
    · simp [run, hback]
    · simp [Registry.limiterFor_of_none hfind]

end Serve

/-! ## What becomes of a key -/

/-- What an event tells about the limiter that serves a key, before and after it. -/
inductive Passes (key : String) : Option Nat → Event → Option Nat → Prop
  | found {index : Nat} : Passes key (some index) (.handed key index false) (some index)
  | built {index : Nat} : Passes key none (.handed key index true) (some index)
  | forgotten {index : Nat} : Passes key (some index) (.forgotten key) none
  | other {index? : Option Nat} {event : Event}
      (hhanded : ∀ index built, event ≠ .handed key index built)
      (hforgotten : event ≠ .forgotten key) : Passes key index? event index?

section Passes

variable {callers : Callers} {now : Int} {key : String}

theorem passes_look (callers : Callers) (now : Int) (key : String) (caller : Nat)
    (asked : String) :
    Passes key (callers.registry.find? key) (callers.serve now (.look caller asked)).2
      ((callers.serve now (.look caller asked)).1.registry.find? key) := by
  cases hmissed : callers.missed caller with
  | some _ =>
    rw [serve, hmissed]
    exact .other (by simp) (by simp)
  | none =>
    cases hfind : callers.registry.find? asked with
    | none =>
      rw [serve_look_of_none hmissed hfind]
      exact .other (by simp) (by simp)
    | some index =>
      rw [serve_look_of_some hmissed hfind]
      by_cases hkey : asked = key
      · rw [← hkey, hfind]
        exact .found
      · exact .other (by simp [hkey]) (by simp)

theorem passes_enter (callers : Callers) (now : Int) (key : String) (caller : Nat) :
    Passes key (callers.registry.find? key) (callers.serve now (.enter caller)).2
      ((callers.serve now (.enter caller)).1.registry.find? key) := by
  cases hmissed : callers.missed caller with
  | none =>
    rw [serve, hmissed]
    exact .other (by simp) (by simp)
  | some asked =>
    cases hfind : callers.registry.find? asked with
    | some index =>
      rw [serve_enter_of_some hmissed hfind]
      by_cases hkey : asked = key
      · rw [← hkey, hfind]
        exact .found
      · exact .other (by simp [hkey]) (by simp)
    | none =>
      rw [serve_enter_of_none hmissed hfind]
      by_cases hkey : asked = key
      · rw [← hkey, hfind, Registry.find?_limiterFor, Registry.limiterFor_of_none hfind]
        exact .built
      · rw [Registry.find?_limiterFor_of_ne (Ne.symm hkey)]
        exact .other (by simp [hkey]) (by simp)

theorem passes_visit (callers : Callers) (now : Int) (key visited : String) :
    Passes key (callers.registry.find? key) (callers.serve now (.visit visited)).2
      ((callers.serve now (.visit visited)).1.registry.find? key) := by
  rw [serve]
  by_cases hkey : visited = key
  · subst hkey
    cases hfind : callers.registry.find? visited with
    | none =>
      rw [Registry.visit_of_none now hfind, hfind]
      exact .other (by simp) (by simp)
    | some index =>
      rw [Registry.find?_visit now hfind]
      by_cases hr : callers.registry.recoversAt now index
      · rw [if_pos hr, if_pos ⟨rfl, rfl⟩]
        exact .forgotten
      · rw [if_neg hr, if_neg (by simp)]
        exact .other (by simp) (by simp)
  · rw [Registry.find?_visit_of_ne now (Ne.symm hkey)]
    refine .other ?_ ?_
    · intro index built
      split <;> simp
    · split <;> simp [hkey]

/-- **The event of a turn tells what became of a key.** -/
theorem passes_serve (callers : Callers) (now : Int) (key : String) (turn : Turn) :
    Passes key (callers.registry.find? key) (callers.serve now turn).2
      ((callers.serve now turn).1.registry.find? key) := by
  cases turn with
  | look caller asked => exact passes_look callers now key caller asked
  | enter caller => exact passes_enter callers now key caller
  | visit visited => exact passes_visit callers now key visited
  | call index call =>
    rw [serve]
    split
    · exact .other (by simp) (by simp)
    · exact .other (by simp) (by simp)

/-- What a list of events tells about a key, from the limiter that serves it at first. -/
inductive Follows (key : String) : Option Nat → List Event → Prop
  | nil {index? : Option Nat} : Follows key index? []
  | cons {before? after? : Option Nat} {event : Event} {events : List Event}
      (hevent : Passes key before? event after?) (hevents : Follows key after? events) :
      Follows key before? (event :: events)

theorem follows_run (callers : Callers) (key : String) (turns : List (Int × Turn)) :
    Follows key (callers.registry.find? key) (callers.run turns).2 := by
  induction turns generalizing callers with
  | nil => exact .nil
  | cons turn turns ih =>
    rw [run_cons]
    exact .cons (passes_serve callers turn.1 key turn.2) (ih _)

namespace Follows

variable {index index? : Option Nat} {events : List Event}

/-- A limiter is built for a key only if none serves it, and then there is one until it is
forgotten. -/
theorem countP_builds_le (h : Follows key index? events) :
    events.countP (Event.builds key) + (if index?.isSome then 1 else 0) ≤
      1 + events.count (.forgotten key) := by
  -- A limiter that serves the key stands for one that was built and has not been forgotten yet.
  induction h with
  | nil =>
    rw [List.countP_nil, List.count_nil]
    split <;> omega
  | cons hevent _ ih =>
    cases hevent with
    | found => simpa [Event.builds] using ih
    | built =>
      simp [Event.builds] at ih ⊢
      omega
    | forgotten =>
      simp [Event.builds] at ih ⊢
      omega
    | other hhanded hforgotten =>
      rw [List.countP_cons_of_neg (by simp [Event.builds_eq_false hhanded]),
        List.count_cons_of_ne hforgotten]
      exact ih

/-- As long as a limiter is not forgotten, who asks for its key is handed it. -/
theorem eq_of_kept {first second : Nat} {built : Bool} {middle back : List Event}
    (h : Follows key (some first) (middle ++ .handed key second built :: back))
    (hkept : .forgotten key ∉ middle) : first = second := by
  induction middle with
  | nil =>
    cases h with
    | cons hevent _ =>
      cases hevent with
      | found => rfl
      | other hhanded _ => exact absurd rfl (hhanded second built)
  | cons event middle ih =>
    obtain ⟨hevent', hmiddle⟩ := not_or.mp (List.mem_cons.not.mp hkept)
    cases h with
    | cons hevent hevents =>
      cases hevent with
      | found => exact ih hevents hmiddle
      | forgotten => exact absurd rfl hevent'
      | other => exact ih hevents hmiddle

/-- Who is handed a limiter is handed the one that serves the key from then on. -/
theorem of_handed {first : Nat} {built : Bool} {front back : List Event}
    (h : Follows key index? (front ++ .handed key first built :: back)) :
    Follows key (some first) back := by
  induction front generalizing index? with
  | nil =>
    cases h with
    | cons hevent hevents =>
      cases hevent with
      | found => exact hevents
      | built => exact hevents
      | other hhanded _ => exact absurd rfl (hhanded first built)
  | cons event front ih =>
    cases h with
    | cons _ hevents => exact ih hevents

end Follows

end Passes

/-! ## Callers on their way -/

section Missed

variable {callers : Callers} {now : Int} {caller : Nat} {key : String}

/-- A caller is on his way until he enters his key, whatever the others do. -/
theorem missed_serve (hmissed : callers.missed caller = some key) (turn : Turn)
    (hother : turn ≠ .enter caller) :
    (callers.serve now turn).1.missed caller = some key := by
  cases turn with
  | look asker asked =>
    rw [serve]
    split
    · exact hmissed
    · rename_i hidle
      split
      · exact hmissed
      · have hne : caller ≠ asker := by
          rintro rfl
          rw [hmissed] at hidle
          cases hidle
        rw [← hmissed]
        exact Function.update_of_ne hne ..
  | enter asker =>
    rw [serve]
    split
    · exact hmissed
    · have hne : caller ≠ asker := fun heq => hother (heq ▸ rfl)
      rw [← hmissed]
      exact Function.update_of_ne hne ..
  | visit visited => exact hmissed
  | call index call =>
    rw [serve]
    split
    · exact hmissed
    · exact hmissed

theorem missed_run (hmissed : callers.missed caller = some key) {turns : List (Int × Turn)}
    (hothers : ∀ turn ∈ turns, turn.2 ≠ .enter caller) :
    (callers.run turns).1.missed caller = some key := by
  induction turns generalizing callers with
  | nil => exact hmissed
  | cons turn turns ih =>
    obtain ⟨hturn, hturns⟩ := List.forall_mem_cons.mp hothers
    exact ih (missed_serve hmissed turn.2 hturn) hturns

/-- Who enters his key is handed a limiter. -/
theorem exists_handed (hmissed : callers.missed caller = some key) (now : Int) :
    ∃ index built, (callers.serve now (.enter caller)).2 = .handed key index built := by
  rw [serve, hmissed]
  exact ⟨_, _, rfl⟩

/-- Who is idle and asks is handed a limiter or is on his way. -/
theorem handed_or_missed (hidle : callers.missed caller = none) (now : Int) (key : String) :
    (∃ index, (callers.serve now (.look caller key)).2 = .handed key index false) ∨
      (callers.serve now (.look caller key)).1.missed caller = some key := by
  cases hfind : callers.registry.find? key with
  | some index =>
    rw [serve_look_of_some hidle hfind]
    exact .inl ⟨index, rfl⟩
  | none =>
    rw [serve_look_of_none hidle hfind]
    exact .inr (Function.update_self ..)

end Missed

/-! ## What callers are handed -/

/-- A limiter that is built is a new one. -/
theorem eq_size_of_built {callers : Callers} {now : Int} {turn : Turn} {key : String}
    {index : Nat} (h : (callers.serve now turn).2 = .handed key index true) :
    index = callers.registry.limiters.size := by
  cases turn with
  | look caller asked =>
    rw [serve] at h
    split at h
    · cases h
    · split at h <;> cases h
  | enter caller =>
    cases hmissed : callers.missed caller with
    | none =>
      rw [serve, hmissed] at h
      cases h
    | some asked =>
      cases hfind : callers.registry.find? asked with
      | some found =>
        rw [serve_enter_of_some hmissed hfind] at h
        cases h
      | none =>
        rw [serve_enter_of_none hmissed hfind] at h
        cases h
        rfl
  | visit visited =>
    rw [serve] at h
    split at h <;> cases h
  | call limiter call =>
    rw [serve] at h
    split at h <;> cases h

/-- Who is handed a limiter is handed the one that serves his key then. It served the key before,
or it is new and none did. -/
theorem find?_of_handed {callers : Callers} {now : Int} {turn : Turn} {key : String} {index : Nat}
    {built : Bool} (h : (callers.serve now turn).2 = .handed key index built) :
    (callers.serve now turn).1.registry.find? key = some index ∧
      if built then callers.registry.find? key = none ∧ index = callers.registry.limiters.size
      else callers.registry.find? key = some index := by
  have hpasses := passes_serve callers now key turn
  rw [h] at hpasses
  generalize callers.registry.find? key = before? at *
  generalize (callers.serve now turn).1.registry.find? key = after? at *
  cases hpasses with
  | found => exact ⟨rfl, rfl⟩
  | built => exact ⟨rfl, rfl, eq_size_of_built h⟩
  | other hhanded _ => exact absurd rfl (hhanded index built)

/-- **What callers of a key are handed**, however their steps, those of sweeps and uses of permits
follow each other. Limiters are built for the key no more often than it is forgotten, and once more.
Callers are handed the same limiter if the key is not forgotten in between. Who is handed a limiter
is handed the one that serves the key at this step. And every caller is handed one: at once, or when
he enters the key, whatever the others do until then. -/
theorem handed_alike (policy : Policy) (key : String) (turns : List (Int × Turn)) :
    let callers := ((idle policy).run turns).1
    let events := ((idle policy).run turns).2
    events.countP (Event.builds key) ≤ 1 + events.count (.forgotten key) ∧
    (∀ front middle back first second built built',
      events = front ++ .handed key first built :: (middle ++ .handed key second built' :: back) →
      .forgotten key ∉ middle → first = second) ∧
    (∀ now turn index built, (callers.serve now turn).2 = .handed key index built →
      (callers.serve now turn).1.registry.find? key = some index ∧
        if built then callers.registry.find? key = none ∧ index = callers.registry.limiters.size
        else callers.registry.find? key = some index) ∧
    (∀ now caller, callers.missed caller = none →
      (∃ index, (callers.serve now (.look caller key)).2 = .handed key index false) ∨
      ∀ later others, (∀ turn ∈ others, turn.2 ≠ .enter caller) →
        ∃ index built,
          (((callers.serve now (.look caller key)).1.run others).1.serve later (.enter caller)).2 =
            .handed key index built) := by
  intro callers events
  have hfollows : Follows key none events := follows_run (idle policy) key turns
  refine ⟨?_, ?_, ?_, ?_⟩
  · exact hfollows.countP_builds_le
  · intro front middle back first second built built' hevents hkept
    rw [hevents] at hfollows
    exact hfollows.of_handed.eq_of_kept hkept
  · intro now turn index built h
    exact find?_of_handed h
  · intro now caller hidle
    refine (handed_or_missed hidle now key).imp_right fun hmissed => ?_
    intro later others hothers
    exact exists_handed (missed_run hmissed hothers) later

/-- Four callers miss the same key. The limiter of the first is forgotten, and so the second has
another one built; the third is handed that one, and so is the last. -/
theorem handed_alike_four_callers :
    let turns : List (Int × Turn) :=
      [(0, .look 0 "a"), (0, .look 1 "a"), (0, .look 2 "a"), (0, .look 3 "a"), (0, .enter 0),
        (0, .visit "a"), (1, .enter 1), (1, .enter 2)]
    let callers := ((idle .twoInTen).run turns).1
    let events := ((idle .twoInTen).run turns).2
    events.countP (Event.builds "a") ≤ 1 + events.count (.forgotten "a") ∧
      (∃ first second, events = [.missed "a", .missed "a", .missed "a", .missed "a",
        .handed "a" 0 true, .forgotten "a", .handed "a" first true, .handed "a" second false] ∧
        first = second) ∧
      (callers.serve 1 (.enter 3)).2 = .handed "a" 1 false ∧
      (callers.serve 1 (.enter 3)).1.registry.find? "a" = some 1 := by
  intro turns callers events
  obtain ⟨hbuilt, hsame, hserves, -⟩ := handed_alike .twoInTen "a" turns
  have hevents : events = [.missed "a", .missed "a", .missed "a", .missed "a", .handed "a" 0 true,
      .forgotten "a", .handed "a" 1 true, .handed "a" 1 false] := by decide +kernel
  have hlast : (callers.serve 1 (.enter 3)).2 = .handed "a" 1 false := by decide +kernel
  refine ⟨hbuilt, ⟨1, 1, hevents, ?_⟩, hlast, (hserves 1 (.enter 3) 1 false hlast).1⟩
  exact hsame [.missed "a", .missed "a", .missed "a", .missed "a", .handed "a" 0 true,
    .forgotten "a"] [] [] 1 1 true false hevents List.not_mem_nil

end Callers

end Throttle
