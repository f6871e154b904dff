import Throttle.Proofs.Limiter.Desk
import Throttle.Proofs.Registry.View

/-!
# The clients of a registry

Clients ask a registry for the limiters of keys, keep what they are handed for as long as they like,
and take and use permits at any of it, while sweeps run in between. A limiter that was forgotten in
a sweep goes on working for whoever holds it.

## Main definitions

* `Clients.serve`, `Clients.run` — what comes of what clients do.
* `Clients.prompt` — a run in which nobody uses a permit of a key's limiter without having been
  handed this limiter since the last sweep.

## Main statements

* `moves_serve` — what an act makes of the window that serves a key, if permits are used promptly.
-/

namespace Throttle

/-- A registry, and what its clients hold. -/
structure Clients where
  registry : Registry
  /-- The limiters that were handed out, in this order, each with the key it was asked for. -/
  handed : List (String × Nat)
  /-- The permits that each limiter has issued. -/
  permits : Nat → List Permit
  /-- How many limiters had been handed out when the last sweep came. -/
  swept : Nat

namespace Clients

/-- What clients do. Something that was handed out is named by its number. -/
inductive Act where
  /-- Ask for the limiter of a key. Somebody whose scope is over is told only that. -/
  | ask (key : String) (ended : Option EndReason)
  | call (handle : Nat) (call : Desk.Call)
  | sweep
deriving Repr, DecidableEq

/-- What comes of it. -/
inductive Report where
  | ended (reason : EndReason)
  | handed (limiter : Nat)
  | told (key : String) (answer : Desk.Answer)
  | swept (forgotten : Nat)
  /-- Nothing was handed out under this number. -/
  | unknown
deriving Repr, DecidableEq

/-- The units that were recorded for a key, if any were. -/
def Report.recordedFor (key : String) : Report → Option Nat
  | .told asked answer => if asked = key then answer.recorded else none
  | _ => none

/-- What a list of reports adds to the ledger of a key. -/
def recordingsFor (key : String) (reports : List (Int × Report)) : List Recording :=
  reports.flatMap fun report => Window.entries report.1 (report.2.recordedFor key)

/-- Nobody has asked for anything. -/
def new (policy : Policy) : Clients := ⟨.empty policy, [], fun _ => [], 0⟩

/-- Serve an act at the reading `now`. -/
def serve (clients : Clients) (now : Int) : Act → Clients × Report
  | .ask _ (some reason) => (clients, .ended reason)
  | .ask key none =>
    let found := clients.registry.limiterFor key now
    ({ clients with registry := found.1, handed := clients.handed ++ [(key, found.2)] },
      .handed found.2)
  | .call handle call =>
    match clients.handed[handle]? with
    | none => (clients, .unknown)
    | some (key, index) =>
      match clients.registry.limiters[index]? with
      | none => (clients, .unknown)
      | some limiter =>
        let served := Desk.serve ⟨limiter, clients.permits index⟩ now call
        ({ clients with
            registry := clients.registry.put index served.1.limiter
            permits := fun other =>
              if other = index then served.1.permits else clients.permits other },
          .told key served.2)
  | .sweep =>
    ({ clients with registry := clients.registry.sweep now, swept := clients.handed.length },
      .swept (clients.registry.forgotten now))

/-- Serve one act after the other. -/
def run (clients : Clients) : List (Int × Act) → Clients × List (Int × Report)
  | [] => (clients, [])
  | (now, act) :: acts =>
    let served := clients.serve now act
    let rest := served.1.run acts
    (rest.1, (now, served.2) :: rest.2)

theorem run_cons (clients : Clients) (now : Int) (act : Act) (acts : List (Int × Act)) :
    clients.run ((now, act) :: acts) =
      (((clients.serve now act).1.run acts).1,
        (now, (clients.serve now act).2) :: ((clients.serve now act).1.run acts).2) := rfl

/-- A call on something that was handed out is served at the desk of its limiter. -/
theorem serve_call {clients : Clients} {handle index : Nat} {key : String} {limiter : Limiter}
    (hhanded : clients.handed[handle]? = some (key, index))
    (hlimiter : clients.registry.limiters[index]? = some limiter) (now : Int) (call : Desk.Call) :
    clients.serve now (.call handle call) =
      let served := Desk.serve ⟨limiter, clients.permits index⟩ now call
      ({ clients with
          registry := clients.registry.put index served.1.limiter
          permits := fun other =>
            if other = index then served.1.permits else clients.permits other },
        .told key served.2) := by
  rw [serve, hhanded]
  simp only [hlimiter]

/-- Whether an act uses a permit for `key` only if its limiter was handed out, for this key, since
the last sweep. -/
def promptAt (key : String) (clients : Clients) : Act → Bool
  | .call handle (.use _) =>
    match clients.handed[handle]? with
    | none => true
    | some (asked, _) => asked ≠ key ∨ clients.swept ≤ handle
  | _ => true

/-- Whether all acts of a run are prompt. -/
def prompt (key : String) (clients : Clients) : List (Int × Act) → Bool
  | [] => true
  | (now, act) :: acts => clients.promptAt key act && (clients.serve now act).1.prompt key acts

/-! ## What is held and what serves a key -/

/-- Nobody holds a limiter under a wrong key, and whatever was handed out since the last sweep still
serves its key. -/
structure Tidy (clients : Clients) : Prop where
  registry : clients.registry.Tidy
  handed_lt : ∀ entry ∈ clients.handed, entry.2 < clients.registry.limiters.size
  handed_key : ∀ entry ∈ clients.handed, ∀ key,
    clients.registry.find? key = some entry.2 → key = entry.1
  current : ∀ handle entry, clients.swept ≤ handle → clients.handed[handle]? = some entry →
    clients.registry.find? entry.1 = some entry.2

theorem tidy_new (policy : Policy) : (new policy).Tidy where
  registry := Registry.tidy_empty policy
  handed_lt := by simp [new]
  handed_key := by simp [new]
  current := by simp [new]

theorem Tidy.ask {clients : Clients} (h : clients.Tidy) (now : Int) (key : String) :
    (clients.serve now (.ask key none)).1.Tidy where
  registry := h.registry.limiterFor key now
  handed_lt entry hentry := by
    have hsize := Registry.size_le_size_limiterFor clients.registry key now
    rcases List.mem_append.mp hentry with hentry | hentry
    · exact Nat.lt_of_lt_of_le (h.handed_lt entry hentry) hsize
    · rw [List.mem_singleton.mp hentry]
      exact (h.registry.limiterFor key now).lt_of_find? (Registry.find?_limiterFor ..)
  handed_key entry hentry other hother := by
    rcases List.mem_append.mp hentry with hentry | hentry
    · have hlt := h.handed_lt entry hentry
      refine h.handed_key entry hentry other ?_
      change (clients.registry.limiterFor key now).1.find? other = some entry.2 at hother
      cases hfind : clients.registry.find? key with
      | some index => rwa [Registry.limiterFor_of_some hfind] at hother
      | none =>
        -- A limiter that was just made is nobody's yet.
        by_cases heq : other = key
        · rw [heq, Registry.find?_limiterFor, Registry.limiterFor_of_none hfind] at hother
          have hnew : clients.registry.limiters.size = entry.2 := Option.some.inj hother
          omega
        · rwa [Registry.find?_limiterFor_of_ne heq] at hother
    · rw [List.mem_singleton.mp hentry] at hother ⊢
      exact (h.registry.limiterFor key now).key_eq hother (Registry.find?_limiterFor ..)
  current handle entry hswept hentry := by
    change (clients.registry.limiterFor key now).1.find? entry.1 = some entry.2
    change (clients.handed ++ _)[handle]? = some entry at hentry
    by_cases hold : handle < clients.handed.length
    · rw [List.getElem?_append_left hold] at hentry
      have hfind := h.current handle entry hswept hentry
      by_cases heq : entry.1 = key
      · rw [heq] at hfind ⊢
        rw [Registry.limiterFor_of_some hfind, hfind]
      · rw [Registry.find?_limiterFor_of_ne heq, hfind]
    · rw [List.getElem?_append_right (Nat.not_lt.mp hold)] at hentry
      rw [List.mem_singleton.mp (List.mem_of_getElem? hentry)]
      exact Registry.find?_limiterFor ..

theorem Tidy.call {clients : Clients} (h : clients.Tidy) (now : Int) (handle : Nat)
    (call : Desk.Call) : (clients.serve now (.call handle call)).1.Tidy := by
  rw [serve]
  split
  · exact h
  · rename_i key index _
    split
    · exact h
    · rename_i limiter hlimiter
      have hplan : (Desk.serve ⟨limiter, clients.permits index⟩ now call).1.limiter.window.plan =
          clients.registry.policy.plan := by
        rw [Desk.plan_serve]
        exact h.registry.plan_eq index limiter hlimiter
      refine ⟨h.registry.put hplan index, fun entry hentry => ?_, h.handed_key, h.current⟩
      rw [Registry.size_limiters_put]
      exact h.handed_lt entry hentry

theorem Tidy.sweep {clients : Clients} (h : clients.Tidy) (now : Int) :
    (clients.serve now .sweep).1.Tidy where
  registry := h.registry.sweep now
  handed_lt entry hentry := by
    change _ < (clients.registry.sweep now).limiters.size
    rw [Registry.size_limiters_sweep h.registry]
    exact h.handed_lt entry hentry
  handed_key entry hentry key hkey :=
    h.handed_key entry hentry key (Registry.find?_of_find?_sweep h.registry hkey)
  current handle entry hswept hentry := by
    change clients.handed.length ≤ handle at hswept
    change clients.handed[handle]? = some entry at hentry
    rw [List.getElem?_eq_none hswept] at hentry
    cases hentry

theorem Tidy.serve {clients : Clients} (h : clients.Tidy) (now : Int) (act : Act) :
    (clients.serve now act).1.Tidy := by
  cases act with
  | ask key ended =>
    cases ended with
    | some reason => exact h
    | none => exact h.ask now key
  | call handle call => exact h.call now handle call
  | sweep => exact h.sweep now

theorem Tidy.run {clients : Clients} (h : clients.Tidy) (acts : List (Int × Act)) :
    (clients.run acts).1.Tidy := by
  induction acts generalizing clients with
  | nil => exact h
  | cons event acts ih => exact ih (h.serve event.1 event.2)

@[simp] theorem policy_serve (clients : Clients) (now : Int) (act : Act) :
    (clients.serve now act).1.registry.policy = clients.registry.policy := by
  cases act with
  | ask key ended =>
    cases ended with
    | some reason => rfl
    | none => exact Registry.policy_limiterFor ..
  | call handle call =>
    rw [serve]
    split
    · rfl
    · split <;> rfl
  | sweep => rfl

/-! ## What becomes of a key -/

/-- What an act at the reading `now` can make of the window that serves a key, and what it records
for the key. -/
inductive Moves (plan : Plan) (now : Int) : Option Window → Option Nat → Option Window → Prop
  | absent : Moves plan now none none none
  | made : Moves plan now none none (some (Window.fresh plan now))
  | moved {window after : Window} {recorded : Option Nat}
      (move : Window.Move now window recorded after) :
      Moves plan now (some window) recorded (some after)
  | forgotten {window : Window} (empty : (window.advance now).total = 0) :
      Moves plan now (some window) none none

theorem Moves.refl (plan : Plan) (now : Int) (window? : Option Window) :
    Moves plan now window? none window? := by
  cases window? with
  | none => exact .absent
  | some window => exact .moved .stay

theorem moves_limiterFor {registry : Registry} (h : registry.Tidy) (now : Int)
    (asked key : String) :
    Moves registry.policy.plan now (registry.window? key) none
      ((registry.limiterFor asked now).1.window? key) := by
  by_cases heq : key = asked
  · rw [heq, Registry.window?_limiterFor h]
    cases registry.window? asked with
    | none => exact .made
    | some window => exact .moved .stay
  · rw [Registry.window?_limiterFor_of_ne h heq]
    exact .refl ..

theorem moves_sweep {registry : Registry} (h : registry.Tidy) (now : Int) (key : String) :
    Moves registry.policy.plan now (registry.window? key) none
      ((registry.sweep now).window? key) := by
  rw [Registry.window?_sweep h]
  cases registry.window? key with
  | none => exact .absent
  | some window =>
    rw [Option.bind_some]
    by_cases hzero : (window.advance now).total = 0
    · rw [if_pos hzero]
      exact .forgotten hzero
    · rw [if_neg hzero]
      exact .moved .turn

theorem moves_call {clients : Clients} (h : clients.Tidy) (now : Int) (key : String) (handle : Nat)
    (call : Desk.Call) (hprompt : clients.promptAt key (.call handle call)) :
    Moves clients.registry.policy.plan now (clients.registry.window? key)
      ((clients.serve now (.call handle call)).2.recordedFor key)
      ((clients.serve now (.call handle call)).1.registry.window? key) := by
  cases hhanded : clients.handed[handle]? with
  | none =>
    rw [serve, hhanded]
    exact .refl ..
  | some entry =>
    obtain ⟨asked, index⟩ := entry
    cases hlimiter : clients.registry.limiters[index]? with
    | none =>
      rw [serve, hhanded]
      simp only [hlimiter]
      exact .refl ..
    | some limiter =>
      rw [serve_call hhanded hlimiter]
      have hmove := Desk.move_serve ⟨limiter, clients.permits index⟩ now call
      by_cases hserves : clients.registry.find? key = some index
      · -- The limiter serves the key, and so it was handed out for it.
        have hkey := h.handed_key _ (List.mem_of_getElem? hhanded) key hserves
        rw [Registry.window?_put h.registry hserves, Registry.window?_of_find? hserves, hlimiter,
          Report.recordedFor, if_pos hkey.symm]
        exact .moved hmove
      · -- It does not serve the key. It may have done so before a sweep; then it is not used.
        have hnone : (Report.told asked
            (Desk.serve ⟨limiter, clients.permits index⟩ now call).2).recordedFor key = none := by
          by_cases hkey : asked = key
          · rw [Report.recordedFor, if_pos hkey]
            refine Desk.recorded_serve_eq_none _ now call fun number huse => hserves ?_
            rw [huse, promptAt, hhanded] at hprompt
            have hswept : clients.swept ≤ handle := by simpa [hkey] using hprompt
            exact hkey ▸ h.current handle (asked, index) hswept hhanded
          · rw [Report.recordedFor, if_neg hkey]
        rw [Registry.window?_put_of_ne hserves, hnone]
        exact .refl ..

/-- **What an act makes of the window that serves a key**, if it uses the permits of the key's
limiters promptly or not at all. -/
theorem moves_serve {clients : Clients} (h : clients.Tidy) (now : Int) (key : String) (act : Act)
    (hprompt : clients.promptAt key act) :
    Moves clients.registry.policy.plan now (clients.registry.window? key)
      ((clients.serve now act).2.recordedFor key)
      ((clients.serve now act).1.registry.window? key) := by
  cases act with
  | ask asked ended =>
    cases ended with
    | some reason => exact .refl ..
    | none => exact moves_limiterFor h.registry now asked key
  | call handle call => exact moves_call h now key handle call hprompt
  | sweep => exact moves_sweep h.registry now key

end Clients

end Throttle
