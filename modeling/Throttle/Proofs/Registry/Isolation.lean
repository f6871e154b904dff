import Throttle.Proofs.Registry.Step

/-!
# What the clients of one key notice of the others

They notice nothing. Take everything that is done with other keys out of a run and leave the sweeps
and the readings of the clock as they are: the acts on the key are answered as before, and asking
for the key hands out the same limiter again just where it did before. Limiters are numbered as they
are made, and so a limiter of the key may have another number in the shorter run.

## Main definitions

* `Clients.alone` — a run without the acts on other keys.
* `Clients.seen` — the reports on the acts on a key.
* `Clients.Mirrors` — what the registry has of a key, under other numbers.

## Main statements

* `Mirrors.kept`, `Mirrors.taken_out` — acts keep what mirrors each other so.
* `Clients.seen_alone` — the clients of a key do not notice the others.
-/

namespace Throttle

namespace Clients

/-- The key that an act is on. A sweep is on none. -/
def about? (clients : Clients) : Act → Option String
  | .ask key _ => some key
  | .call handle _ => clients.handed[handle]?.map Prod.fst
  | .sweep => none

/-- The number of something that was handed out, if only what was handed out for a key counts. -/
def place (key : String) (clients : Clients) (handle : Nat) : Nat :=
  (clients.handed.take handle).countP fun entry => entry.1 = key

/-- What is left of an act when acts on other keys than `key` are taken out. -/
def keep? (key : String) (clients : Clients) (act : Act) : Option Act :=
  match act with
  | .ask _ _ => if clients.about? act = some key then some act else none
  | .call handle call =>
    if clients.about? act = some key then some (.call (clients.place key handle) call) else none
  | .sweep => some .sweep

/-- A run without the acts on other keys than `key`. -/
def alone (key : String) (clients : Clients) : List (Int × Act) → List (Int × Act)
  | [] => []
  | (now, act) :: acts =>
    let rest := (clients.serve now act).1.alone key acts
    match clients.keep? key act with
    | none => rest
    | some kept => (now, kept) :: rest

/-- What is reported on the acts on a key. -/
def seen (key : String) (clients : Clients) : List (Int × Act) → List (Int × Report)
  | [] => []
  | (now, act) :: acts =>
    let served := clients.serve now act
    let rest := served.1.seen key acts
    if clients.about? act = some key then (now, served.2) :: rest else rest

/-- A report with other numbers for the limiters. -/
def Report.rename (names : Nat → Nat) : Report → Report
  | .handed limiter => .handed (names limiter)
  | report => report

/-- The limiters that were handed out for a key. -/
def owned (key : String) (clients : Clients) : Set Nat := {index | (key, index) ∈ clients.handed}

/-! ## Who owns a limiter -/

/-- No limiter is handed out for two keys, the limiter that serves a key was handed out for it, and
a limiter has issued no permits before it is made. -/
structure Orderly (clients : Clients) : Prop where
  tidy : clients.Tidy
  owner : ∀ key other index, (key, index) ∈ clients.handed → (other, index) ∈ clients.handed →
    key = other
  served : ∀ key index, clients.registry.find? key = some index → index ∈ clients.owned key
  unissued : ∀ index, clients.registry.limiters.size ≤ index → clients.permits index = []

theorem orderly_new (policy : Policy) : (new policy).Orderly where
  tidy := tidy_new policy
  owner := by simp [new]
  served key index h := by cases h
  unissued _ _ := rfl

section Orderly

variable {clients : Clients} {key asked : String} {index : Nat}

theorem mem_owned_ask (now : Int) : index ∈ (clients.serve now (.ask asked none)).1.owned key ↔
    index ∈ clients.owned key ∨
      key = asked ∧ index = (clients.registry.limiterFor asked now).2 := by
  simp [owned, serve]

/-- Who is handed a limiter owns it. -/
theorem mem_owned_of_handed {now : Int}
    (h : (clients.serve now (.ask asked none)).2 = .handed index) :
    index ∈ (clients.serve now (.ask asked none)).1.owned asked :=
  (mem_owned_ask now).mpr (.inr ⟨rfl, (Report.handed.inj h).symm⟩)

theorem handed_call (now : Int) (handle : Nat) (call : Desk.Call) :
    (clients.serve now (.call handle call)).1.handed = clients.handed := by
  rw [serve]
  split
  · rfl
  · split <;> rfl

theorem owned_subset_serve (clients : Clients) (key : String) (now : Int) (act : Act) :
    clients.owned key ⊆ (clients.serve now act).1.owned key := by
  intro index hindex
  cases act with
  | ask asked ended =>
    cases ended with
    | some reason => exact hindex
    | none => exact (mem_owned_ask now).mpr (.inl hindex)
  | call handle call => rwa [owned, handed_call]
  | sweep => exact hindex

theorem Orderly.ask (h : clients.Orderly) (now : Int) (asked : String) :
    (clients.serve now (.ask asked none)).1.Orderly where
  tidy := h.tidy.ask now asked
  owner key other index hkey hother := by
    -- What is handed out serves the key it was asked for, and so it belongs to no other.
    have hnew : ∀ entry ∈ clients.handed,
        entry.2 = (clients.registry.limiterFor asked now).2 → asked = entry.1 := by
      intro entry hentry heq
      refine (h.tidy.ask now asked).handed_key entry (List.mem_append_left _ hentry) asked ?_
      rw [heq]
      exact Registry.find?_limiterFor ..
    rcases (mem_owned_ask now).mp hkey with hold | ⟨heq, hindex⟩
    · rcases (mem_owned_ask now).mp hother with hold' | ⟨heq', hindex'⟩
      · exact h.owner key other index hold hold'
      · exact (heq'.trans (hnew (key, index) hold hindex')).symm
    · rcases (mem_owned_ask now).mp hother with hold' | ⟨heq', -⟩
      · exact heq.trans (hnew (other, index) hold' hindex)
      · exact heq.trans heq'.symm
  served key index hfind := by
    refine (mem_owned_ask now).mpr ?_
    change (clients.registry.limiterFor asked now).1.find? key = some index at hfind
    by_cases heq : key = asked
    · subst heq
      rw [Registry.find?_limiterFor, Option.some.injEq] at hfind
      exact .inr ⟨rfl, hfind.symm⟩
    · rw [Registry.find?_limiterFor_of_ne heq] at hfind
      exact .inl (h.served key index hfind)
  unissued index hindex := h.unissued index
    ((Registry.size_le_size_limiterFor clients.registry asked now).trans hindex)

theorem Orderly.call (h : clients.Orderly) (now : Int) (handle : Nat) (call : Desk.Call) :
    (clients.serve now (.call handle call)).1.Orderly := by
  have htidy := h.tidy.call now handle call
  rw [serve] at htidy ⊢
  split
  · exact h
  · rename_i key index hhanded
    split
    · exact h
    · rename_i limiter hlimiter
      simp only [hhanded, hlimiter] at htidy
      refine ⟨htidy, h.owner, h.served, fun other hother => ?_⟩
      have hlt := Array.getElem?_eq_some_iff.mp hlimiter |>.1
      rw [Registry.size_limiters_put] at hother
      exact (if_neg (by omega)).trans (h.unissued other hother)

theorem Orderly.serve (h : clients.Orderly) (now : Int) (act : Act) :
    (clients.serve now act).1.Orderly := by
  cases act with
  | ask asked ended =>
    cases ended with
    | some reason => exact h
    | none => exact h.ask now asked
  | call handle call => exact h.call now handle call
  | sweep =>
    refine ⟨h.tidy.sweep now, h.owner, fun key index hfind => ?_, fun index hindex => ?_⟩
    · exact h.served key index (Registry.find?_of_find?_sweep h.tidy.registry hfind)
    · refine h.unissued index ?_
      rwa [← Registry.size_limiters_sweep h.tidy.registry now]

/-- A sweep comes to a limiter of a key just if it serves this key. -/
theorem Tidy.mem_entries_iff (h : clients.Tidy) (howned : index ∈ clients.owned key) :
    index ∈ clients.registry.entries.map Prod.snd ↔
      clients.registry.find? key = some index := by
  constructor
  · intro hmem
    obtain ⟨entry, hentry, rfl⟩ := List.mem_map.mp hmem
    have hfind := h.registry.find?_of_mem hentry
    rwa [h.handed_key (key, entry.2) howned entry.1 hfind] at hfind
  · intro hfind
    exact List.mem_map_of_mem (Registry.mem_of_find? hfind)

theorem Tidy.lt_of_owned (h : clients.Tidy) (howned : index ∈ clients.owned key) :
    index < clients.registry.limiters.size :=
  h.handed_lt (key, index) howned

end Orderly

/-! ## The same key in two runs -/

/-- Both clients have the same of a key: the limiters were handed out in the same order, the same
one serves the key, and they are in the same state. Only their numbers differ. -/
structure Mirrors (key : String) (names : Nat → Nat) (clients other : Clients) : Prop where
  orderly : clients.Orderly
  orderly' : other.Orderly
  policy_eq : other.registry.policy = clients.registry.policy
  injOn : Set.InjOn names (clients.owned key)
  handed : other.handed =
    (clients.handed.filter fun entry => entry.1 = key).map fun entry => (key, names entry.2)
  find? : other.registry.find? key = (clients.registry.find? key).map names
  limiters : ∀ index ∈ clients.owned key,
    other.registry.limiters[names index]? = clients.registry.limiters[index]?
  permits : ∀ index ∈ clients.owned key, other.permits (names index) = clients.permits index

theorem mirrors_new (policy : Policy) (key : String) :
    Mirrors key id (new policy) (new policy) where
  orderly := orderly_new policy
  orderly' := orderly_new policy
  policy_eq := rfl
  injOn := Set.injOn_id _
  handed := rfl
  find? := rfl
  limiters _ _ := rfl
  permits _ _ := rfl

/-- An element that is kept by a filter comes after those kept before it. -/
theorem getElem?_filter_countP_take {α : Type} {keeps : α → Bool} {list : List α} {place : Nat}
    {element : α} (h : list[place]? = some element) (hkeeps : keeps element) :
    (list.filter keeps)[(list.take place).countP keeps]? = some element := by
  induction list generalizing place with
  | nil => cases h
  | cons first list ih =>
    cases place with
    | zero =>
      obtain rfl := Option.some.inj h
      rw [List.filter_cons_of_pos hkeeps]
      rfl
    | succ place =>
      rw [List.take_succ_cons]
      by_cases hfirst : keeps first
      · rw [List.filter_cons_of_pos hfirst, List.countP_cons_of_pos hfirst]
        exact ih h
      · rw [List.filter_cons_of_neg hfirst, List.countP_cons_of_neg hfirst]
        exact ih h

namespace Mirrors

variable {key asked : String} {names : Nat → Nat} {clients other : Clients} {index : Nat}

theorem mem_owned (h : Mirrors key names clients other) (howned : index ∈ clients.owned key) :
    names index ∈ other.owned key := by
  rw [owned, Set.mem_ofPred_eq, h.handed]
  exact List.mem_map.mpr ⟨(key, index), List.mem_filter.mpr ⟨howned, by simp⟩, rfl⟩

theorem handed_place (h : Mirrors key names clients other) {handle : Nat}
    (hhanded : clients.handed[handle]? = some (key, index)) :
    other.handed[clients.place key handle]? = some (key, names index) := by
  rw [h.handed, List.getElem?_map, place, getElem?_filter_countP_take hhanded (by simp)]
  rfl

/-! ### Acts on other keys -/

theorem ask_other (h : Mirrors key names clients other) (hne : key ≠ asked) (now : Int) :
    Mirrors key names (clients.serve now (.ask asked none)).1 other where
  orderly := h.orderly.ask now asked
  orderly' := h.orderly'
  policy_eq := by
    rw [policy_serve]
    exact h.policy_eq
  injOn := h.injOn.mono fun index hindex => by
    simpa [hne] using (mem_owned_ask now).mp hindex
  handed := by
    simp [serve, h.handed, Ne.symm hne]
  find? := by
    rw [h.find?, serve, Registry.find?_limiterFor_of_ne hne]
  limiters index hindex := by
    have howned : index ∈ clients.owned key := by simpa [hne] using (mem_owned_ask now).mp hindex
    rw [h.limiters index howned, serve,
      Registry.limiters_limiterFor_of_lt (h.orderly.tidy.lt_of_owned howned)]
  permits index hindex := h.permits index (by simpa [hne] using (mem_owned_ask now).mp hindex)

theorem call_other (h : Mirrors key names clients other) {handle : Nat}
    (hother : clients.handed[handle]?.map Prod.fst ≠ some key) (now : Int) (call : Desk.Call) :
    Mirrors key names (clients.serve now (.call handle call)).1 other := by
  have horderly := h.orderly.call now handle call
  rw [serve] at horderly ⊢
  split
  · exact h
  · rename_i asked index hhanded
    split
    · exact h
    · rename_i limiter hlimiter
      simp only [hhanded, hlimiter] at horderly
      -- The limiter belongs to another key, and so it is none of those that are mirrored.
      have hnot : ∀ found ∈ clients.owned key, found ≠ index := by
        rintro found hfound rfl
        have heq := h.orderly.owner asked key found (List.mem_of_getElem? hhanded) hfound
        simp [hhanded, heq] at hother
      refine ⟨horderly, h.orderly', h.policy_eq, h.injOn, h.handed, h.find?, ?_, ?_⟩
      · intro found hfound
        rw [Registry.limiters_put, if_neg (Ne.symm (hnot found hfound))]
        exact h.limiters found hfound
      · intro found hfound
        exact (h.permits found hfound).trans (if_neg (hnot found hfound)).symm

/-! ### Acts on the key, and sweeps -/

theorem sweep (h : Mirrors key names clients other) (now : Int) :
    Mirrors key names (clients.serve now .sweep).1 (other.serve now .sweep).1 where
  orderly := h.orderly.serve now .sweep
  orderly' := h.orderly'.serve now .sweep
  policy_eq := h.policy_eq
  injOn := h.injOn
  handed := h.handed
  find? := by
    change (other.registry.sweep now).find? key = ((clients.registry.sweep now).find? key).map names
    have hsame := h.find?
    cases hfind : clients.registry.find? key with
    | none =>
      rw [hfind] at hsame
      rw [Registry.find?_sweep_of_none h.orderly.tidy.registry hfind,
        Registry.find?_sweep_of_none h.orderly'.tidy.registry hsame]
      rfl
    | some index =>
      rw [hfind] at hsame
      have howned := h.orderly.served key index hfind
      have hlimiter := Array.getElem?_eq_getElem (h.orderly.tidy.lt_of_owned howned)
      have hlimiter' := (h.limiters index howned).trans hlimiter
      have hwindow := Registry.window?_of_find? hfind
      have hwindow' := Registry.window?_of_find? hsame
      rw [hlimiter] at hwindow
      rw [hlimiter'] at hwindow'
      rw [Registry.find?_sweep h.orderly.tidy.registry hfind hwindow,
        Registry.find?_sweep h.orderly'.tidy.registry hsame hwindow']
      split <;> rfl
  limiters index hindex := by
    change (other.registry.sweep now).limiters[names index]? =
      (clients.registry.sweep now).limiters[index]?
    have hserves : names index ∈ other.registry.entries.map Prod.snd ↔
        index ∈ clients.registry.entries.map Prod.snd := by
      rw [h.orderly.tidy.mem_entries_iff hindex,
        h.orderly'.tidy.mem_entries_iff (h.mem_owned hindex), h.find?, Option.map_eq_some_iff]
      constructor
      · rintro ⟨found, hfind, heq⟩
        rwa [← h.injOn (h.orderly.served key found hfind) hindex heq]
      · intro hfind
        exact ⟨index, hfind, rfl⟩
    rw [Registry.limiters_sweep h.orderly.tidy.registry,
      Registry.limiters_sweep h.orderly'.tidy.registry, h.limiters index hindex]
    simp only [hserves]
  permits := h.permits

theorem call (h : Mirrors key names clients other) {handle : Nat}
    (hhanded : clients.handed[handle]? = some (key, index)) (now : Int) (call : Desk.Call) :
    Mirrors key names (clients.serve now (.call handle call)).1
        (other.serve now (.call (clients.place key handle) call)).1 ∧
      ∃ answer, (clients.serve now (.call handle call)).2 = .told key answer ∧
        (other.serve now (.call (clients.place key handle) call)).2 = .told key answer := by
  have horderly := h.orderly.call now handle call
  have horderly' := h.orderly'.call now (clients.place key handle) call
  have howned : index ∈ clients.owned key := List.mem_of_getElem? hhanded
  have hlimiter := Array.getElem?_eq_getElem (h.orderly.tidy.lt_of_owned howned)
  have hlimiter' := (h.limiters index howned).trans hlimiter
  rw [serve_call hhanded hlimiter] at horderly ⊢
  rw [serve_call (h.handed_place hhanded) hlimiter', h.permits index howned] at horderly' ⊢
  refine ⟨⟨horderly, horderly', h.policy_eq, h.injOn, h.handed, h.find?, ?_, ?_⟩, _, rfl, rfl⟩
  · intro found hfound
    rw [Registry.limiters_put, Registry.limiters_put, h.limiters found hfound]
    simp only [h.injOn.eq_iff howned hfound]
  · intro found hfound
    simp only [h.injOn.eq_iff hfound howned, h.permits found hfound]

/-- A limiter is handed out once more. -/
theorem ask_of_some (h : Mirrors key names clients other)
    (hfind : clients.registry.find? key = some index) (now : Int) :
    Mirrors key names (clients.serve now (.ask key none)).1 (other.serve now (.ask key none)).1 ∧
      (clients.serve now (.ask key none)).2 = .handed index ∧
      (other.serve now (.ask key none)).2 = .handed (names index) := by
  have hsame : other.registry.find? key = some (names index) := by rw [h.find?, hfind]; rfl
  have horderly := h.orderly.ask now key
  have horderly' := h.orderly'.ask now key
  have howned := h.orderly.served key index hfind
  have hsub : (clients.serve now (.ask key none)).1.owned key ⊆ clients.owned key := by
    intro found hfound
    rcases (mem_owned_ask now).mp hfound with hfound | ⟨-, hfound⟩
    · exact hfound
    · rw [Registry.limiterFor_of_some hfind] at hfound
      rwa [hfound]
  rw [serve, Registry.limiterFor_of_some hfind] at horderly hsub ⊢
  rw [serve, Registry.limiterFor_of_some hsame] at horderly' ⊢
  refine ⟨⟨horderly, horderly', h.policy_eq, h.injOn.mono hsub, ?_, h.find?, ?_, ?_⟩, rfl, rfl⟩
  · simp [h.handed]
  · exact fun found hfound => h.limiters found (hsub hfound)
  · exact fun found hfound => h.permits found (hsub hfound)

/-- A limiter is made. Its number in the one run goes with its number in the other from now on. -/
theorem ask_of_none (h : Mirrors key names clients other)
    (hfind : clients.registry.find? key = none) (now : Int) :
    let made := clients.registry.limiters.size
    let made' := other.registry.limiters.size
    Mirrors key (Function.update names made made') (clients.serve now (.ask key none)).1
        (other.serve now (.ask key none)).1 ∧
      (clients.serve now (.ask key none)).2 = .handed made ∧
      (other.serve now (.ask key none)).2 = .handed made' := by
  intro made made'
  have hsame : other.registry.find? key = none := by rw [h.find?, hfind]; rfl
  have horderly := h.orderly.ask now key
  have horderly' := h.orderly'.ask now key
  have hold : ∀ found ∈ clients.owned key,
      Function.update names made made' found = names found := by
    intro found hfound
    exact Function.update_of_ne (h.orderly.tidy.lt_of_owned hfound).ne ..
  have howned : ∀ found, found ∈ (clients.serve now (.ask key none)).1.owned key →
      found = made ∨ found ∈ clients.owned key := by
    intro found hfound
    rcases (mem_owned_ask now).mp hfound with hfound | ⟨-, hfound⟩
    · exact .inr hfound
    · rw [Registry.limiterFor_of_none hfind] at hfound
      exact .inl hfound
  have hinjOn : Set.InjOn (Function.update names made made') (insert made (clients.owned key)) := by
    have hnew : made ∉ clients.owned key := fun hmem =>
      Nat.lt_irrefl _ (h.orderly.tidy.lt_of_owned hmem)
    have hcongr : Set.InjOn (Function.update names made made') (clients.owned key) :=
      h.injOn.congr fun found hfound => (hold found hfound).symm
    refine (Set.injOn_insert hnew).mpr ⟨hcongr, ?_⟩
    rintro ⟨found, hfound, heq⟩
    rw [hold found hfound, Function.update_self] at heq
    exact (h.orderly'.tidy.lt_of_owned (h.mem_owned hfound)).ne heq
  refine ⟨{ orderly := horderly, orderly' := horderly', policy_eq := ?_, injOn := ?_, handed := ?_,
            find? := ?_, limiters := ?_, permits := ?_ }, ?_, ?_⟩
  · rw [policy_serve, policy_serve]
    exact h.policy_eq
  · exact hinjOn.mono howned
  · have hmap : ((clients.handed.filter fun entry => entry.1 = key).map fun entry =>
        (key, Function.update names made made' entry.2)) = other.handed := by
      rw [h.handed]
      refine List.map_congr_left fun entry hentry => ?_
      obtain ⟨hmem, hkey⟩ := List.mem_filter.mp hentry
      have hmine : entry.2 ∈ clients.owned key := by
        rw [← of_decide_eq_true hkey]
        exact hmem
      rw [hold entry.2 hmine]
    simp [serve, Registry.limiterFor_of_none hfind, Registry.limiterFor_of_none hsame, hmap, made,
      made']
  · change (other.registry.limiterFor key now).1.find? key =
      ((clients.registry.limiterFor key now).1.find? key).map _
    rw [Registry.find?_limiterFor, Registry.find?_limiterFor, Registry.limiterFor_of_none hfind,
      Registry.limiterFor_of_none hsame, Option.map_some, Function.update_self]
  · intro found hfound
    change (other.registry.limiterFor key now).1.limiters[_]? =
      (clients.registry.limiterFor key now).1.limiters[found]?
    rcases howned found hfound with rfl | hfound
    · rw [Function.update_self, Registry.limiterFor_of_none hfind,
        Registry.limiterFor_of_none hsame, Array.getElem?_push_size, Array.getElem?_push_size,
        h.policy_eq]
    · rw [hold found hfound,
        Registry.limiters_limiterFor_of_lt (h.orderly.tidy.lt_of_owned hfound),
        Registry.limiters_limiterFor_of_lt (h.orderly'.tidy.lt_of_owned (h.mem_owned hfound))]
      exact h.limiters found hfound
  · intro found hfound
    change other.permits _ = clients.permits found
    rcases howned found hfound with rfl | hfound
    · rw [Function.update_self, h.orderly.unissued _ (Nat.le_refl _),
        h.orderly'.unissued _ (Nat.le_refl _)]
    · rw [hold found hfound]
      exact h.permits found hfound
  · rw [serve, Registry.limiterFor_of_none hfind]
  · rw [serve, Registry.limiterFor_of_none hsame]

/-! ### One act, and all -/

/-- Acts on other keys can be left out. -/
theorem taken_out (h : Mirrors key names clients other) {act : Act}
    (hout : clients.keep? key act = none) (now : Int) :
    Mirrors key names (clients.serve now act).1 other ∧ clients.about? act ≠ some key := by
  cases act with
  | ask asked ended =>
    have hne : asked ≠ key := by
      rintro rfl
      simp [keep?, about?] at hout
    refine ⟨?_, by simpa [about?] using hne⟩
    cases ended with
    | some reason => exact h
    | none => exact h.ask_other hne.symm now
  | call handle call =>
    have hne : clients.handed[handle]?.map Prod.fst ≠ some key := by
      intro heq
      simp only [keep?, about?, heq, if_true] at hout
      cases hout
    exact ⟨h.call_other hne now call, hne⟩
  | sweep => cases hout

/-- The other acts are answered alike, with the numbers that the limiters have in either run. -/
theorem kept (h : Mirrors key names clients other) {act act' : Act}
    (hkept : clients.keep? key act = some act') (now : Int) :
    ∃ names', Set.EqOn names' names (clients.owned key) ∧
      Mirrors key names' (clients.serve now act).1 (other.serve now act').1 ∧
      other.about? act' = clients.about? act ∧
      (clients.about? act = some key →
        ∀ later, Set.EqOn later names' ((clients.serve now act).1.owned key) →
          (other.serve now act').2 = (clients.serve now act).2.rename later) := by
  cases act with
  | sweep =>
    obtain rfl := Option.some.inj hkept
    exact ⟨names, Set.eqOn_refl .., h.sweep now, rfl, fun habout => nomatch habout⟩
  | ask asked ended =>
    obtain ⟨habout, hact⟩ := Option.ite_none_right_eq_some.mp hkept
    obtain rfl := Option.some.inj hact
    obtain rfl := Option.some.inj habout
    cases ended with
    | some reason => exact ⟨names, Set.eqOn_refl .., h, rfl, fun _ _ _ => rfl⟩
    | none =>
      cases hfind : clients.registry.find? asked with
      | some index =>
        obtain ⟨hmirrors, hhanded, hhanded'⟩ := h.ask_of_some hfind now
        refine ⟨names, Set.eqOn_refl .., hmirrors, rfl, fun _ later heqOn => ?_⟩
        rw [hhanded, hhanded', Report.rename, heqOn (mem_owned_of_handed hhanded)]
      | none =>
        obtain ⟨hmirrors, hhanded, hhanded'⟩ := h.ask_of_none hfind now
        refine ⟨_, ?_, hmirrors, rfl, fun _ later heqOn => ?_⟩
        · intro found hfound
          exact Function.update_of_ne (h.orderly.tidy.lt_of_owned hfound).ne ..
        · rw [hhanded, hhanded', Report.rename, heqOn (mem_owned_of_handed hhanded),
            Function.update_self]
  | call handle call =>
    obtain ⟨habout, hact⟩ := Option.ite_none_right_eq_some.mp hkept
    obtain rfl := Option.some.inj hact
    obtain ⟨⟨found, index⟩, hhanded, rfl⟩ := Option.map_eq_some_iff.mp habout
    obtain ⟨hmirrors, answer, htold, htold'⟩ := h.call hhanded now call
    refine ⟨names, Set.eqOn_refl .., hmirrors, ?_, ?_⟩
    · rw [about?, about?, h.handed_place hhanded, hhanded]
      rfl
    · intro _ later _
      rw [htold, htold']
      rfl

/-- **What is seen of the key is the same in both runs**, up to the numbers of the limiters. -/
theorem seen (h : Mirrors key names clients other) (acts : List (Int × Act)) :
    ∃ names', Set.EqOn names' names (clients.owned key) ∧
      Set.InjOn names' ((clients.run acts).1.owned key) ∧
      other.seen key (clients.alone key acts) =
        (clients.seen key acts).map fun report => (report.1, report.2.rename names') := by
  -- A limiter that is made later is named later. Those that were handed out keep their names, so the
  -- names at the end do for the reports of all acts.
  induction acts generalizing names clients other with
  | nil => exact ⟨names, Set.eqOn_refl .., h.injOn, rfl⟩
  | cons act acts ih =>
    obtain ⟨now, act⟩ := act
    have hsub := owned_subset_serve clients key now act
    cases hkeep : clients.keep? key act with
    | none =>
      obtain ⟨hmirrors, hnot⟩ := h.taken_out hkeep now
      obtain ⟨names', heqOn, hinjOn, hseen⟩ := ih hmirrors
      refine ⟨names', heqOn.mono hsub, hinjOn, ?_⟩
      rw [alone, hkeep, Clients.seen, if_neg hnot]
      exact hseen
    | some act' =>
      obtain ⟨stepped, hstepped, hmirrors, habout, hreport⟩ := h.kept hkeep now
      obtain ⟨names', heqOn, hinjOn, hseen⟩ := ih hmirrors
      refine ⟨names', (heqOn.mono hsub).trans hstepped, hinjOn, ?_⟩
      rw [alone, hkeep, Clients.seen, Clients.seen, habout]
      by_cases hkey : clients.about? act = some key
      · rw [if_pos hkey, if_pos hkey, hseen, hreport hkey names' heqOn]
        rfl
      · rw [if_neg hkey, if_neg hkey]
        exact hseen

end Mirrors

/-! ## Isolation -/

/-- **The clients of a key do not notice the others.** When all acts on other keys are taken out of
a run, and the sweeps and readings are left, then every act on the key is answered as before. Only
the numbers of the limiters may change: asking for the key hands out the same limiter again in the
one run just where it does so in the other. -/
theorem seen_alone (policy : Policy) (key : String) (acts : List (Int × Act)) :
    ∃ names : Nat → Nat,
      Set.InjOn names {index | (key, index) ∈ ((new policy).run acts).1.handed} ∧
      (new policy).seen key ((new policy).alone key acts) =
        ((new policy).seen key acts).map fun report => (report.1, report.2.rename names) := by
  obtain ⟨names, -, hinjOn, hseen⟩ := (mirrors_new policy key).seen acts
  exact ⟨names, hinjOn, hseen⟩

example : (new .twoInTen).alone "b" [(0, .ask "a" none), (1, .ask "b" none), (2, .call 0 .single),
      (3, .call 1 .single), (3, .sweep), (4, .call 1 (.use 0)), (5, .ask "b" none)] =
    [(1, .ask "b" none), (3, .call 0 .single), (3, .sweep), (4, .call 0 (.use 0)),
      (5, .ask "b" none)] := by decide +kernel

end Clients

end Throttle
