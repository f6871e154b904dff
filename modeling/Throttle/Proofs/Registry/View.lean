import Throttle.Proofs.Window.Account
import Throttle.Registry

/-!
# What a registry shows of a key

A registry is seen through the window that serves each key now, `Registry.window?`. One lemma for
each operation says what it does to this view; it needs that the registry is tidy, as every registry
is that started empty.

## Main statements

* `window?_limiterFor` — asking for a key gives it a fresh window if it has none.
* `window?_put` — replacing a limiter shows at the key that it serves, and nowhere else.
* `window?_sweep` — a sweep advances every window, and takes away those that count nothing.
-/

namespace Throttle

/-- A limiter has recovered when its window counts nothing. -/
theorem Limiter.recovered_iff (limiter : Limiter) :
    limiter.recovered = true ↔ limiter.window.total = 0 := by
  have hpos := limiter.window.plan.limit_pos
  rw [recovered, decide_eq_true_eq, limit, available, Window.available]
  omega

namespace Registry

/-- Every key has one limiter, every limiter serves one key at most, and all have the registry's
plan. -/
structure Tidy (registry : Registry) : Prop where
  keys_nodup : (registry.entries.map Prod.fst).Nodup
  indices_nodup : (registry.entries.map Prod.snd).Nodup
  indices_lt : ∀ entry ∈ registry.entries, entry.2 < registry.limiters.size
  plan_eq : ∀ (index : Nat) (limiter : Limiter),
    registry.limiters[index]? = some limiter → limiter.window.plan = registry.policy.plan

/-- The window that serves a key now. -/
def window? (registry : Registry) (key : String) : Option Window :=
  (registry.find? key).bind fun index => registry.limiters[index]?.map Limiter.window

theorem tidy_empty (policy : Policy) : (empty policy).Tidy where
  keys_nodup := List.nodup_nil
  indices_nodup := List.nodup_nil
  indices_lt := by simp [empty]
  plan_eq := by simp [empty]

section Tidy

variable {registry : Registry} {key other : String} {index : Nat}

theorem mem_of_find? (h : registry.find? key = some index) : (key, index) ∈ registry.entries := by
  obtain ⟨front, back, heq, -⟩ := List.lookup_eq_some_iff.mp h
  rw [heq]
  simp

theorem Tidy.find?_of_mem (ht : registry.Tidy) (h : (key, index) ∈ registry.entries) :
    registry.find? key = some index := by
  cases hfind : registry.find? key with
  | none =>
    have hne := List.lookup_eq_none_iff.mp hfind (key, index) h
    simp at hne
  | some found =>
    have heq := List.inj_on_of_nodup_map ht.keys_nodup h (mem_of_find? hfind) rfl
    exact congrArg some (Prod.mk.inj heq).2.symm

theorem Tidy.lt_of_find? (ht : registry.Tidy) (h : registry.find? key = some index) :
    index < registry.limiters.size :=
  ht.indices_lt (key, index) (mem_of_find? h)

/-- Keys that are served by one limiter are one key. -/
theorem Tidy.key_eq (ht : registry.Tidy) (h : registry.find? key = some index)
    (h' : registry.find? other = some index) : key = other :=
  (Prod.mk.inj (List.inj_on_of_nodup_map ht.indices_nodup (mem_of_find? h) (mem_of_find? h') rfl)).1

theorem Tidy.plan_window? (ht : registry.Tidy) {window : Window}
    (h : registry.window? key = some window) : window.plan = registry.policy.plan := by
  obtain ⟨index, -, hlimiter⟩ := Option.bind_eq_some_iff.mp h
  obtain ⟨limiter, hget, rfl⟩ := Option.map_eq_some_iff.mp hlimiter
  exact ht.plan_eq index limiter hget

theorem window?_of_find? (h : registry.find? key = some index) :
    registry.window? key = registry.limiters[index]?.map Limiter.window := by
  rw [window?, h]
  rfl

theorem window?_eq_none_iff (ht : registry.Tidy) :
    registry.window? key = none ↔ registry.find? key = none := by
  constructor
  · intro h
    cases hfind : registry.find? key with
    | none => rfl
    | some index =>
      have hlt := ht.lt_of_find? hfind
      rw [window?_of_find? hfind, Array.getElem?_eq_getElem hlt] at h
      cases h
  · intro h
    rw [window?, h]
    rfl

/-! ## Asking for a key -/

theorem limiterFor_of_some (h : registry.find? key = some index) (now : Int) :
    registry.limiterFor key now = (registry, index) := by
  rw [limiterFor, h]

theorem limiterFor_of_none (h : registry.find? key = none) (now : Int) :
    registry.limiterFor key now =
      ({ registry with
          entries := (key, registry.limiters.size) :: registry.entries
          limiters := registry.limiters.push (registry.policy.make now) },
        registry.limiters.size) := by
  rw [limiterFor, h, enter, h]

@[simp] theorem policy_limiterFor (registry : Registry) (key : String) (now : Int) :
    (registry.limiterFor key now).1.policy = registry.policy := by
  cases h : registry.find? key with
  | none => rw [limiterFor_of_none h]
  | some index => rw [limiterFor_of_some h]

theorem find?_limiterFor (registry : Registry) (key : String) (now : Int) :
    (registry.limiterFor key now).1.find? key = some (registry.limiterFor key now).2 := by
  cases h : registry.find? key with
  | none =>
    rw [limiterFor_of_none h]
    exact List.lookup_cons_self
  | some index => rw [limiterFor_of_some h, h]

theorem find?_limiterFor_of_ne (hne : other ≠ key) (now : Int) :
    (registry.limiterFor key now).1.find? other = registry.find? other := by
  cases h : registry.find? key with
  | none =>
    rw [limiterFor_of_none h, find?, List.lookup_cons, beq_eq_false_iff_ne.mpr hne]
    rfl
  | some index => rw [limiterFor_of_some h]

theorem size_le_size_limiterFor (registry : Registry) (key : String) (now : Int) :
    registry.limiters.size ≤ (registry.limiterFor key now).1.limiters.size := by
  cases h : registry.find? key with
  | none =>
    rw [limiterFor_of_none h]
    simp
  | some index => rw [limiterFor_of_some h]

theorem limiters_limiterFor_of_lt (hlt : index < registry.limiters.size) (now : Int) :
    (registry.limiterFor key now).1.limiters[index]? = registry.limiters[index]? := by
  cases h : registry.find? key with
  | none =>
    rw [limiterFor_of_none h]
    exact Array.getElem?_push_lt hlt ▸ (Array.getElem?_eq_getElem hlt).symm
  | some _ => rw [limiterFor_of_some h]

theorem Tidy.limiterFor (ht : registry.Tidy) (key : String) (now : Int) :
    (registry.limiterFor key now).1.Tidy := by
  cases h : registry.find? key with
  | some index => rwa [limiterFor_of_some h]
  | none =>
    rw [limiterFor_of_none h]
    refine ⟨?_, ?_, ?_, ?_⟩
    · refine List.nodup_cons.mpr ⟨fun hmem => ?_, ht.keys_nodup⟩
      obtain ⟨entry, hentry, heq⟩ := List.mem_map.mp hmem
      have hne := List.lookup_eq_none_iff.mp h entry hentry
      simp [heq] at hne
    · refine List.nodup_cons.mpr ⟨fun hmem => ?_, ht.indices_nodup⟩
      obtain ⟨entry, hentry, heq⟩ := List.mem_map.mp hmem
      exact Nat.lt_irrefl _ (heq ▸ ht.indices_lt entry hentry)
    · intro entry hentry
      simp only [Array.size_push]
      rcases List.mem_cons.mp hentry with rfl | hentry
      · exact Nat.lt_succ_self _
      · exact Nat.lt_succ_of_lt (ht.indices_lt entry hentry)
    · intro index limiter hget
      rw [Array.getElem?_push] at hget
      by_cases hnew : index = registry.limiters.size
      · rw [if_pos hnew, Option.some.injEq] at hget
        rw [← hget]
        rfl
      · rw [if_neg hnew] at hget
        exact ht.plan_eq index limiter hget

/-- **Asking for a key gives it a fresh window if it has none.** -/
theorem window?_limiterFor (ht : registry.Tidy) (key : String) (now : Int) :
    (registry.limiterFor key now).1.window? key =
      some ((registry.window? key).getD (Window.fresh registry.policy.plan now)) := by
  cases h : registry.find? key with
  | none =>
    rw [(window?_eq_none_iff ht).mpr h, window?, find?_limiterFor, limiterFor_of_none h]
    simp [Policy.make_eq]
  | some index =>
    have hlt := ht.lt_of_find? h
    rw [limiterFor_of_some h, window?_of_find? h, Array.getElem?_eq_getElem hlt]
    rfl

theorem window?_limiterFor_of_ne (ht : registry.Tidy) (hne : other ≠ key) (now : Int) :
    (registry.limiterFor key now).1.window? other = registry.window? other := by
  rw [window?, window?, find?_limiterFor_of_ne hne]
  cases h : registry.find? other with
  | none => rfl
  | some index =>
    have hlt := ht.lt_of_find? h
    exact congrArg (·.map Limiter.window) (limiters_limiterFor_of_lt hlt now)

/-! ## Replacing a limiter -/

@[simp] theorem find?_put (registry : Registry) (index : Nat) (limiter : Limiter) (key : String) :
    (registry.put index limiter).find? key = registry.find? key := rfl

@[simp] theorem size_limiters_put (registry : Registry) (index : Nat) (limiter : Limiter) :
    (registry.put index limiter).limiters.size = registry.limiters.size := by
  simp [put]

theorem Tidy.put (ht : registry.Tidy) {limiter : Limiter}
    (hplan : limiter.window.plan = registry.policy.plan) (index : Nat) :
    (registry.put index limiter).Tidy where
  keys_nodup := ht.keys_nodup
  indices_nodup := ht.indices_nodup
  indices_lt entry hentry := by
    rw [size_limiters_put]
    exact ht.indices_lt entry hentry
  plan_eq other found hget := by
    rw [Registry.put, Array.getElem?_modify] at hget
    by_cases heq : index = other
    · rw [if_pos heq] at hget
      obtain ⟨_, -, rfl⟩ := Option.map_eq_some_iff.mp hget
      exact hplan
    · rw [if_neg heq] at hget
      exact ht.plan_eq other found hget

/-- **Replacing a limiter shows at the key that it serves.** -/
theorem window?_put (ht : registry.Tidy) (h : registry.find? key = some index) (limiter : Limiter) :
    (registry.put index limiter).window? key = some limiter.window := by
  have hlt := ht.lt_of_find? h
  rw [window?_of_find? (by rw [find?_put]; exact h), put, Array.getElem?_modify, if_pos rfl,
    Array.getElem?_eq_getElem hlt]
  rfl

/-- At any other key it does not show. -/
theorem window?_put_of_ne (h : registry.find? key ≠ some index) (limiter : Limiter) :
    (registry.put index limiter).window? key = registry.window? key := by
  rw [window?, window?, find?_put]
  cases hfind : registry.find? key with
  | none => rfl
  | some found =>
    have hne : index ≠ found := fun heq => h (by rw [hfind, heq])
    simp [put, Array.getElem?_modify, hne]

/-! ## Sweeping -/

/-- Changing the elements at some places, all of them different. -/
theorem getElem?_foldl_modify {α : Type} (f : α → α) (places : List Nat) (hnodup : places.Nodup)
    (array : Array α) (place : Nat) :
    (places.foldl (fun array place => array.modify place f) array)[place]? =
      if place ∈ places then array[place]?.map f else array[place]? := by
  induction places generalizing array with
  | nil => simp
  | cons first places ih =>
    obtain ⟨hfirst, hplaces⟩ := List.nodup_cons.mp hnodup
    rw [List.foldl_cons, ih hplaces, Array.getElem?_modify]
    by_cases heq : first = place
    · subst heq
      simp [hfirst]
    · simp [heq, Ne.symm heq]

theorem limiters_sweep (ht : registry.Tidy) (now : Int) (index : Nat) :
    (registry.sweep now).limiters[index]? =
      if index ∈ registry.entries.map Prod.snd then
        registry.limiters[index]?.map fun limiter => limiter.advance now
      else registry.limiters[index]? := by
  rw [← getElem?_foldl_modify (fun limiter : Limiter => limiter.advance now) _ ht.indices_nodup,
    List.foldl_map]
  rfl

theorem entries_sweep_subset (registry : Registry) (now : Int) :
    (registry.sweep now).entries.Sublist registry.entries := List.filter_sublist

@[simp] theorem size_limiters_sweep (ht : registry.Tidy) (now : Int) :
    (registry.sweep now).limiters.size = registry.limiters.size := by
  have hsame : ∀ index : Nat, (registry.sweep now).limiters[index]? = none ↔
      registry.limiters[index]? = none := by
    intro index
    rw [limiters_sweep ht]
    split <;> simp
  simp only [Array.getElem?_eq_none_iff] at hsame
  exact Nat.le_antisymm ((hsame _).mpr (Nat.le_refl _)) ((hsame _).mp (Nat.le_refl _))

theorem Tidy.sweep (ht : registry.Tidy) (now : Int) : (registry.sweep now).Tidy where
  keys_nodup := ht.keys_nodup.sublist ((registry.entries_sweep_subset now).map Prod.fst)
  indices_nodup := ht.indices_nodup.sublist ((registry.entries_sweep_subset now).map Prod.snd)
  indices_lt entry hentry := by
    rw [size_limiters_sweep ht]
    exact ht.indices_lt entry ((registry.entries_sweep_subset now).subset hentry)
  plan_eq index limiter hget := by
    rw [limiters_sweep ht] at hget
    by_cases hmem : index ∈ registry.entries.map Prod.snd
    · rw [if_pos hmem] at hget
      obtain ⟨before, hbefore, rfl⟩ := Option.map_eq_some_iff.mp hget
      exact (Window.plan_advance before.window now).trans (ht.plan_eq index before hbefore)
    · rw [if_neg hmem] at hget
      exact ht.plan_eq index limiter hget

/-- Who is served after a sweep was served before it, by the same limiter. -/
theorem find?_of_find?_sweep (ht : registry.Tidy) {now : Int}
    (h : (registry.sweep now).find? key = some index) : registry.find? key = some index :=
  ht.find?_of_mem ((registry.entries_sweep_subset now).subset (mem_of_find? h))

theorem find?_sweep_of_none (ht : registry.Tidy) (h : registry.find? key = none) (now : Int) :
    (registry.sweep now).find? key = none := by
  cases hswept : (registry.sweep now).find? key with
  | none => rfl
  | some index =>
    rw [find?_of_find?_sweep ht hswept] at h
    cases h

/-- A key loses its limiter in a sweep just if the window counts nothing at that reading. -/
theorem find?_sweep (ht : registry.Tidy) {window : Window} (h : registry.find? key = some index)
    (hwindow : registry.window? key = some window) (now : Int) :
    (registry.sweep now).find? key =
      if (window.advance now).total = 0 then none else some index := by
  have hmem : index ∈ registry.entries.map Prod.snd := List.mem_map_of_mem (mem_of_find? h)
  rw [window?_of_find? h] at hwindow
  obtain ⟨limiter, hget, rfl⟩ := Option.map_eq_some_iff.mp hwindow
  have hadvanced := limiters_sweep ht now index
  rw [if_pos hmem, hget] at hadvanced
  have hrecovered : (registry.advance now).isRecovered index = true ↔
      (limiter.window.advance now).total = 0 := by
    have hsame : (registry.advance now).limiters[index]? = (registry.sweep now).limiters[index]? :=
      rfl
    rw [isRecovered, hsame, hadvanced]
    exact (limiter.advance now).recovered_iff
  by_cases hzero : (limiter.window.advance now).total = 0
  · rw [if_pos hzero, ← Option.not_isSome_iff_eq_none, Option.isSome_iff_exists]
    rintro ⟨found, hfound⟩
    have hsame := find?_of_find?_sweep ht hfound
    rw [h, Option.some.injEq] at hsame
    subst hsame
    have hkept := (List.mem_filter.mp (mem_of_find? hfound)).2
    simp [hrecovered.mpr hzero] at hkept
  · rw [if_neg hzero]
    refine (ht.sweep now).find?_of_mem (List.mem_filter.mpr ⟨mem_of_find? h, ?_⟩)
    simpa using fun hr => hzero (hrecovered.mp hr)

/-- **A sweep advances every window, and takes away those that count nothing.** -/
theorem window?_sweep (ht : registry.Tidy) (key : String) (now : Int) :
    (registry.sweep now).window? key =
      (registry.window? key).bind fun window =>
        if (window.advance now).total = 0 then none else some (window.advance now) := by
  cases hfind : registry.find? key with
  | none =>
    rw [(window?_eq_none_iff ht).mpr hfind, (window?_eq_none_iff (ht.sweep now)).mpr]
    · rfl
    · exact find?_sweep_of_none ht hfind now
  | some index =>
    have hlt := ht.lt_of_find? hfind
    have hmem : index ∈ registry.entries.map Prod.snd := List.mem_map_of_mem (mem_of_find? hfind)
    have hwindow := window?_of_find? hfind
    rw [Array.getElem?_eq_getElem hlt, Option.map_some] at hwindow
    have hsweep := find?_sweep ht hfind hwindow now
    rw [hwindow, Option.bind_some]
    by_cases hzero : (registry.limiters[index].window.advance now).total = 0
    · rw [if_pos hzero] at hsweep ⊢
      exact (window?_eq_none_iff (ht.sweep now)).mpr hsweep
    · rw [if_neg hzero] at hsweep ⊢
      rw [window?_of_find? hsweep, limiters_sweep ht, if_pos hmem, Array.getElem?_eq_getElem hlt]
      rfl

end Tidy

end Registry

end Throttle
