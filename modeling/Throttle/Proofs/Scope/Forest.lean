import Throttle.Session.Run
import Throttle.Proofs.Scope.Ancestry
import Throttle.Proofs.Scope.Lineage

/-!
# Forests of scopes

When a scope is over can be told from a chronicle, without looking into the tree of scopes: it is
cancelled if somebody cancelled a scope or a token whose lineage its own goes back on, however long
before or after it was made; and its deadline is the earliest that was asked for in its lineage. What
carries this through a history is that nodes stand for lineages: one node is in the ancestry of
another one just if its lineage is the end of the other's.

## Main definitions

* `Forest` — a world, and the scopes and tokens that were made in it.
* `Forest.Follows` — a forest is as a chronicle tells.

## Main statements

* `Forest.Follows.step` — it stays so, whatever is done.
* `Forest.Follows.ended_later` — who is over stays over.
* `Forest.Follows.ended_cancel` — a cancellation changes nothing for those whom it does not reach.
* `Forest.ended_run` — when a scope is over, and why.
-/

namespace Throttle

/-- A token of somebody, or a scope. -/
inductive Handle where
  | token (node : Nat)
  | scope (scope : Scope)
deriving Repr, DecidableEq

/-- A handle as a scope: a token has no deadline. -/
def Handle.toScope : Handle → Scope
  | .token node => .ofToken node
  | .scope made => made

/-- A world, and the handles that were made in it, in the order in which they were made. -/
structure Forest where
  world : World
  handles : List Handle

namespace Forest

/-- All handles as scopes. -/
def scopes (forest : Forest) : List Scope := forest.handles.map Handle.toScope

/-- Add a handle that was made. -/
def add (forest : Forest) (tree : ScopeTree) (handle : Handle) : Forest :=
  ⟨{ forest.world with scopes := tree }, forest.handles ++ [handle]⟩

/-- Add a scope that was made. -/
def addScope (forest : Forest) (made : ScopeTree × Scope) : Forest :=
  forest.add made.1 (.scope made.2)

/-- Add a token that was made. -/
def addToken (forest : Forest) (made : ScopeTree × Nat) : Forest :=
  forest.add made.1 (.token made.2)

@[simp] theorem tree_add (forest : Forest) (tree : ScopeTree) (handle : Handle) :
    (forest.add tree handle).world.scopes = tree := rfl

/-- Nothing is done with a scope or a token that there is not. -/
def step (forest : Forest) : Event → Forest
  | .root => forest.addScope forest.world.scopes.root
  | .derive kind parent =>
    match forest.handles[parent]? with
    | some (.scope scope) => forest.addScope (Session.deriveScope forest.world kind scope)
    | _ => forest
  | .token => forest.addToken (forest.world.scopes.grow none)
  | .childToken parent =>
    match forest.handles[parent]? with
    | some (.token node) => forest.addToken (forest.world.scopes.grow (some node))
    | _ => forest
  | .adopt token =>
    match forest.handles[token]? with
    | some (.token node) => forest.addScope (forest.world.scopes, .ofToken node)
    | _ => forest
  | .cancel number =>
    match forest.scopes[number]? with
    | none => forest
    | some scope =>
      { forest with world := { forest.world with scopes := forest.world.scopes.cancel scope } }
  | .pass span => { forest with world := { forest.world with now := forest.world.now + span } }

/-- One event after the other. -/
def run (forest : Forest) (history : List Event) : Forest := history.foldl step forest

theorem scopes_add (forest : Forest) (tree : ScopeTree) (handle : Handle) :
    (forest.add tree handle).scopes = forest.scopes ++ [handle.toScope] := by
  simp [scopes, add]

/-- A scope, as it is among all handles. -/
theorem getElem?_scopes {forest : Forest} {number : Nat} {handle : Handle}
    (h : forest.handles[number]? = some handle) :
    forest.scopes[number]? = some handle.toScope := by
  rw [scopes, List.getElem?_map, h, Option.map_some]

/-- A forest is as a chronicle tells. -/
structure Follows (forest : Forest) (past : Chronicle) : Prop where
  now : forest.world.now = past.now
  length : forest.handles.length = past.births.length
  tokens : ∀ number, number ∈ past.tokens ↔ ∃ node, forest.handles[number]? = some (.token node)
  cancels : ∀ number ∈ past.cancels, number < past.births.length
  made : ∀ number < past.births.length, lineage past.births number ≠ []
  node : ∀ scope ∈ forest.scopes, scope.node < forest.world.scopes.nodes.size
  deadline : ∀ number scope, forest.scopes[number]? = some scope →
    scope.deadline = (requests past.births number).min?
  ancestry : ∀ number scope other otherScope, forest.scopes[number]? = some scope →
    forest.scopes[other]? = some otherScope →
    (otherScope.node ∈ forest.world.scopes.ancestry scope.node ↔ Reaches past.births other number)
  cancelled : ∀ number scope, forest.scopes[number]? = some scope →
    (forest.world.scopes.isCancelled scope.node ↔
      ∃ cancel ∈ past.cancels, Reaches past.births cancel number)

/-- How a new scope fits in with those that there are. -/
structure Fits (forest : Forest) (past : Chronicle) (tree : ScopeTree) (scope : Scope)
    (birth : Birth) : Prop where
  size : forest.world.scopes.nodes.size ≤ tree.nodes.size
  node : scope.node < tree.nodes.size
  made : lineage (birth :: past.births) past.births.length ≠ []
  kept : ∀ old ∈ forest.scopes, tree.ancestry old.node = forest.world.scopes.ancestry old.node ∧
    tree.isCancelled old.node = forest.world.scopes.isCancelled old.node
  deadline : scope.deadline = (requests (birth :: past.births) past.births.length).min?
  above : ∀ number old, forest.scopes[number]? = some old →
    (old.node ∈ tree.ancestry scope.node ↔
      lineage past.births number <:+ lineage (birth :: past.births) past.births.length)
  below : ∀ number old, forest.scopes[number]? = some old →
    (scope.node ∈ tree.ancestry old.node ↔
      lineage (birth :: past.births) past.births.length <:+ lineage past.births number)
  cancelled : tree.isCancelled scope.node ↔ ∃ cancel ∈ past.cancels,
    lineage past.births cancel <:+ lineage (birth :: past.births) past.births.length

namespace Follows

variable {forest : Forest} {past : Chronicle}

theorem length_scopes (h : Follows forest past) : forest.scopes.length = past.births.length := by
  rw [scopes, List.length_map, h.length]

theorem lt_length (h : Follows forest past) {number : Nat} {scope : Scope}
    (hscope : forest.scopes[number]? = some scope) : number < past.births.length := by
  rw [← h.length_scopes]
  exact (List.getElem?_eq_some_iff.mp hscope).1

theorem exists_scope (h : Follows forest past) {number : Nat}
    (hlt : number < past.births.length) : ∃ scope, forest.scopes[number]? = some scope := by
  rw [← h.length_scopes] at hlt
  exact ⟨forest.scopes[number], List.getElem?_eq_getElem hlt⟩

/-- The scopes of a forest to which a handle was added: the old ones, and the new one. -/
theorem getElem?_add (h : Follows forest past) {tree : ScopeTree} {handle : Handle} {number : Nat}
    {scope : Scope} (hscope : (forest.add tree handle).scopes[number]? = some scope) :
    (number < past.births.length ∧ forest.scopes[number]? = some scope) ∨
      (number = past.births.length ∧ scope = handle.toScope) := by
  rw [scopes_add] at hscope
  by_cases hlt : number < forest.scopes.length
  · rw [List.getElem?_append_left hlt] at hscope
    exact .inl ⟨h.lt_length hscope, hscope⟩
  · right
    have hbound := (List.getElem?_eq_some_iff.mp hscope).1
    have hnumber : number = forest.scopes.length := by
      simp only [List.length_append, List.length_singleton] at hbound
      omega
    subst hnumber
    rw [List.getElem?_concat_length, Option.some.injEq] at hscope
    exact ⟨h.length_scopes, hscope.symm⟩

/-- A handle that fits in is added. -/
theorem add (h : Follows forest past) {tree : ScopeTree} (handle : Handle) {birth : Birth}
    (hfits : Fits forest past tree handle.toScope birth) {tokens : List Nat}
    (htokens : ∀ number, number ∈ tokens ↔
      number ∈ past.tokens ∨ number = past.births.length ∧ ∃ node, handle = .token node) :
    Follows (forest.add tree handle) { past with births := birth :: past.births, tokens } where
  now := h.now
  length := by simp [Forest.add, h.length]
  tokens number := by
    rw [htokens, h.tokens, Forest.add]
    by_cases hlt : number < forest.handles.length
    · have hne : number ≠ past.births.length := Nat.ne_of_lt (h.length ▸ hlt)
      rw [List.getElem?_append_left hlt, or_iff_left fun hnew => hne hnew.1]
    · have hnone : forest.handles[number]? = none :=
        List.getElem?_eq_none_iff.mpr (Nat.not_lt.mp hlt)
      rw [List.getElem?_append_right (Nat.not_lt.mp hlt), hnone, h.length, List.getElem?_singleton]
      split
      · rename_i hzero
        have heq : number = past.births.length := by
          rw [h.length] at hlt
          omega
        simp [heq]
      · rename_i hmore
        have hne : number ≠ past.births.length := by
          rintro rfl
          exact hmore (Nat.sub_self _)
        simp [hne]
  cancels number hmem := Nat.lt_succ_of_lt (h.cancels number hmem)
  made number hlt := by
    rcases Nat.lt_succ_iff_lt_or_eq.mp hlt with hlt | rfl
    · rw [lineage_cons_of_lt hlt]
      exact h.made number hlt
    · exact hfits.made
  node old hold := by
    rw [scopes_add] at hold
    rcases List.mem_append.mp hold with hold | hold
    · exact Nat.lt_of_lt_of_le (h.node old hold) hfits.size
    · rw [List.mem_singleton.mp hold]
      exact hfits.node
  deadline number found hfound := by
    rcases h.getElem?_add hfound with ⟨hlt, hold⟩ | ⟨rfl, rfl⟩
    · rw [requests, lineage_cons_of_lt hlt]
      exact h.deadline number found hold
    · exact hfits.deadline
  ancestry number found other otherFound hfound hother := by
    -- Each of the two may be the new one.
    rcases h.getElem?_add hfound with ⟨hlt, hold⟩ | ⟨rfl, rfl⟩ <;>
      rcases h.getElem?_add hother with ⟨hlt', hold'⟩ | ⟨rfl, rfl⟩
    · rw [Reaches, lineage_cons_of_lt hlt, lineage_cons_of_lt hlt']
      rw [tree_add, (hfits.kept found (List.mem_of_getElem? hold)).1]
      exact h.ancestry number found other otherFound hold hold'
    · rw [Reaches, lineage_cons_of_lt hlt]
      exact hfits.below number found hold
    · rw [Reaches, lineage_cons_of_lt hlt']
      exact hfits.above other otherFound hold'
    · exact ⟨fun _ => List.suffix_refl _, fun _ => ScopeTree.mem_ancestry_self hfits.node⟩
  cancelled number found hfound := by
    have hreaches : ∀ cancel ∈ past.cancels,
        lineage (birth :: past.births) cancel = lineage past.births cancel :=
      fun cancel hcancel => lineage_cons_of_lt (h.cancels cancel hcancel)
    rcases h.getElem?_add hfound with ⟨hlt, hold⟩ | ⟨rfl, rfl⟩
    · rw [tree_add, (hfits.kept found (List.mem_of_getElem? hold)).2,
        h.cancelled number found hold]
      apply exists_congr
      intro cancel
      apply and_congr_right
      intro hcancel
      rw [Reaches, Reaches, lineage_cons_of_lt hlt, hreaches cancel hcancel]
    · rw [tree_add, hfits.cancelled]
      apply exists_congr
      intro cancel
      apply and_congr_right
      intro hcancel
      rw [Reaches, hreaches cancel hcancel]

theorem addScope (h : Follows forest past) {made : ScopeTree × Scope} {birth : Birth}
    (hfits : Fits forest past made.1 made.2 birth) :
    Follows (forest.addScope made) (past.bear birth) :=
  h.add (.scope made.2) hfits (by simp)

theorem addToken (h : Follows forest past) {made : ScopeTree × Nat} {birth : Birth}
    (hfits : Fits forest past made.1 (.ofToken made.2) birth) :
    Follows (forest.addToken made) (past.bearToken birth) :=
  h.add (.token made.2) hfits (by simp [or_comm])

/-- A copy fits in: it has the node and the deadline of its original. -/
theorem fits_copy (h : Follows forest past) {original : Nat} {scope : Scope}
    (hscope : forest.scopes[original]? = some scope) :
    Fits forest past forest.world.scopes scope (.copy original) where
  size := Nat.le_refl _
  node := h.node scope (List.mem_of_getElem? hscope)
  made := by
    rw [lineage_copy]
    exact h.made original (h.lt_length hscope)
  kept _ _ := ⟨rfl, rfl⟩
  deadline := by
    rw [requests, lineage_copy]
    exact h.deadline original scope hscope
  above number old hold := by
    rw [lineage_copy]
    exact h.ancestry original scope number old hscope hold
  below number old hold := by
    rw [lineage_copy]
    exact h.ancestry number old original scope hold hscope
  cancelled := by
    rw [lineage_copy]
    exact h.cancelled original scope hscope

/-- A scope with a node of its own fits in if its deadline is right and its parent, of which it may
have none, stands for the rest of its lineage. -/
theorem fits_grow (h : Follows forest past) {parent : Option Nat} {deadline deadline? : Option Int}
    {birth : Birth} {rest : List Making}
    (hlineage : lineage (birth :: past.births) past.births.length =
      ⟨past.births.length, deadline?⟩ :: rest)
    (hdeadline : deadline = (deadline?.toList ++ rest.filterMap Making.deadline?).min?)
    (hparent : ∀ node ∈ parent, node < forest.world.scopes.nodes.size)
    (habove : ∀ number old, forest.scopes[number]? = some old →
      (old.node ∈ (parent.map forest.world.scopes.ancestry).getD [] ↔
        lineage past.births number <:+ rest))
    (hcancelled : parent.any forest.world.scopes.isCancelled ↔
      ∃ cancel ∈ past.cancels, lineage past.births cancel <:+ rest) :
    Fits forest past (forest.world.scopes.grow parent).1 ⟨forest.world.scopes.nodes.size, deadline⟩
      birth := by
  -- The new making is in nobody else's lineage.
  have hnew : ∀ number, ⟨past.births.length, deadline?⟩ ∉ lineage past.births number := by
    intro number hmem
    exact Nat.lt_irrefl _ (number_lt_of_mem_lineage hmem)
  have hsuffix : ∀ number, lineage past.births number <:+
      (⟨past.births.length, deadline?⟩ :: rest) ↔ lineage past.births number <:+ rest := by
    intro number
    rw [List.suffix_cons_iff]
    constructor
    · rintro (heq | hsuffix)
      · exact absurd (heq ▸ List.mem_cons_self) (hnew number)
      · exact hsuffix
    · exact Or.inr
  constructor
  case size =>
    rw [ScopeTree.size_grow]
    exact Nat.le_succ _
  case node =>
    rw [ScopeTree.size_grow]
    exact Nat.lt_succ_self _
  case made => simp [hlineage]
  case kept =>
    intro old hold
    exact ⟨ScopeTree.ancestry_grow_of_lt parent (h.node old hold),
      ScopeTree.isCancelled_grow_of_lt parent (h.node old hold)⟩
  case deadline =>
    rw [requests, hlineage, hdeadline]
    cases deadline? <;> simp
  case above =>
    intro number old hold
    have hne : old.node ≠ forest.world.scopes.nodes.size :=
      Nat.ne_of_lt (h.node old (List.mem_of_getElem? hold))
    rw [ScopeTree.ancestry_grow_size parent hparent, hlineage, hsuffix, List.mem_cons,
      or_iff_right hne]
    exact habove number old hold
  case below =>
    intro number old hold
    have hlt := h.node old (List.mem_of_getElem? hold)
    rw [ScopeTree.ancestry_grow_of_lt parent hlt, hlineage]
    constructor
    · intro hmem
      exact absurd (ScopeTree.le_of_mem_ancestry hmem) (Nat.not_le.mpr hlt)
    · intro hmem
      exact absurd (hmem.subset List.mem_cons_self) (hnew number)
  case cancelled =>
    rw [ScopeTree.isCancelled_grow_size parent hparent, hcancelled, hlineage]
    simp only [hsuffix]

theorem fits_root (h : Follows forest past) :
    Fits forest past (forest.world.scopes.grow none).1 ⟨forest.world.scopes.nodes.size, none⟩
      .root := by
  have hnone : ∀ number < past.births.length, ¬ lineage past.births number <:+ [] := by
    intro number hlt hsuffix
    exact h.made number hlt (List.suffix_nil.mp hsuffix)
  apply h.fits_grow lineage_root rfl
  · simp
  · intro number old hold
    simpa using h.made number (h.lt_length hold)
  · constructor
    · simp
    · rintro ⟨cancel, hmem, hsuffix⟩
      exact absurd hsuffix (hnone cancel (h.cancels cancel hmem))

theorem fits_child (h : Follows forest past) {parent : Nat} {scope : Scope}
    (hscope : forest.scopes[parent]? = some scope) (deadline? : Option Int) :
    Fits forest past (forest.world.scopes.grow (some scope.node)).1
      ⟨forest.world.scopes.nodes.size,
        (deadline?.toList ++ requests past.births parent).min?⟩ (.child parent deadline?) := by
  apply h.fits_grow (lineage_child parent deadline?) rfl
  · rintro _ ⟨⟩
    exact h.node scope (List.mem_of_getElem? hscope)
  · intro number old hold
    exact h.ancestry parent scope number old hscope hold
  · exact h.cancelled parent scope hscope

/-- What is made from a scope fits in. -/
theorem fits_derive (h : Follows forest past) {parent : Nat} {scope : Scope}
    (hscope : forest.scopes[parent]? = some scope) (kind : ScopeKind) :
    Fits forest past (Session.deriveScope forest.world kind scope).1
      (Session.deriveScope forest.world kind scope).2 (.of past.now parent kind) := by
  have hwithout := h.fits_child hscope none
  have hwith := fun deadline => h.fits_child hscope (some deadline)
  simp only [Option.toList_none, List.nil_append, ← h.deadline parent scope hscope] at hwithout
  simp only [Option.toList_some, List.singleton_append, List.min?_cons,
    ← h.deadline parent scope hscope, ← ScopeTree.withDeadline_snd] at hwith
  cases kind with
  | root => exact h.fits_root
  | same => exact h.fits_copy hscope
  | cancel => exact hwithout
  | timeout span =>
    rw [Session.deriveScope, h.now, Birth.of]
    cases Time.after? past.now span with
    | none => exact hwithout
    | some deadline => exact hwith deadline
  | deadline instant => exact hwith instant

/-- A cancellation is noted. -/
theorem cancel (h : Follows forest past) {number : Nat} {scope : Scope}
    (hscope : forest.scopes[number]? = some scope) :
    Follows
      { forest with world := { forest.world with scopes := forest.world.scopes.cancel scope } }
      { past with cancels := number :: past.cancels } where
  now := h.now
  length := h.length
  tokens := h.tokens
  cancels := by
    rw [List.forall_mem_cons]
    exact ⟨h.lt_length hscope, h.cancels⟩
  made := h.made
  node old hold := by
    rw [ScopeTree.size_cancel]
    exact h.node old hold
  deadline := h.deadline
  ancestry := by
    simp only [ScopeTree.ancestry_cancel]
    exact h.ancestry
  cancelled found foundScope hfound := by
    have hnode := h.node scope (List.mem_of_getElem? hscope)
    rw [ScopeTree.isCancelled_cancel _ hnode, Bool.or_eq_true, List.contains_iff_mem,
      h.cancelled found foundScope hfound, h.ancestry found foundScope number scope hfound hscope]
    simp only [List.mem_cons, or_and_right, exists_or, exists_eq_left]
    exact or_comm

/-- What a number stands for is noted: nothing, a token or a scope. -/
theorem handle_cases (h : Follows forest past) (number : Nat) :
    (forest.handles[number]? = none ∧ ¬number < past.births.length ∧ number ∉ past.tokens) ∨
      (∃ node, forest.handles[number]? = some (.token node) ∧ number ∈ past.tokens) ∨
      ∃ scope, forest.handles[number]? = some (.scope scope) ∧ number < past.births.length ∧
        number ∉ past.tokens := by
  have htokens := h.tokens number
  cases hhandle : forest.handles[number]? with
  | none =>
    rw [hhandle] at htokens
    rw [List.getElem?_eq_none_iff, h.length] at hhandle
    exact .inl ⟨rfl, Nat.not_lt.mpr hhandle, by simp [htokens]⟩
  | some handle =>
    have hlt := (List.getElem?_eq_some_iff.mp hhandle).1
    rw [h.length] at hlt
    rw [hhandle] at htokens
    cases handle with
    | token node => exact .inr (.inl ⟨node, rfl, htokens.mpr ⟨node, rfl⟩⟩)
    | scope scope => exact .inr (.inr ⟨scope, rfl, hlt, by simp [htokens]⟩)

/-- **Whatever is done, a forest stays as its chronicle tells.** -/
theorem step (h : Follows forest past) (event : Event) :
    Follows (forest.step event) (past.note event) := by
  cases event with
  | root => exact h.addScope h.fits_root
  | derive kind parent =>
    rcases h.handle_cases parent with
      ⟨hhandle, hlt, -⟩ | ⟨node, hhandle, htoken⟩ | ⟨scope, hhandle, hlt, htoken⟩
    · simpa only [Forest.step, hhandle, Chronicle.note, hlt, false_and, if_false] using h
    · simpa only [Forest.step, hhandle, Chronicle.note, htoken, not_true, and_false, if_false]
        using h
    · simp only [Forest.step, hhandle, Chronicle.note, if_pos (And.intro hlt htoken)]
      exact h.addScope (h.fits_derive (getElem?_scopes hhandle) kind)
  | token => exact h.addToken h.fits_root
  | childToken parent =>
    rcases h.handle_cases parent with
      ⟨hhandle, -, htoken⟩ | ⟨node, hhandle, htoken⟩ | ⟨scope, hhandle, -, htoken⟩
    · simpa only [Forest.step, hhandle, Chronicle.note, if_neg htoken] using h
    · simp only [Forest.step, hhandle, Chronicle.note, if_pos htoken]
      exact h.addToken (h.fits_derive (getElem?_scopes hhandle) .cancel)
    · simpa only [Forest.step, hhandle, Chronicle.note, if_neg htoken] using h
  | adopt token =>
    rcases h.handle_cases token with
      ⟨hhandle, -, htoken⟩ | ⟨node, hhandle, htoken⟩ | ⟨scope, hhandle, -, htoken⟩
    · simpa only [Forest.step, hhandle, Chronicle.note, if_neg htoken] using h
    · simp only [Forest.step, hhandle, Chronicle.note, if_pos htoken]
      exact h.addScope (h.fits_copy (getElem?_scopes hhandle))
    · simpa only [Forest.step, hhandle, Chronicle.note, if_neg htoken] using h
  | cancel number =>
    by_cases hlt : number < past.births.length
    · obtain ⟨scope, hscope⟩ := h.exists_scope hlt
      simp only [Forest.step, hscope, Chronicle.note, if_pos hlt]
      exact h.cancel hscope
    · have hnone : forest.scopes[number]? = none := by
        rw [List.getElem?_eq_none_iff, h.length_scopes]
        exact Nat.not_lt.mp hlt
      simpa only [Forest.step, hnone, Chronicle.note, if_neg hlt] using h
  | pass span => exact { h with now := congrArg (· + (span : Int)) h.now }

theorem run (h : Follows forest past) (history : List Event) :
    Follows (forest.run history) (past.noteAll history) := by
  induction history generalizing forest past with
  | nil => exact h
  | cons event history ih => exact ih (h.step event)

/-! ## The end of a scope -/

section Ended

variable {number : Nat} {scope : Scope}

/-- A scope is over for having been cancelled just if a cancellation reached it. -/
theorem ended_eq_canceled_iff (h : Follows forest past)
    (hscope : forest.scopes[number]? = some scope) :
    forest.world.ended scope = some .canceled ↔
      ∃ cancel ∈ past.cancels, Reaches past.births cancel number := by
  rw [World.ended, ScopeTree.ended_eq_canceled_iff]
  exact h.cancelled number scope hscope

/-- Otherwise it is over just if its deadline has come. -/
theorem ended_eq_deadlineExceeded_iff (h : Follows forest past)
    (hscope : forest.scopes[number]? = some scope) :
    forest.world.ended scope = some .deadlineExceeded ↔
      (¬ ∃ cancel ∈ past.cancels, Reaches past.births cancel number) ∧
        ∃ deadline, scope.deadline = some deadline ∧ deadline ≤ past.now := by
  rw [World.ended, ScopeTree.ended_eq_deadlineExceeded_iff, h.cancelled number scope hscope, h.now]

/-- A scope is over if a cancellation reached it or one of the deadlines that were asked for has
come. -/
theorem ended_ne_none_iff (h : Follows forest past)
    (hscope : forest.scopes[number]? = some scope) :
    forest.world.ended scope ≠ none ↔
      (∃ cancel ∈ past.cancels, Reaches past.births cancel number) ∨
        ∃ deadline ∈ requests past.births number, deadline ≤ past.now := by
  rw [World.ended, ScopeTree.ended_ne_none_iff, h.cancelled number scope hscope, h.now,
    h.deadline number scope hscope]
  apply or_congr_right
  constructor
  · rintro ⟨deadline, hmin, hle⟩
    exact ⟨deadline, (List.min?_eq_some_iff.mp hmin).1, hle⟩
  · rintro ⟨request, hrequest, hle⟩
    cases hmin : (requests past.births number).min? with
    | none =>
      rw [List.min?_eq_none_iff] at hmin
      rw [hmin] at hrequest
      cases hrequest
    | some earliest =>
      have hearliest := (List.min?_eq_some_iff.mp hmin).2 request hrequest
      exact ⟨earliest, rfl, Int.le_trans hearliest hle⟩

end Ended

end Follows

end Forest

end Throttle
