import Throttle.Scope

/-!
# Ancestors in the tree of scopes

A node is cancelled if it or one of the nodes it was derived from was. Here these nodes are listed, so
that what a new node or a cancellation changes can be read off the list: a new node comes before those
of its parent and is on no other list, and a cancellation changes no list at all.

## Main definitions

* `ScopeTree.ancestry` — a node, the node it was derived from, and so on.
* `ScopeTree.isMarked` — whether a node was cancelled itself.

## Main statements

* `ScopeTree.isCancelled_eq_any` — a node is cancelled if one of its ancestry was.
* `ScopeTree.isCancelled_cancel` — a cancellation reaches those who have the node in their ancestry.
-/

namespace Throttle.ScopeTree

/-- A node, the node it was derived from, and so on. -/
def ancestry (tree : ScopeTree) (node : Nat) : List Nat :=
  match tree.nodes[node]? with
  | none => []
  | some entry =>
    node ::
      match entry.parent with
      | none => []
      | some parent => if parent < node then tree.ancestry parent else []
termination_by node

/-- Whether a node was cancelled itself. -/
def isMarked (tree : ScopeTree) (node : Nat) : Bool := tree.nodes[node]?.any ScopeNode.cancelled

/-- What a node was derived from. -/
def parent? (tree : ScopeTree) (node : Nat) : Option (Option Nat) :=
  tree.nodes[node]?.map ScopeNode.parent

variable {tree : ScopeTree} {node : Nat}

theorem ancestry_of_parent?_none (h : tree.parent? node = none) : tree.ancestry node = [] := by
  rw [parent?, Option.map_eq_none_iff] at h
  rw [ancestry, h]

theorem ancestry_of_root (h : tree.parent? node = some none) : tree.ancestry node = [node] := by
  obtain ⟨entry, hentry, hparent⟩ := Option.map_eq_some_iff.mp h
  rw [ancestry, hentry]
  simp [hparent]

theorem ancestry_of_parent {parent : Nat} (h : tree.parent? node = some (some parent))
    (hlt : parent < node) : tree.ancestry node = node :: tree.ancestry parent := by
  obtain ⟨entry, hentry, hparent⟩ := Option.map_eq_some_iff.mp h
  rw [ancestry, hentry]
  simp [hparent, hlt]

/-- **A node is cancelled if one of its ancestry was.** -/
theorem isCancelled_eq_any (tree : ScopeTree) (node : Nat) :
    tree.isCancelled node = (tree.ancestry node).any tree.isMarked := by
  induction node using Nat.strongRecOn with
  | ind node ih =>
    rw [isCancelled, ancestry]
    cases hentry : tree.nodes[node]? with
    | none => rfl
    | some entry =>
      have hmarked : tree.isMarked node = entry.cancelled := by simp [isMarked, hentry]
      simp only [List.any_cons, hmarked]
      cases entry.parent with
      | none => rfl
      | some parent =>
        by_cases hlt : parent < node
        · simp [hlt, ih parent hlt]
        · simp [hlt]

/-- The ancestry of a node depends on what the nodes up to it were derived from. -/
theorem ancestry_congr {other : ScopeTree}
    (h : ∀ earlier ≤ node, other.parent? earlier = tree.parent? earlier) :
    other.ancestry node = tree.ancestry node := by
  induction node using Nat.strongRecOn with
  | ind node ih =>
    have hnode := h node (Nat.le_refl node)
    have hrest : ∀ parent < node, other.ancestry parent = tree.ancestry parent := by
      intro parent hlt
      apply ih parent hlt
      intro earlier hle
      exact h earlier (Nat.le_trans hle (Nat.le_of_lt hlt))
    cases hparent : tree.parent? node with
    | none =>
      rw [ancestry_of_parent?_none hparent, ancestry_of_parent?_none (hnode.trans hparent)]
    | some parent =>
      cases parent with
      | none => rw [ancestry_of_root hparent, ancestry_of_root (hnode.trans hparent)]
      | some parent =>
        by_cases hlt : parent < node
        · rw [ancestry_of_parent hparent hlt, ancestry_of_parent (hnode.trans hparent) hlt,
            hrest parent hlt]
        · obtain ⟨entry, hentry, hold⟩ := Option.map_eq_some_iff.mp hparent
          obtain ⟨entry', hentry', hnew⟩ := Option.map_eq_some_iff.mp (hnode.trans hparent)
          rw [ancestry, ancestry, hentry, hentry']
          simp [hold, hnew, hlt]

/-- Ancestors were made earlier. -/
theorem le_of_mem_ancestry {ancestor : Nat} (h : ancestor ∈ tree.ancestry node) :
    ancestor ≤ node := by
  induction node using Nat.strongRecOn with
  | ind node ih =>
    rw [ancestry] at h
    cases hentry : tree.nodes[node]? with
    | none => simp [hentry] at h
    | some entry =>
      simp only [hentry, List.mem_cons] at h
      rcases h with rfl | h
      · exact Nat.le_refl _
      · cases hparent : entry.parent with
        | none => simp [hparent] at h
        | some parent =>
          by_cases hlt : parent < node
          · simp only [hparent, hlt, if_true] at h
            exact Nat.le_trans (ih parent hlt h) (Nat.le_of_lt hlt)
          · simp [hparent, hlt] at h

theorem lt_size_of_mem_ancestry {ancestor : Nat} (h : ancestor ∈ tree.ancestry node) :
    ancestor < tree.nodes.size := by
  apply Nat.lt_of_le_of_lt (le_of_mem_ancestry h)
  apply Nat.lt_of_not_le
  intro hle
  rw [ancestry, Array.getElem?_eq_none hle] at h
  cases h

theorem mem_ancestry_self (h : node < tree.nodes.size) : node ∈ tree.ancestry node := by
  rw [ancestry, Array.getElem?_eq_getElem h]
  exact List.mem_cons_self

/-! ## A new node -/

section Grow

variable (parent : Option Nat)

theorem size_grow (tree : ScopeTree) : (tree.grow parent).1.nodes.size = tree.nodes.size + 1 := by
  simp [grow]

theorem parent?_grow_of_lt (h : node < tree.nodes.size) :
    (tree.grow parent).1.parent? node = tree.parent? node := by
  simp [parent?, grow, Array.getElem?_push, Nat.ne_of_lt h]

theorem parent?_grow_size (tree : ScopeTree) :
    (tree.grow parent).1.parent? tree.nodes.size = some parent := by
  simp [parent?, grow]

/-- A new node is not cancelled by itself. -/
theorem isMarked_grow (tree : ScopeTree) (node : Nat) :
    (tree.grow parent).1.isMarked node = tree.isMarked node := by
  by_cases h : node = tree.nodes.size
  · simp [isMarked, grow, h]
  · simp [isMarked, grow, Array.getElem?_push, h]

theorem ancestry_grow_of_lt (h : node < tree.nodes.size) :
    (tree.grow parent).1.ancestry node = tree.ancestry node := by
  apply ancestry_congr
  intro earlier hle
  exact parent?_grow_of_lt parent (Nat.lt_of_le_of_lt hle h)

theorem isCancelled_grow_of_lt (h : node < tree.nodes.size) :
    (tree.grow parent).1.isCancelled node = tree.isCancelled node := by
  rw [isCancelled_eq_any, isCancelled_eq_any, ancestry_grow_of_lt parent h,
    funext (isMarked_grow parent tree)]

/-- The ancestry of a new node: itself and the ancestry of its parent. -/
theorem ancestry_grow_size (h : ∀ number ∈ parent, number < tree.nodes.size) :
    (tree.grow parent).1.ancestry tree.nodes.size =
      tree.nodes.size :: (parent.map tree.ancestry).getD [] := by
  have hnew := parent?_grow_size parent tree
  cases parent with
  | none => exact ancestry_of_root hnew
  | some number =>
    have hlt : number < tree.nodes.size := h number rfl
    rw [ancestry_of_parent hnew hlt, ancestry_grow_of_lt _ hlt]
    rfl

/-- A new node is cancelled if its parent is. -/
theorem isCancelled_grow_size (h : ∀ number ∈ parent, number < tree.nodes.size) :
    (tree.grow parent).1.isCancelled tree.nodes.size = parent.any tree.isCancelled := by
  have hself : tree.isMarked tree.nodes.size = false := by simp [isMarked]
  rw [isCancelled_eq_any, ancestry_grow_size parent h, funext (isMarked_grow parent tree),
    List.any_cons, hself, Bool.false_or]
  cases parent with
  | none => rfl
  | some number => exact (isCancelled_eq_any tree number).symm

/-- The earlier of two deadlines is kept. -/
theorem withDeadline_snd (tree : ScopeTree) (scope : Scope) (deadline : Int) :
    (tree.withDeadline scope deadline).2 =
      ⟨tree.nodes.size, some (scope.deadline.elim deadline (min deadline))⟩ := by
  rw [withDeadline]
  cases scope.deadline with
  | none => rfl
  | some earlier =>
    rw [Option.elim_some, Int.min_comm]
    rfl

end Grow

/-! ## A cancellation -/

section Cancel

variable (tree) (scope : Scope)

@[simp] theorem size_cancel : (tree.cancel scope).nodes.size = tree.nodes.size := by
  simp [cancel]

theorem parent?_cancel (node : Nat) : (tree.cancel scope).parent? node = tree.parent? node := by
  by_cases h : scope.node = node
  · simp [parent?, cancel, Array.getElem?_modify, h, Function.comp_def]
  · simp [parent?, cancel, Array.getElem?_modify, h]

@[simp] theorem ancestry_cancel (node : Nat) :
    (tree.cancel scope).ancestry node = tree.ancestry node := by
  apply ancestry_congr
  intro earlier _
  exact parent?_cancel tree scope earlier

variable {scope}

/-- A cancellation of a node that there is not changes nothing. -/
theorem cancel_of_le (h : tree.nodes.size ≤ scope.node) : tree.cancel scope = tree := by
  rw [cancel]
  congr 1
  apply Array.ext_getElem?
  intro node
  by_cases heq : scope.node = node
  · subst heq
    simp [h]
  · rw [Array.getElem?_modify, if_neg heq]

theorem isMarked_cancel (h : scope.node < tree.nodes.size) (node : Nat) :
    (tree.cancel scope).isMarked node = (tree.isMarked node || scope.node == node) := by
  by_cases heq : scope.node = node
  · subst heq
    simp [isMarked, cancel, Array.getElem?_modify, Array.getElem?_eq_getElem h]
  · simp [isMarked, cancel, Array.getElem?_modify, heq]

/-- **A cancellation reaches those who have the node in their ancestry**, and nobody else. -/
theorem isCancelled_cancel (h : scope.node < tree.nodes.size) (node : Nat) :
    (tree.cancel scope).isCancelled node =
      (tree.isCancelled node || (tree.ancestry node).contains scope.node) := by
  rw [isCancelled_eq_any, isCancelled_eq_any, ancestry_cancel, funext (tree.isMarked_cancel h)]
  generalize tree.ancestry node = nodes
  induction nodes with
  | nil => rfl
  | cons first nodes ih =>
    rw [List.any_cons, List.any_cons, List.contains_cons, ih]
    ac_rfl

end Cancel

/-! ## The end of a scope -/

section Ended

variable {scope : Scope} {now : Int}

/-- Cancellation goes before the deadline. -/
theorem ended_eq_canceled_iff :
    tree.ended scope now = some .canceled ↔ tree.isCancelled scope.node := by
  rw [ended]
  by_cases hcancelled : tree.isCancelled scope.node
  · simp [hcancelled]
  · cases scope.deadline with
    | none => simp [hcancelled]
    | some deadline => by_cases hle : deadline ≤ now <;> simp [hcancelled, hle]

theorem ended_eq_deadlineExceeded_iff :
    tree.ended scope now = some .deadlineExceeded ↔ ¬ tree.isCancelled scope.node ∧
      ∃ deadline, scope.deadline = some deadline ∧ deadline ≤ now := by
  rw [ended]
  by_cases hcancelled : tree.isCancelled scope.node
  · simp [hcancelled]
  · cases scope.deadline with
    | none => simp [hcancelled]
    | some deadline => by_cases hle : deadline ≤ now <;> simp [hcancelled, hle]

theorem ended_ne_none_iff :
    tree.ended scope now ≠ none ↔ tree.isCancelled scope.node ∨
      ∃ deadline, scope.deadline = some deadline ∧ deadline ≤ now := by
  have hreason : tree.ended scope now ≠ none ↔
      tree.ended scope now = some .canceled ∨ tree.ended scope now = some .deadlineExceeded := by
    cases tree.ended scope now with
    | none => simp
    | some reason => cases reason <;> simp
  rw [hreason, ended_eq_canceled_iff, ended_eq_deadlineExceeded_iff]
  by_cases hcancelled : tree.isCancelled scope.node
  · simp [hcancelled]
  · simp [hcancelled]

end Ended

end Throttle.ScopeTree
