import Throttle.Time

/-!
# Scopes

A scope bounds how long somebody is willing to wait. It ends when it is cancelled, when a scope it
was derived from is cancelled, or when its deadline has come. A derived scope never has a later
deadline than the scope it was derived from.

Cancellation travels along a tree of nodes in which every node was made after its parent. Scopes
that share a node are cancelled together. A node can also be a token of somebody else, who makes a
scope of it and goes on using it.

## Main definitions

* `ScopeTree.isCancelled` — cancelled by itself or through an ancestor.
* `ScopeTree.withCancel`, `ScopeTree.withDeadline` — derive a scope.
* `ScopeTree.ended` — why a scope is over at an instant, if it is.
* `ScopeTree.noticed` — why a waiter is woken up by the end of its scope.
-/

namespace Throttle

/-- Why a scope is over. -/
inductive EndReason where
  | canceled
  | deadlineExceeded
deriving Repr, DecidableEq

/-- A node of the tree: what it was derived from, and whether it was cancelled itself. -/
structure ScopeNode where
  parent : Option Nat
  cancelled : Bool
deriving Repr, DecidableEq

/-- A place in the tree and a deadline. -/
structure Scope where
  node : Nat
  deadline : Option Int
deriving Repr, DecidableEq

/-- The nodes of all scopes, in the order in which they were made. -/
structure ScopeTree where
  nodes : Array ScopeNode
deriving Repr, DecidableEq

namespace Scope

/-- The scope of somebody who waits for ever: nobody cancels the first node. -/
def background : Scope := ⟨0, none⟩

/-- The scope that is made of a token. Whoever has the token still has it. -/
def ofToken (node : Nat) : Scope := ⟨node, none⟩

end Scope

namespace ScopeTree

/-- The tree that holds the background scope only. -/
def initial : ScopeTree := ⟨#[⟨none, false⟩]⟩

/-- Whether a node or one of its ancestors was cancelled. -/
def isCancelled (tree : ScopeTree) (node : Nat) : Bool :=
  match tree.nodes[node]? with
  | none => false
  | some entry =>
    entry.cancelled ||
      match entry.parent with
      | none => false
      | some parent => if parent < node then tree.isCancelled parent else false
termination_by node

/-- Add a node. -/
def grow (tree : ScopeTree) (parent : Option Nat) : ScopeTree × Nat :=
  (⟨tree.nodes.push ⟨parent, false⟩⟩, tree.nodes.size)

/-- A scope that is derived from no other. -/
def root (tree : ScopeTree) : ScopeTree × Scope :=
  let (tree, node) := tree.grow none
  (tree, .ofToken node)

/-- A scope that can be cancelled on its own. -/
def withCancel (tree : ScopeTree) (scope : Scope) : ScopeTree × Scope :=
  let (tree, node) := tree.grow (some scope.node)
  (tree, ⟨node, scope.deadline⟩)

/-- A scope that is over at `deadline`, or at the deadline of the scope it is derived from if that is
earlier. -/
def withDeadline (tree : ScopeTree) (scope : Scope) (deadline : Int) : ScopeTree × Scope :=
  let (tree, node) := tree.grow (some scope.node)
  (tree, ⟨node, some (match scope.deadline with
    | none => deadline
    | some earlier => min earlier deadline)⟩)

/-- A scope with the deadline `deadline?`; without one it can only be cancelled. -/
def withDeadline? (tree : ScopeTree) (scope : Scope) (deadline? : Option Int) : ScopeTree × Scope :=
  match deadline? with
  | none => tree.withCancel scope
  | some deadline => tree.withDeadline scope deadline

/-- Cancel the node of a scope. -/
def cancel (tree : ScopeTree) (scope : Scope) : ScopeTree :=
  ⟨tree.nodes.modify scope.node fun entry => { entry with cancelled := true }⟩

/-- Why a scope is over at `now`. Cancellation goes before the deadline. -/
def ended (tree : ScopeTree) (scope : Scope) (now : Int) : Option EndReason :=
  if tree.isCancelled scope.node then some .canceled
  else match scope.deadline with
    | none => none
    | some deadline => if deadline ≤ now then some .deadlineExceeded else none

/-- Why somebody who waits for the end of a scope is woken up at `now`: a cancellation wakes at once,
a deadline by its timer. -/
def noticed (tree : ScopeTree) (scope : Scope) (now : Int) : Option EndReason :=
  if tree.isCancelled scope.node then some .canceled
  else match scope.deadline with
    | none => none
    | some deadline => if Time.tick deadline ≤ now then some .deadlineExceeded else none

/-- Who is woken up finds the scope over, for the same reason. -/
theorem ended_of_noticed {tree : ScopeTree} {scope : Scope} {now : Int} {reason : EndReason}
    (h : tree.noticed scope now = some reason) : tree.ended scope now = some reason := by
  unfold noticed at h
  unfold ended
  split at h
  · next hc => simpa [hc] using h
  · next hc =>
    rw [if_neg hc]
    split at h
    · cases h
    · next deadline _ =>
      split at h
      · next hd => simpa [Int.le_trans (Time.le_tick deadline) hd] using h
      · cases h

end ScopeTree

end Throttle
