import Throttle.Session.Request
import Throttle.Time

/-!
# Lineages of scopes

Scopes are made in any order, from nothing, from one another or of the tokens of others, while some
are cancelled and time goes by. A chronicle tells what was done and works nothing out. From it one
reads what a scope goes back on: its own making and those of the scopes it was derived from. A copy
goes back on the very makings of its original, and so the lineage of a scope tells apart those that
can be cancelled apart.

A token is what a scope is cancelled by. Whoever has one has no less than a copy of every scope that
is made of it, and can derive other tokens from it; so a token counts as a scope without a deadline,
and the scopes that are made of it count as copies of it.

## Main definitions

* `Forest.Event` — something that is done with scopes, which go by numbers.
* `Forest.Chronicle` — what was done.
* `Forest.lineage` — the makings that a scope goes back on.
* `Forest.Reaches` — a cancellation reaches a scope.
-/

namespace Throttle.Forest

/-- Something that is done with scopes and tokens. They go by their numbers; the first one is number
zero. -/
inductive Event where
  /-- Make a scope that is derived from no other. -/
  | root
  /-- Make a scope of some kind from another one. -/
  | derive (kind : ScopeKind) (parent : Nat)
  /-- Somebody makes a token that is derived from no other. -/
  | token
  /-- Somebody derives a token from another one. -/
  | childToken (parent : Nat)
  /-- Make a scope of a token, which others may have made scopes of. -/
  | adopt (token : Nat)
  /-- Cancel a scope or a token. -/
  | cancel (number : Nat)
  /-- The system clock goes on. -/
  | pass (span : Nat)
deriving Repr, DecidableEq

/-! ## Chronicles -/

/-- How a scope or a token was made: from nothing, as a copy, or from another one, with a deadline if
one was asked for. A scope is a copy of the token that it is made of. -/
inductive Birth where
  | root
  | copy (original : Nat)
  | child (parent : Nat) (deadline? : Option Int)
deriving Repr, DecidableEq

/-- The birth of a scope that is derived at `now`. A span counts from now, if a clock can show its
end. -/
def Birth.of (now : Int) (parent : Nat) : ScopeKind → Birth
  | .root => .root
  | .same => .copy parent
  | .cancel => .child parent none
  | .timeout span => .child parent (Time.after? now span)
  | .deadline instant => .child parent (some instant)

/-- What was done: the births, the latest first, which of the numbers are those of tokens, and who was
cancelled. -/
structure Chronicle where
  now : Int
  births : List Birth
  tokens : List Nat
  cancels : List Nat
deriving Repr, DecidableEq

namespace Chronicle

/-- Nothing was done yet. -/
def opening (now : Int) : Chronicle := ⟨now, [], [], []⟩

/-- Note a birth. -/
def bear (past : Chronicle) (birth : Birth) : Chronicle :=
  { past with births := birth :: past.births }

/-- Note the birth of a token. -/
def bearToken (past : Chronicle) (birth : Birth) : Chronicle :=
  { past.bear birth with tokens := past.births.length :: past.tokens }

/-- Note what is done. Scopes are derived from scopes, and tokens from tokens. -/
def note (past : Chronicle) : Event → Chronicle
  | .root => past.bear .root
  | .derive kind parent =>
    if parent < past.births.length ∧ parent ∉ past.tokens then
      past.bear (.of past.now parent kind)
    else past
  | .token => past.bearToken .root
  | .childToken parent =>
    if parent ∈ past.tokens then past.bearToken (.child parent none) else past
  | .adopt token => if token ∈ past.tokens then past.bear (.copy token) else past
  | .cancel number =>
    if number < past.births.length then { past with cancels := number :: past.cancels } else past
  | .pass span => { past with now := past.now + span }

/-- The chronicle of a whole history. -/
def noteAll (past : Chronicle) (history : List Event) : Chronicle := history.foldl note past

end Chronicle

/-- The making of a scope of its own: its number, and the deadline that was asked for. -/
structure Making where
  number : Nat
  deadline? : Option Int
deriving Repr, DecidableEq

/-- The makings that a scope goes back on, the latest first. A copy goes back on those of its
original. -/
def lineage : List Birth → Nat → List Making
  | [], _ => []
  | birth :: earlier, number =>
    if number = earlier.length then
      match birth with
      | .root => [⟨number, none⟩]
      | .copy original => lineage earlier original
      | .child parent deadline? => ⟨number, deadline?⟩ :: lineage earlier parent
    else lineage earlier number

/-- All deadlines that were asked for on the way to a scope. -/
def requests (births : List Birth) (number : Nat) : List Int :=
  (lineage births number).filterMap Making.deadline?

/-- Whether the cancellation of a scope reaches another one: it is the same scope, a copy of it, or one
that the other was derived from. -/
def Reaches (births : List Birth) (cancelled number : Nat) : Prop :=
  lineage births cancelled <:+ lineage births number

instance (births : List Birth) (cancelled number : Nat) :
    Decidable (Reaches births cancelled number) :=
  inferInstanceAs (Decidable (lineage births cancelled <:+ lineage births number))

section Lineage

variable {births : List Birth} {birth : Birth} {number : Nat}

theorem lineage_cons_of_lt (h : number < births.length) :
    lineage (birth :: births) number = lineage births number := by
  simp [lineage, Nat.ne_of_lt h]

theorem lineage_root : lineage (.root :: births) births.length = [⟨births.length, none⟩] := by
  simp [lineage]

theorem lineage_copy (original : Nat) :
    lineage (.copy original :: births) births.length = lineage births original := by
  simp [lineage]

theorem lineage_child (parent : Nat) (deadline? : Option Int) :
    lineage (.child parent deadline? :: births) births.length =
      ⟨births.length, deadline?⟩ :: lineage births parent := by
  simp [lineage]

/-- Only what was made is gone back on. -/
theorem number_lt_of_mem_lineage {making : Making} (h : making ∈ lineage births number) :
    making.number < births.length := by
  induction births generalizing number with
  | nil => simp [lineage] at h
  | cons birth births ih =>
    rw [List.length_cons]
    by_cases hlast : number = births.length
    · subst hlast
      cases birth with
      | root =>
        rw [lineage_root, List.mem_singleton] at h
        rw [h]
        exact Nat.lt_succ_self _
      | copy original =>
        rw [lineage_copy] at h
        exact Nat.lt_succ_of_lt (ih h)
      | child parent deadline? =>
        rw [lineage_child, List.mem_cons] at h
        rcases h with rfl | h
        · exact Nat.lt_succ_self _
        · exact Nat.lt_succ_of_lt (ih h)
    · simp only [lineage, hlast, if_false] at h
      exact Nat.lt_succ_of_lt (ih h)

theorem Reaches.trans {first second third : Nat} (h : Reaches births first second)
    (h' : Reaches births second third) : Reaches births first third :=
  List.IsSuffix.trans h h'

end Lineage

end Throttle.Forest
