import Throttle.Window.Basic

/-!
# Operations on a window

The calls that can be made on a window, as values, so that a history of a window is a list of them.
Every operation that names an instant advances the window to it first.
-/

namespace Throttle.Window

/-- A call on a window. -/
inductive Operation where
  | advance (now : Int)
  | total (now : Int)
  | available (now : Int)
  | record (units : Nat)
  | resetsAt (now : Int) (units : Nat)
  | restart (now : Int)
deriving Repr, DecidableEq

/-- What a call returns. -/
inductive Result where
  | nothing
  | count (value : Nat)
  | instant (value : Int)
deriving Repr, DecidableEq

/-- The window after a call. -/
def after (window : Window) : Operation → Window
  | .advance now | .total now | .available now | .resetsAt now _ => window.advance now
  | .record units => window.record units
  | .restart now => window.restarted now

/-- What a call returns, read off the window after it. -/
def result (window : Window) : Operation → Result
  | .advance _ | .record _ | .restart _ => .nothing
  | .total now => .count (window.advance now).total
  | .available now => .count (window.advance now).available
  | .resetsAt now units => .instant ((window.advance now).resetsAt now units)

/-- The window after a history of calls. -/
def run (window : Window) (history : List Operation) : Window := history.foldl after window

@[simp] theorem run_nil (window : Window) : window.run [] = window := rfl

@[simp] theorem run_cons (window : Window) (operation : Operation) (history : List Operation) :
    window.run (operation :: history) = (window.after operation).run history := rfl

@[simp] theorem plan_after (window : Window) (operation : Operation) :
    (window.after operation).plan = window.plan := by
  cases operation <;> simp [after, restarted_eq]

end Throttle.Window
