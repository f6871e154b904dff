import Throttle.Fault

/-!
# Replies

What a session answers: a value or a fault, and what the request's objects look like afterwards.
-/

namespace Throttle

/-- A value that a request asks for. -/
inductive Answer where
  | nothing
  | flag (value : Bool)
  | count (value : Nat)
  | instant (value : Int)
  | span (value : Nat)
  | text (value : String)
  /-- Whether each of some attempts was let through. -/
  | attempts (results : List Bool)
  | scope (deadline : Option Int) (ended : Option EndReason)
  | policy (plan : Plan) (name description : String)
  | limiter (limit : Nat) (window : Window)
  /-- The limiter of a key, with the other names that it goes by. -/
  | entered (limit : Nat) (sameAs : List String) (window : Window)
  | registry (size : Nat) (policy : String) (swept : Bool)
  | decision (decision : Decision)
deriving Repr, DecidableEq

/-- How a request ends. -/
inductive Result where
  | ok (answer : Answer)
  | failed (fault : Fault)
  /-- A clock would have to show an instant that it cannot show. -/
  | clockOverflow
  /-- The request still waited when its patience was over. -/
  | pending
  /-- It names something that the session does not have. -/
  | unknown
deriving Repr, DecidableEq

/-- A result, and what is told beside it. -/
structure Reply where
  result : Result
  /-- The window of the request's limiter. -/
  window : Option Window := none
  /-- How many keys the request's registry has in use. -/
  size : Option Nat := none
  /-- What the request's clock shows. -/
  shown : Option Int := none
  /-- How long the request took. -/
  elapsed : Option Nat := none
deriving Repr, DecidableEq

end Throttle
