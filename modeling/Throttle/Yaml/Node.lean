import Throttle.Yaml.Token

/-!
# Nodes

What a YAML text says: scalars, sequences and mappings, each with the mark of its first character. A
node can be named by an anchor and referred to afterwards; anchors are numbered in the order in which
they are written. References are kept, since what one of them means is up to the reader.
-/

namespace Throttle.Yaml

/-- What is written in front of a node. The handle of a tag has been replaced by what it stands for. -/
structure Properties where
  anchor : Option Nat := none
  tag : Option TagName := none
deriving Repr, DecidableEq

/-- A node. -/
inductive Node where
  | scalar (text : List Char) (style : ScalarStyle) (properties : Properties) (mark : Mark)
  | sequence (items : List Node) (properties : Properties) (mark : Mark)
  | mapping (entries : List (Node × Node)) (properties : Properties) (mark : Mark)
  | reference (anchor : Nat) (mark : Mark)
deriving Repr

namespace Node

/-- Where a node starts. -/
def mark : Node → Mark
  | scalar _ _ _ mark | sequence _ _ mark | mapping _ _ mark | reference _ mark => mark

/-- What is written in front of a node. -/
def properties : Node → Properties
  | scalar _ _ properties _ | sequence _ properties _ | mapping _ properties _ => properties
  | reference _ _ => {}

/-- A scalar without a single character. -/
def empty (properties : Properties) (mark : Mark) : Node := scalar [] .plain properties mark

end Node

/-- A document: its root, if there is one, and the nodes that have anchors. -/
structure Document where
  root : Option Node
  anchored : List Node

namespace Document

/-- The node that an anchor names. -/
def named? (document : Document) (anchor : Nat) : Option Node :=
  document.anchored.find? fun node => node.properties.anchor == some anchor

/-- The node that a reference stands for; any other node stands for itself. -/
def resolve? (document : Document) : Node → Option Node
  | .reference anchor _ => document.named? anchor
  | node => some node

end Document

end Throttle.Yaml
