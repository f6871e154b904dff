import Throttle.Yaml.Node
import Throttle.Yaml.Token.Lexer

/-!
# Documents

Putting tokens together to the nodes of a document. Every construct is read by a function of its own
that goes over the tokens it consists of. The fuel bounds how deeply these functions call one another,
which is less than four times the number of tokens.

## Main definitions

* `Composer` — the tokens that are left and what has been declared so far.
* `Document.ofTokens?`, `Document.ofText?` — the only document of a text, or nothing if the text is
  ill-formed or holds more than one.
-/

namespace Throttle.Yaml

/-- The tokens that are left and what has been declared so far. -/
structure Composer where
  tokens : List PlacedToken
  /-- The names of the anchors, newest first. -/
  names : List (List Char × Nat) := []
  anchored : List Node := []
  /-- What the handles of tags stand for. -/
  handles : List (List Char × List Char) := []

/-- Reading changes the composer, or fails. -/
abbrev Compose := StateT Composer Option

namespace Composer

/-- The next token. -/
def peek : Compose PlacedToken := do
  match (← get).tokens with
  | [] => failure
  | token :: _ => pure token

/-- Go over the next token. -/
def skip : Compose Unit :=
  modify fun composer => { composer with tokens := composer.tokens.tail }

/-- Whether the next token is one of some. -/
def sees (tokens : List Token) : Compose Bool := do
  pure (tokens.contains (← peek).token)

/-- What the handles of tags stand for if nothing else is declared. -/
def standardHandles : List (List Char × List Char) :=
  [(['!'], ['!']), (['!', '!'], "tag:yaml.org,2002:".toList)]

/-- Replace the handle of a tag by what it stands for. -/
def resolveTag (name : TagName) : Compose TagName := do
  if name.handle.isEmpty then pure name
  else
    match ((← get).handles ++ standardHandles).find? fun entry => entry.1 == name.handle with
    | some (_, handle) => pure { name with handle }
    | none => failure

/-- Number an anchor. -/
def addAnchor (name : List Char) : Compose Nat :=
  modifyGet fun composer =>
    (composer.names.length,
      { composer with names := (name, composer.names.length) :: composer.names })

/-- Remember a node that has an anchor. -/
def remember (node : Node) : Compose Node := do
  if node.properties.anchor.isSome then
    modify fun composer => { composer with anchored := node :: composer.anchored }
  pure node

/-- An anchor, if one is written here. -/
def anchor? : Compose (Option Nat) := do
  match (← peek).token with
  | .anchor name => do
    skip
    some <$> addAnchor name
  | _ => pure none

/-- A tag, if one is written here. -/
def tag? : Compose (Option TagName) := do
  match (← peek).token with
  | .tag name => do
    skip
    some <$> resolveTag name
  | _ => pure none

/-- An anchor and a tag, in either order. -/
def properties : Compose Properties := do
  match ← anchor? with
  | some anchor => pure { anchor, tag := ← tag? }
  | none =>
    match ← tag? with
    | some tag => pure { anchor := ← anchor?, tag }
    | none => pure {}

mutual

/-- The node that starts here. In a block, collections may be indented; `indentless` sequences may even
stand without indentation of their own. -/
def node (dialect : Dialect) : Nat → Bool → Bool → Compose Node
  | 0, _, _ => failure
  | fuel + 1, block, indentless => do
    let first ← peek
    match first.token with
    | .reference name => do
      skip
      match (← get).names.find? fun entry => entry.1 == name with
      | some (_, anchor) => pure (.reference anchor first.start)
      | none => failure
    | _ => do
      let properties ← properties
      match (← peek).token, block, indentless with
      | .blockEntry, _, true => do
        remember (.sequence (← indentlessItems dialect fuel) properties first.start)
      | .scalar text style, _, _ => do
        skip
        remember (.scalar text style properties first.start)
      | .flowSequenceStart, _, _ => do
        skip
        remember (.sequence (← flowItems dialect fuel true) properties first.start)
      | .flowMappingStart, _, _ => do
        skip
        remember (.mapping (← flowEntries dialect fuel true) properties first.start)
      | .blockSequenceStart, true, _ => do
        skip
        remember (.sequence (← blockItems dialect fuel) properties first.start)
      | .blockMappingStart, true, _ => do
        skip
        remember (.mapping (← blockEntries dialect fuel) properties first.start)
      | _, _, _ =>
        if properties = {} then failure else remember (.empty properties first.start)

/-- The node that starts here, unless one of `ends` does; then it is empty. -/
def nodeBefore (dialect : Dialect) : Nat → List Token → Bool → Bool → Mark → Compose Node
  | 0, _, _, _, _ => failure
  | fuel + 1, ends, block, indentless, mark => do
    if ← sees ends then pure (.empty {} mark) else node dialect fuel block indentless

/-- The items of a block sequence. -/
def blockItems (dialect : Dialect) : Nat → Compose (List Node)
  | 0 => failure
  | fuel + 1 => do
    let next ← peek
    match next.token with
    | .blockEntry => do
      skip
      let item ← nodeBefore dialect fuel [.blockEntry, .blockEnd] true false next.stop
      pure (item :: (← blockItems dialect fuel))
    | .blockEnd => do
      skip
      pure []
    | _ => failure

/-- The items of a sequence without indentation of its own. -/
def indentlessItems (dialect : Dialect) : Nat → Compose (List Node)
  | 0 => failure
  | fuel + 1 => do
    let next ← peek
    match next.token with
    | .blockEntry => do
      skip
      let item ←
        nodeBefore dialect fuel [.blockEntry, .key, .value, .blockEnd] true false next.stop
      pure (item :: (← indentlessItems dialect fuel))
    | _ => pure []

/-- The entries of a block mapping. -/
def blockEntries (dialect : Dialect) : Nat → Compose (List (Node × Node))
  | 0 => failure
  | fuel + 1 => do
    let next ← peek
    match next.token with
    | .key => do
      skip
      let key ← nodeBefore dialect fuel [.key, .value, .blockEnd] true true next.stop
      let value ← blockValue dialect fuel
      pure ((key, value) :: (← blockEntries dialect fuel))
    | .value => do
      if !dialect.bareValues then failure
      let value ← blockValue dialect fuel
      pure ((.empty {} next.start, value) :: (← blockEntries dialect fuel))
    | .blockEnd => do
      skip
      pure []
    | _ => failure

/-- The value of an entry of a block mapping. -/
def blockValue (dialect : Dialect) : Nat → Compose Node
  | 0 => failure
  | fuel + 1 => do
    let next ← peek
    if next.token = .value then
      skip
      nodeBefore dialect fuel [.key, .value, .blockEnd] true true next.stop
    else pure (.empty {} next.start)

/-- The items of a flow sequence. -/
def flowItems (dialect : Dialect) : Nat → Bool → Compose (List Node)
  | 0, _ => failure
  | fuel + 1, first => do
    if !first && !(← sees [.flowSequenceEnd]) then
      if ← sees [.flowEntry] then skip else failure
    let next ← peek
    match next.token with
    | .flowSequenceEnd => do
      skip
      pure []
    | .key => do
      skip
      let entry ← flowPair dialect fuel
      pure (.mapping [entry] {} next.start :: (← flowItems dialect fuel false))
    | _ => do
      let item ← node dialect fuel false false
      pure (item :: (← flowItems dialect fuel false))

/-- A mapping of one entry as an item of a flow sequence. What stands in place of a missing key is gone
over, even its colon. -/
def flowPair (dialect : Dialect) : Nat → Compose (Node × Node)
  | 0 => failure
  | fuel + 1 => do
    let next ← peek
    let key ← nodeBefore dialect fuel [.value, .flowEntry, .flowSequenceEnd] false false next.stop
    if [Token.value, .flowEntry, .flowSequenceEnd].contains next.token then skip
    let value ← flowValue dialect fuel [.flowEntry, .flowSequenceEnd]
    pure (key, value)

/-- The value of an entry in a flow collection. -/
def flowValue (dialect : Dialect) : Nat → List Token → Compose Node
  | 0, _ => failure
  | fuel + 1, ends => do
    let next ← peek
    if next.token = .value then
      skip
      nodeBefore dialect fuel ends false false (← peek).start
    else pure (.empty {} next.start)

/-- The entries of a flow mapping. -/
def flowEntries (dialect : Dialect) : Nat → Bool → Compose (List (Node × Node))
  | 0, _ => failure
  | fuel + 1, first => do
    if !first && !(← sees [.flowMappingEnd]) then
      if ← sees [.flowEntry] then skip else failure
    let next ← peek
    let ends := [Token.flowEntry, .flowMappingEnd]
    match next.token with
    | .flowMappingEnd => do
      skip
      pure []
    | .key => do
      skip
      let key ← nodeBefore dialect fuel (.value :: ends) false false (← peek).start
      let value ← flowValue dialect fuel ends
      pure ((key, value) :: (← flowEntries dialect fuel false))
    | .value => do
      if !dialect.bareValues then failure
      let value ← flowValue dialect fuel ends
      pure ((.empty {} next.start, value) :: (← flowEntries dialect fuel false))
    | _ => do
      let key ← node dialect fuel false false
      let value := Node.empty {} (← peek).start
      pure ((key, value) :: (← flowEntries dialect fuel false))

end

/-- Go over the directives in front of a document. A version may be declared once, and a handle once;
`versioned` tells whether a version has been. -/
def directives (dialect : Dialect) : Nat → Bool → Compose Unit
  | 0, _ => failure
  | fuel + 1, versioned => do
    match (← peek).token with
    | .versionDirective major minor => do
      if versioned then failure
      if dialect.knownDirectives && !(major == 1 && (minor == 1 || minor == 2)) then failure
      skip
      if !dialect.knownDirectives then modify fun composer => { composer with handles := [] }
      directives dialect fuel true
    | .tagDirective handle value => do
      let declared := (← get).handles
      let known := if dialect.knownDirectives then declared else []
      if known.any fun entry => entry.1 == handle then failure
      skip
      modify fun composer => { composer with handles := (handle, value) :: known }
      directives dialect fuel versioned
    | .otherDirective => do
      skip
      modify fun composer => { composer with handles := [] }
      directives dialect fuel versioned
    | _ => pure ()

/-- Go over the ends of documents. -/
def skipEnds : Nat → Compose Unit
  | 0 => pure ()
  | fuel + 1 => do
    if ← sees [.documentEnd] then
      skip
      skipEnds fuel

/-- Whether a directive or the start of a document comes next. -/
def atDocumentStart : Compose Bool := do
  match (← peek).token with
  | .versionDirective _ _ | .tagDirective _ _ | .otherDirective | .documentStart => pure true
  | _ => pure false

/-- The root of the first document. -/
def root (dialect : Dialect) (fuel : Nat) : Compose (Option Node) := do
  if dialect.bareEnds then skipEnds fuel
  if ← sees [.streamEnd] then pure none
  else if ← atDocumentStart then
    directives dialect fuel false
    if !(← sees [.documentStart]) then failure
    skip
    if (← atDocumentStart) || (← sees [.documentEnd, .streamEnd]) then
      pure (some (.empty {} (← peek).start))
    else some <$> node dialect fuel true false
  else some <$> node dialect fuel true false

/-- The root of the only document. -/
def onlyRoot (dialect : Dialect) (fuel : Nat) : Compose (Option Node) := do
  let root ← root dialect fuel
  if root.isSome then skipEnds fuel
  if !(← sees [.streamEnd]) then failure
  pure root

end Composer

namespace Document

/-- The only document that tokens make up. -/
def ofTokens? (dialect : Dialect) (tokens : List PlacedToken) : Option Document := do
  let (root, composer) ← Composer.onlyRoot dialect (4 * tokens.length + 4) { tokens }
  some { root, anchored := composer.anchored }

/-- The only document of a text. -/
def ofText? (dialect : Dialect) (text : List Char) : Option Document := do
  ofTokens? dialect (← Token.ofText? dialect text)

end Document

end Throttle.Yaml
