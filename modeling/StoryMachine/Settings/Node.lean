import StoryMachine.Settings.Kind
import StoryMachine.Settings.Token.Cut

/-!
# Nodes of a document

The tokens of a document are read as nodes: scalars, lists and mappings, each
with its kind. Nodes are numbered, and lists and mappings hold the numbers of
their parts, since an alias makes a node part of several others, and even of
itself.
-/

namespace StoryMachine

/-- What a node consists of. -/
inductive NodeContent where
  | scalar (text : Text)
  | list (items : List Nat)
  | mapping (fields : List (Nat × Nat))
deriving DecidableEq, Repr, Inhabited

/-- A node of a document. -/
structure Node where
  kind : Kind
  content : NodeContent
deriving DecidableEq, Repr

instance : Inhabited Node := ⟨⟨.nothing, .scalar []⟩⟩

/-- A document that is partly read. -/
structure Reading where
  tokens : List Token
  nodes : Array Node := #[]
  /-- The named nodes. -/
  anchors : List (Text × Nat) := []
  /-- The short forms for the start of tags. -/
  handles : List (Text × Text) := []

/-- Actions that read nodes. -/
abbrev Read := Action Reading

namespace Read

open Document

/-- The next token. Nothing can be read where the text could not be cut. -/
def peek : Read Token := do
  match (← get).tokens with
  | .broken failure :: _ => Action.ofResult (.error failure)
  | token :: _ => return token
  | [] => return .streamEnd

/-- Takes the next token away. -/
def take : Read Unit :=
  modify fun reading => { reading with tokens := reading.tokens.tail }

/-- Takes the next token away if it is the given one. -/
def takeIf (token : Token) : Read Bool := do
  if (← peek) = token then
    take
    return true
  return false

/-- Whether the next token is one of those given. -/
def isNext (tokens : List Token) : Read Bool := do
  return tokens.contains (← peek)

/-- Adds a node. -/
def add (node : Node) : Read Nat := do
  let reading ← get
  set { reading with nodes := reading.nodes.push node }
  return reading.nodes.size

/-- A scalar that is not written at all. -/
def addEmpty : Read Nat :=
  add { kind := .nothing, content := .scalar [] }

/-- Gives a node its name. A name is given once. -/
def name (anchor : Option Text) (node : Nat) : Read Unit := do
  match anchor with
  | none => pure ()
  | some anchor =>
      expect (((← get).anchors.lookup anchor).isNone)
      modify fun reading => { reading with anchors := (anchor, node) :: reading.anchors }

/-- Adds a named node. -/
def addNamed (anchor : Option Text) (kind : Kind) (content : NodeContent) : Read Nat := do
  let node ← add { kind, content }
  name anchor node
  return node

/-- Fills a node whose parts have been read. -/
def fill (node : Nat) (content : NodeContent) : Read Nat := do
  modify fun reading =>
    { reading with nodes := reading.nodes.modify node fun old => { old with content } }
  return node

/-- The tag of a node, if it has one. -/
def takeTag? : Read (Option (Option Text × Text)) := do
  match ← peek with
  | .tag handle suffix =>
      take
      return some (handle, suffix)
  | _ => return none

/-- The name of a node, if it has one. -/
def takeAnchor? : Read (Option Text) := do
  match ← peek with
  | .anchor name =>
      take
      return some name
  | _ => return none

/-- The name and the tag of a node, in either order. -/
def takeProperties : Read (Option Text × Option (Option Text × Text)) := do
  match ← takeAnchor? with
  | some anchor => return (some anchor, ← takeTag?)
  | none =>
      match ← takeTag? with
      | none => return (none, none)
      | some tag => return (← takeAnchor?, some tag)

/-- A tag in full. -/
def expand : Option (Option Text × Text) → Read (Option Text)
  | none => return none
  | some (none, suffix) => return some suffix
  | some (some handle, suffix) => do
      match (← get).handles.lookup handle with
      | some start => return some (start ++ suffix)
      | none => Action.ofResult malformed

/-- Whether a tag leaves the kind open. -/
def isOpen (tag : Option Text) : Bool :=
  tag.all (· == [0x21])

/-- The kind of a node with a tag, or the given one if the tag leaves it open. -/
def kindOf (tag : Option Text) (kind : Kind) : Kind :=
  if isOpen tag then kind else (tag.map Kind.ofTag).getD kind

/-- The kind of a scalar: only a plain one, or one with a tag that leaves it open, goes by how it
is written. -/
def scalarKind (tag : Option Text) (plain : Bool) (text : Text) : Kind :=
  kindOf tag (if plain || tag.isSome then Kind.ofScalar text else .text)

/-- The greatest depth of a document. -/
def depthLimit : Nat := 487

/-- Where a node stands. -/
inductive Place where
  | bracketed
  | block
  /-- In a block mapping, where the items of a list need not be indented. -/
  | field
deriving DecidableEq

mutual

/-- A node and all its parts. -/
def node (place : Place) (depth : Nat) : Nat → Read Nat
  | 0 => Action.refuse .nestedTooDeep
  | budget + 1 => do
      if depthLimit < depth then Action.refuse .nestedTooDeep
      match ← peek with
      | .alias name =>
          take
          match (← get).anchors.lookup name with
          | some node => return node
          | none => Action.ofResult malformed
      | _ =>
          let (anchor, tag) ← takeProperties
          let tag ← expand tag
          let depth := depth + 1
          let collection (kind : Kind) (empty : NodeContent) : Read Nat :=
            addNamed anchor (kindOf tag kind) empty
          match ← peek, place with
          | .item, .field =>
              let node ← collection .list (.list [])
              fill node (.list (← looseItems depth budget))
          | .scalar text plain, _ =>
              take
              addNamed anchor (scalarKind tag plain text) (.scalar text)
          | .listOpen, _ =>
              take
              let node ← collection .list (.list [])
              fill node (.list (← bracketedItems true depth budget))
          | .mappingOpen, _ =>
              take
              let node ← collection .mapping (.mapping [])
              fill node (.mapping (← bracketedFields true depth budget))
          | .blockList, .block | .blockList, .field =>
              take
              let node ← collection .list (.list [])
              fill node (.list (← blockItems depth budget))
          | .blockMapping, .block | .blockMapping, .field =>
              take
              let node ← collection .mapping (.mapping [])
              fill node (.mapping (← blockFields depth budget))
          | _, _ =>
              expect (anchor.isSome || tag.isSome)
              addNamed anchor (scalarKind tag true []) (.scalar [])
termination_by structural budget => budget

/-- A node, unless one of the given tokens is next. -/
def nodeUnless (tokens : List Token) (place : Place) (depth : Nat) : Nat → Read Nat
  | 0 => Action.refuse .nestedTooDeep
  | budget + 1 => do if ← isNext tokens then addEmpty else node place depth budget
termination_by structural budget => budget

/-- The items of a block list, to its end. -/
def blockItems (depth : Nat) : Nat → Read (List Nat)
  | 0 => Action.refuse .nestedTooDeep
  | budget + 1 => do
      if ← takeIf .item then
        let item ← nodeUnless [.item, .blockEnd] .block depth budget
        return item :: (← blockItems depth budget)
      expect (← takeIf .blockEnd)
      return []
termination_by structural budget => budget

/-- The items of a list that is not indented in its mapping. -/
def looseItems (depth : Nat) : Nat → Read (List Nat)
  | 0 => Action.refuse .nestedTooDeep
  | budget + 1 => do
      if ← takeIf .item then
        let item ← nodeUnless [.item, .key, .value, .blockEnd] .block depth budget
        return item :: (← looseItems depth budget)
      return []
termination_by structural budget => budget

/-- The fields of a block mapping, to its end. -/
def blockFields (depth : Nat) : Nat → Read (List (Nat × Nat))
  | 0 => Action.refuse .nestedTooDeep
  | budget + 1 => do
      if ← takeIf .key then
        let ends := [Token.key, .value, .blockEnd]
        let key ← nodeUnless ends .field depth budget
        let value ←
          if ← takeIf .value then nodeUnless ends .field depth budget else addEmpty
        return (key, value) :: (← blockFields depth budget)
      expect (← takeIf .blockEnd)
      return []
termination_by structural budget => budget

/-- A key and its value between brackets, where one of the given tokens ends them. -/
def bracketedField (ends : List Token) (depth : Nat) : Nat → Read (Nat × Nat)
  | 0 => Action.refuse .nestedTooDeep
  | budget + 1 => do
      let key ← nodeUnless (.value :: ends) .bracketed depth budget
      let value ←
        if ← takeIf .value then nodeUnless ends .bracketed depth budget else addEmpty
      return (key, value)
termination_by structural budget => budget

/-- The items of a list in brackets, to its end. A key and its value are a mapping of their own. -/
def bracketedItems (isFirst : Bool) (depth : Nat) : Nat → Read (List Nat)
  | 0 => Action.refuse .nestedTooDeep
  | budget + 1 => do
      if ← takeIf .listClose then return []
      if !isFirst then
        expect (← takeIf .comma)
        if ← takeIf .listClose then return []
      if ← takeIf .key then
        let mapping ← add { kind := .mapping, content := .mapping [] }
        let field ← bracketedField [.comma, .listClose] (depth + 1) budget
        let item ← fill mapping (.mapping [field])
        return item :: (← bracketedItems false depth budget)
      let item ← node .bracketed depth budget
      return item :: (← bracketedItems false depth budget)
termination_by structural budget => budget

/-- The fields of a mapping in brackets, to its end. A node without a sign is a key. -/
def bracketedFields (isFirst : Bool) (depth : Nat) : Nat → Read (List (Nat × Nat))
  | 0 => Action.refuse .nestedTooDeep
  | budget + 1 => do
      if ← takeIf .mappingClose then return []
      if !isFirst then
        expect (← takeIf .comma)
        if ← takeIf .mappingClose then return []
      if ← takeIf .key then
        let field ← bracketedField [.comma, .mappingClose] depth budget
        return field :: (← bracketedFields false depth budget)
      let key ← node .bracketed depth budget
      let value ← addEmpty
      return (key, value) :: (← bracketedFields false depth budget)
termination_by structural budget => budget

end

/-- The short forms that every document has. -/
def commonHandles : List (Text × Text) :=
  [([0x21], [0x21]), ([0x21, 0x21], Text.ofString Kind.tagStart)]

/-- The directives in front of a document: at most one version, which starts with one, and each
short form once. -/
def directives (versionKnown : Bool) : Nat → Read Unit
  | 0 => pure ()
  | budget + 1 => do
      match ← peek with
      | .directive directive =>
          take
          match directive with
          | .version major =>
              expect (!versionKnown && major = 1)
              directives true budget
          | .handle handle start =>
              expect (((← get).handles.lookup handle).isNone)
              modify fun reading => { reading with handles := (handle, start) :: reading.handles }
              directives versionKnown budget
          | .other => directives versionKnown budget
      | _ =>
          modify fun reading => { reading with handles := reading.handles ++ commonHandles }

/-- The marks of the ends of documents. -/
def takeEnds : Nat → Read Unit
  | 0 => pure ()
  | budget + 1 => do if ← takeIf .documentEnd then takeEnds budget

/-- A document with its directives and its mark, which are required. -/
def explicitDocument (budget : Nat) : Read Nat := do
  directives false budget
  expect (← takeIf .documentStart)
  match ← peek with
  | .directive _ | .documentStart | .documentEnd | .streamEnd => addEmpty
  | _ => node .block 1 budget

/-- The one document of a text; an empty text has none. -/
def document (budget : Nat) : Read (Option Nat) := do
  let root ←
    match ← peek with
    | .streamEnd => pure none
    | .directive _ | .documentStart => some <$> explicitDocument budget
    | _ =>
        modify fun reading => { reading with handles := commonHandles }
        some <$> node .block 1 budget
  takeEnds budget
  if !(← isNext [.streamEnd]) then
    modify fun reading => { reading with handles := [] }
    directives false budget
    let _ ← peek
    Action.ofResult malformed
  return root

end Read

namespace Document

/-- Whether a character may stand in a document. -/
def isAllowed (c : CodePoint) : Bool :=
  c = 0x09 || c = 0x0a || c = 0x0d || (0x20 ≤ c && c ≤ 0x7e) || c = 0x85 ||
    (0xa0 ≤ c && c ≤ 0xd7ff) || (0xe000 ≤ c && c ≤ 0xfffd) || 0x10000 ≤ c

/-- The nodes of a text, and which of them is the document. -/
def parse (text : Text) : Result (Array Node × Option Nat) :=
  if !text.all isAllowed then malformed
  else
    let tokens := tokens text
    match Read.document (6 * tokens.length + 12) { tokens } with
    | .ok root reading => .ok (reading.nodes, root)
    | .error failure _ => .error failure

end Document

end StoryMachine
