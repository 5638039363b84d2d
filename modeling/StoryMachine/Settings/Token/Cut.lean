import StoryMachine.Settings.Token.Plain
import StoryMachine.Settings.Token.Tag

/-!
# Cutting a document into tokens

Tokens are cut one after the other. Outside brackets the column of a token
decides which blocks end before it and whether it starts a new one. A scalar, a
list or a mapping may turn out to be a key when the sign of a value follows it;
until then its place is kept as a possible key. A possible key has to end on the
line where it starts and has at most 1024 characters, and where a block mapping
goes on there has to be one.
-/

namespace StoryMachine

/-- The place of a token that may be a key. -/
structure PossibleKey where
  /-- The number of open brackets around it. -/
  level : Nat
  /-- The number of tokens in front of it. -/
  token : Nat
  /-- Whether only a key can stand there. -/
  required : Bool
  index : Nat
  line : Nat
  column : Nat
deriving DecidableEq, Repr

/-- A document that is partly cut. -/
structure Cutting where
  cursor : Cursor
  tokens : Array Token := #[]
  /-- The number of open brackets. -/
  level : Nat := 0
  /-- The column of the innermost block, and of those around it. -/
  indent : Int := -1
  indents : List Int := []
  /-- Whether a key may stand here. -/
  keyAllowed : Bool := true
  /-- The possible keys, at most one for each level. -/
  keys : List PossibleKey := []
deriving Inhabited

/-- Actions that cut tokens. -/
abbrev Cut := Action Cutting

namespace Cut

open Document

/-- The most characters of a key. -/
def keyLimit : Nat := 1024

/-- Whether brackets are open. -/
def inBrackets : Cut Bool := do
  return 0 < (← get).level

/-- Adds a token. -/
def emit (token : Token) : Cut Unit :=
  modify fun cutting => { cutting with tokens := cutting.tokens.push token }

/-- Puts a token in front of a token that was cut before. -/
def emitAt (place : Nat) (token : Token) : Cut Unit :=
  modify fun cutting =>
    { cutting with tokens := cutting.tokens.insertIdxIfInBounds place token }

/-- Moves on in the text. -/
def moveTo (cursor : Cursor) : Cut Unit :=
  modify fun cutting => { cutting with cursor }

/-- Says whether a key may stand here. -/
def allowKey (keyAllowed : Bool) : Cut Unit :=
  modify fun cutting => { cutting with keyAllowed }

/-- Gives up possible keys that have grown too long, unless they are required. -/
def dropStaleKeys : Cut Unit := do
  let cutting ← get
  let isStale (key : PossibleKey) : Bool :=
    key.line != cutting.cursor.line || keyLimit < cutting.cursor.index - key.index
  expect (!cutting.keys.any fun key => isStale key && key.required)
  set { cutting with keys := cutting.keys.filter (!isStale ·) }

/-- Gives up the possible key between the innermost brackets, unless it is required. -/
def dropKey : Cut Unit := do
  let cutting ← get
  expect (!cutting.keys.any fun key => key.level = cutting.level && key.required)
  set { cutting with keys := cutting.keys.filter (·.level != cutting.level) }

/-- Keeps the place of the next token if it may be a key. -/
def keepKey : Cut Unit := do
  let cutting ← get
  if cutting.keyAllowed then
    dropKey
    let cursor := cutting.cursor
    let key : PossibleKey := {
      level := cutting.level, token := cutting.tokens.size
      required := cutting.level = 0 && cutting.indent = cursor.column
      index := cursor.index, line := cursor.line, column := cursor.column }
    modify fun cutting => { cutting with keys := key :: cutting.keys }

/-- Ends the blocks that are indented further than a column. -/
def endBlocks (column : Int) : Cut Unit := do
  let cutting ← get
  if cutting.level = 0 then
    let around := cutting.indent :: cutting.indents
    let ended := around.takeWhile (column < ·)
    let left := around.drop ended.length
    set { cutting with
      indent := left.headD (-1), indents := left.tail
      tokens := cutting.tokens ++ Array.replicate ended.length Token.blockEnd }

/-- Starts a block at a column, unless the innermost block is indented as far. -/
def startBlock (column : Nat) : Cut Bool := do
  let cutting ← get
  if cutting.indent < column then
    set { cutting with indent := column, indents := cutting.indent :: cutting.indents }
    return true
  return false

/-- Skips spaces, comments and line ends. Outside brackets a key may stand on the next line. -/
def skipGap : Nat → Cut Unit
  | 0 => pure ()
  | budget + 1 => do
      let cursor := (← get).cursor.dropSpaces.dropComment
      moveTo cursor
      if cursor.peek.isLineEnd then
        moveTo cursor.takeLineEnd.2
        if !(← inBrackets) then allowKey true
        skipGap budget

/-- Skips what stands in front of the next token. -/
def skipToToken : Cut Unit := do
  let cursor := (← get).cursor
  if cursor.index = 0 && cursor.peek = Cursor.byteOrderMark then moveTo cursor.next
  skipGap (cursor.rest.length + 1)

/-- A token of some characters. -/
def sign (length : Nat) (token : Token) : Cut Unit := do
  moveTo ((← get).cursor.skip length)
  emit token

/-- The end of the text. -/
def finish : Cut Unit := do
  endBlocks (-1)
  dropKey
  emit .streamEnd

/-- The mark of the start or the end of a document. -/
def marker (token : Token) : Cut Unit := do
  endBlocks (-1)
  dropKey
  allowKey false
  sign 3 token

/-- A directive. -/
def directive : Cut Unit := do
  endBlocks (-1)
  dropKey
  allowKey false
  let (directive, cursor) ← takeDirective (← get).cursor
  moveTo cursor
  emit (.directive directive)

/-- An opening bracket; what it opens may be a key. -/
def openBracket (token : Token) : Cut Unit := do
  keepKey
  modify fun cutting => { cutting with level := cutting.level + 1 }
  allowKey true
  sign 1 token

/-- A closing bracket. One that closes nothing counts as one inside no brackets. -/
def closeBracket (token : Token) : Cut Unit := do
  dropKey
  modify fun cutting => { cutting with level := cutting.level - 1 }
  allowKey false
  sign 1 token

/-- A comma. -/
def comma : Cut Unit := do
  allowKey true
  dropKey
  sign 1 .comma

/-- Checks that a key or an item may stand here, and starts its block. -/
def startEntry (block : Token) : Cut Unit := do
  if !(← inBrackets) then
    let cutting ← get
    expect cutting.keyAllowed
    if ← startBlock cutting.cursor.column then emit block

/-- The dash of an item. -/
def item : Cut Unit := do
  startEntry .blockList
  allowKey true
  dropKey
  sign 1 .item

/-- The question mark of a key. -/
def key : Cut Unit := do
  startEntry .blockMapping
  allowKey !(← inBrackets)
  dropKey
  sign 1 .key

/-- The colon of a value. A possible key is one now. -/
def value : Cut Unit := do
  let cutting ← get
  match cutting.keys.find? (·.level = cutting.level) with
  | some key =>
      modify fun cutting => { cutting with keys := cutting.keys.filter (·.level != cutting.level) }
      emitAt key.token .key
      if !(← inBrackets) then
        if ← startBlock key.column then emitAt key.token .blockMapping
      allowKey false
  | none =>
      startEntry .blockMapping
      allowKey !(← inBrackets)
      dropKey
  sign 1 .value

/-- A token that may be a key, with the place after it. -/
def possibleKey (take : Cursor → Result (Token × Cursor)) : Cut Unit := do
  keepKey
  allowKey false
  let (token, cursor) ← take (← get).cursor
  moveTo cursor
  emit token

/-- A block scalar. A key may follow it. -/
def block : Cut Unit := do
  allowKey true
  dropKey
  let cutting ← get
  let (text, cursor) ← takeBlock cutting.indent cutting.cursor
  moveTo cursor
  emit (.scalar text false)

/-- A plain scalar. A key may follow it if a line ended after it. -/
def plain : Cut Unit := do
  keepKey
  let cutting ← get
  let plain := takePlain (0 < cutting.level) (cutting.indent + 1) cutting.cursor
  moveTo plain.cursor
  allowKey plain.lineEnded
  emit (.scalar plain.text true)

/-- Whether a plain scalar may start at a place. -/
def startsPlain (inBrackets : Bool) (cursor : Cursor) : Bool :=
  let c := cursor.peek
  !(c.endsWord || c.isOneOf "-?:,[]\x7b\x7d#&*!|>'\"%@\x60") ||
    (!(cursor.peekAt 1).endsWord && (c = 0x2d || (!inBrackets && (c = 0x3f || c = 0x3a))))

/-- Cuts the next token. -/
def next : Cut Unit := do
  skipToToken
  dropStaleKeys
  endBlocks (← get).cursor.column
  let cursor := (← get).cursor
  let bracketed ← inBrackets
  let c := cursor.peek
  let atStart := cursor.column = 0
  let apart := (cursor.peekAt 1).endsWord
  if c = 0 then finish
  else if c = 0x25 && atStart then directive
  else if atStart && cursor.isMarker 0x2d then marker .documentStart
  else if atStart && cursor.isMarker 0x2e then marker .documentEnd
  else if c = 0x5b then openBracket .listOpen
  else if c = 0x7b then openBracket .mappingOpen
  else if c = 0x5d then closeBracket .listClose
  else if c = 0x7d then closeBracket .mappingClose
  else if c = 0x2c then comma
  else if c = 0x2d && apart then item
  else if c = 0x3f && (bracketed || apart) then key
  else if c = 0x3a && (bracketed || apart) then value
  else if c = 0x2a then
    possibleKey fun cursor => do
      let (name, cursor) ← takeAnchor cursor
      return (.alias name, cursor)
  else if c = 0x26 then
    possibleKey fun cursor => do
      let (name, cursor) ← takeAnchor cursor
      return (.anchor name, cursor)
  else if c = 0x21 then possibleKey takeTag
  else if !bracketed && (c = 0x7c || c = 0x3e) then block
  else if c = 0x27 || c = 0x22 then
    possibleKey fun cursor => do
      let (text, cursor) ← takeQuoted cursor
      return (.scalar text false, cursor)
  else if startsPlain bracketed cursor then plain
  else Action.ofResult malformed

/-- Cuts token after token up to the end of the text. -/
def all : Nat → Cut Unit
  | 0 => pure ()
  | budget + 1 => do
      if (← get).tokens.back? != some .streamEnd then
        next
        all budget

end Cut

namespace Document

/-- The tokens of a text. If the text cannot be cut to its end, the last token says why. -/
def tokens (text : Text) : List Token :=
  match Cut.all (text.length + 2) { cursor := { rest := text } } with
  | .ok _ cutting => cutting.tokens.toList
  | .error failure cutting => (cutting.tokens.push (.broken failure)).toList

end Document

end StoryMachine
