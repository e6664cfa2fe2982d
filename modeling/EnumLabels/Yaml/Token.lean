import EnumLabels.Yaml.ScalarReader

/-!
# Tokens of YAML

A text is cut into tokens from left to right. In a block, columns give rise to tokens of their
own: a deeper column starts a collection, and a shallower one ends those that are deeper.

Whether a scalar or a flow collection is a key shows only at the colon behind it, which must be
on the same line and at most 1024 characters further on. Until then its place among the tokens
is remembered, and the colon puts the missing tokens there.

Directives, anchors, aliases and tags are refused. What is wrong with a text stands among the
tokens as the last one, behind those that are certain by then: before a place where a key may have
started no token is certain.
-/

namespace EnumLabels.Yaml

/-- A token. -/
inductive Token where
  | documentStart
  | documentEnd
  | blockSequenceStart
  | blockMappingStart
  | blockEnd
  | blockEntry
  | flowSequenceStart
  | flowSequenceEnd
  | flowMappingStart
  | flowMappingEnd
  | flowEntry
  | key
  | value
  | plain (text : List Char)
  | quoted (text : CodeString)
  /-- The text cannot be read on. -/
  | fault (fault : ReadFault)
  deriving DecidableEq, Repr

/-- A place at which a key may have started. -/
structure PossibleKey where
  /-- The number of tokens before it. -/
  position : Nat
  /-- Whether a colon must follow, because nothing else can stand at its column. -/
  required : Bool
  index : Nat
  line : Nat
  column : Nat

/-- What is known between two tokens. -/
structure Lexer where
  cursor : Cursor
  /-- The tokens so far, the latest first. -/
  tokens : List Token
  /-- The number of tokens so far. -/
  count : Nat
  /-- The columns of the open block collections, the innermost first. -/
  indents : List Nat
  /-- The possible key at the top level and in every open flow collection, the innermost first. -/
  keys : List (Option PossibleKey)
  /-- Whether a key may start here. -/
  allowsKey : Bool

namespace Lexer

/-- The start of a text. -/
def start (text : List Char) : Lexer := ⟨Cursor.start text, [], 0, [], [none], true⟩

/-- Whether a flow collection is open. -/
def inFlow (s : Lexer) : Bool := 1 < s.keys.length

/-- The first column of text that belongs to the innermost block collection. -/
def contentColumn (s : Lexer) : Nat :=
  match s.indents with
  | [] => 0
  | column :: _ => column + 1

/-- Add a token. -/
def emit (s : Lexer) (t : Token) : Lexer :=
  { s with tokens := t :: s.tokens, count := s.count + 1 }

/-- Add the tokens that end some block collections. -/
def emitEnds (s : Lexer) (ends : Nat) : Lexer :=
  { s with
    tokens := List.replicate ends .blockEnd ++ s.tokens
    count := s.count + ends }

/-- Go on where `rest` is left of the text. -/
def moveTo (s : Lexer) (rest : List Char) : Lexer := { s with cursor := s.cursor.moveTo rest }

/-- Go on some characters further. -/
def advance (s : Lexer) (count : Nat) : Lexer := { s with cursor := s.cursor.advance count }

/-- Set whether a key may start. -/
def allow (s : Lexer) (allowsKey : Bool) : Lexer := { s with allowsKey }

/-- The number of characters of the blanks, comments and line ends at the start of a text. -/
def countBlanks (inComment : Bool) : List Char → Nat
  | [] => 0
  | c :: rest =>
    if isBreak c then countBlanks false rest + 1
    else if inComment then countBlanks true rest + 1
    else if c = ' ' then countBlanks false rest + 1
    else if c = '#' then countBlanks true rest + 1
    else 0

/-- Go on at the next token. In a block a key may start on a new line. -/
def toNextToken (s : Lexer) : Lexer :=
  let count := countBlanks false s.cursor.rest
  let broken := (s.cursor.rest.take count).any isBreak
  (s.advance count).allow (s.allowsKey || (broken && !s.inFlow))

/-- Whether a possible key can no longer be one. -/
def isStale (s : Lexer) (key : PossibleKey) : Bool :=
  key.line != s.cursor.line || 1024 < s.cursor.index - key.index

/-- Forget the possible keys that can no longer be keys. None of them may be required. -/
def dropStale (s : Lexer) : Except ReadFault Lexer :=
  let stale (key : PossibleKey) : Bool := s.isStale key
  if s.keys.any fun k => (k.map fun key => stale key && key.required).getD false then
    .error .malformed
  else
    .ok { s with
      keys := s.keys.map fun k => if (k.map stale).getD false then none else k }

/-- End the block collections that are deeper than the next token. -/
def unwind (s : Lexer) : Lexer :=
  if s.inFlow then s
  else
    let ended := s.indents.takeWhile fun column => s.cursor.column < column
    { s.emitEnds ended.length with indents := s.indents.drop ended.length }

/-- End all block collections. -/
def unwindAll (s : Lexer) : Lexer :=
  if s.inFlow then s else { s.emitEnds s.indents.length with indents := [] }

/-- Forget the possible key of the innermost collection, which must not be required. -/
def removeKey (s : Lexer) : Except ReadFault Lexer :=
  match s.keys with
  | some key :: outer =>
    if key.required then .error .malformed else .ok { s with keys := none :: outer }
  | _ => .ok s

/-- Remember that a key may start here. -/
def saveKey (s : Lexer) : Except ReadFault Lexer :=
  if s.allowsKey then do
    let s ← s.removeKey
    let key : PossibleKey :=
      { position := s.count
        required := !s.inFlow && s.indents.head? == some s.cursor.column
        index := s.cursor.index
        line := s.cursor.line
        column := s.cursor.column }
    return { s with keys := some key :: s.keys.drop 1 }
  else .ok s

/-- Whether a column starts a new block collection. -/
def isDeeper (s : Lexer) (column : Nat) : Bool :=
  match s.indents with
  | [] => true
  | innermost :: _ => innermost < column

/-- Start a block collection if the next token is deeper than the innermost one. -/
def openBlock (s : Lexer) (t : Token) : Lexer :=
  if s.isDeeper s.cursor.column then
    { s.emit t with indents := s.cursor.column :: s.indents }
  else s

/-- Read a document mark. -/
def readDocumentMark (s : Lexer) (t : Token) : Except ReadFault Lexer := do
  let s ← s.unwindAll.removeKey
  return ((s.allow false).advance 3 |>.emit t)

/-- Read the start of a flow collection. -/
def readFlowStart (s : Lexer) (t : Token) : Except ReadFault Lexer := do
  let s ← s.saveKey
  return (({ s with keys := none :: s.keys }.allow true).advance 1 |>.emit t)

/-- Read the end of a flow collection. -/
def readFlowEnd (s : Lexer) (t : Token) : Except ReadFault Lexer := do
  let s ← s.removeKey
  if s.inFlow then
    return (({ s with keys := s.keys.drop 1 }.allow false).advance 1 |>.emit t)
  else throw .malformed

/-- Read a comma in a flow collection. -/
def readComma (s : Lexer) : Except ReadFault Lexer := do
  let s ← (s.allow true).removeKey
  return (s.advance 1 |>.emit .flowEntry)

/-- Read the dash of a list item. -/
def readDash (s : Lexer) : Except ReadFault Lexer := do
  if !s.inFlow && !s.allowsKey then throw .malformed
  let s := if s.inFlow then s else s.openBlock .blockSequenceStart
  let s ← (s.allow true).removeKey
  return (s.advance 1 |>.emit .blockEntry)

/-- Read the question mark of a key. -/
def readKey (s : Lexer) : Except ReadFault Lexer := do
  if !s.inFlow && !s.allowsKey then throw .malformed
  let s := if s.inFlow then s else s.openBlock .blockMappingStart
  let s ← (s.allow !s.inFlow).removeKey
  return (s.advance 1 |>.emit .key)

/-- Put the tokens of a key, and of the mapping that it starts, before the key's own. -/
def insertKey (s : Lexer) (key : PossibleKey) : Lexer :=
  let later := s.tokens.take (s.count - key.position)
  let earlier := s.tokens.drop (s.count - key.position)
  if !s.inFlow && s.isDeeper key.column then
    { s with
      tokens := later ++ .key :: .blockMappingStart :: earlier
      count := s.count + 2
      indents := key.column :: s.indents }
  else { s with tokens := later ++ .key :: earlier, count := s.count + 1 }

/-- Read the colon before a value. -/
def readValue (s : Lexer) : Except ReadFault Lexer :=
  match s.keys with
  | some key :: outer =>
    let s := ({ s with keys := none :: outer }.insertKey key).allow false
    .ok (s.advance 1 |>.emit .value)
  | _ =>
    if s.inFlow then .ok ((s.allow false).advance 1 |>.emit .value)
    else if s.allowsKey then
      .ok (((s.openBlock .blockMappingStart).allow true).advance 1 |>.emit .value)
    else .error .malformed

/-- Read quoted text after its quote. -/
def readQuoted (s : Lexer) (found : Except ReadFault (CodeString × List Char)) :
    Except ReadFault Lexer := do
  let s ← s.saveKey
  let (text, rest) ← found
  return ((s.allow false).moveTo rest).emit (.quoted text)

/-- The text in single quotes, and what follows it. -/
def singleQuoted (rest : List Char) : Except ReadFault (CodeString × List Char) :=
  match readSingle? .none rest with
  | some (text, rest) => .ok (.chars (String.ofList text), rest)
  | none => .error .malformed

/-- The text in double quotes, and what follows it. -/
def doubleQuoted (rest : List Char) : Except ReadFault (CodeString × List Char) := do
  let (points, rest) ← readDouble .none rest
  return (.ofPoints points, rest)

/-- Read block text. -/
def readBlockText (s : Lexer) (folds : Bool) (text : List Char) : Except ReadFault Lexer := do
  let s ← (s.allow true).removeKey
  match readBlock? folds (max s.contentColumn 1) text with
  | some (text, rest) => return (s.moveTo rest).emit (.quoted (.chars (String.ofList text)))
  | none => throw .malformed

/-- Read plain text. -/
def readPlainText (s : Lexer) : Except ReadFault Lexer := do
  let s ← s.saveKey
  let found := readPlain s.inFlow s.contentColumn s.cursor [] false
  return { s with cursor := found.cursor, allowsKey := found.broken }.emit (.plain found.text)

/-- Whether plain text can start with a character, given what follows it. -/
def startsPlain (flow : Bool) (c : Char) (rest : List Char) : Bool :=
  if c = '-' then !atSpace rest
  else if c = '?' ∨ c = ':' then !flow && !atSpace rest
  else !isGap c && !isBreak c && !indicators.contains c

/-- Read the token at the cursor, of which the first character and the text after it are given. -/
def readToken (s : Lexer) (c : Char) (rest : List Char) : Except ReadFault Lexer :=
  if s.cursor.column = 0 ∧ c = '%' then .error .malformed
  else if s.cursor.column = 0 ∧ isDocumentMark (c :: rest) then
    s.readDocumentMark (if c = '-' then .documentStart else .documentEnd)
  else if c = '[' then s.readFlowStart .flowSequenceStart
  else if c = '{' then s.readFlowStart .flowMappingStart
  else if c = ']' then s.readFlowEnd .flowSequenceEnd
  else if c = '}' then s.readFlowEnd .flowMappingEnd
  else if c = ',' then s.readComma
  else if c = '-' ∧ atSpace rest then s.readDash
  else if c = '?' ∧ (s.inFlow ∨ atSpace rest) then s.readKey
  else if c = ':' ∧ (s.inFlow ∨ atSpace rest) then s.readValue
  else if c = '*' ∨ c = '&' ∨ c = '!' then .error .malformed
  else if c = '|' ∧ !s.inFlow then s.readBlockText false rest
  else if c = '>' ∧ !s.inFlow then s.readBlockText true rest
  else if c = '\'' then s.readQuoted (singleQuoted rest)
  else if c = '"' then s.readQuoted (doubleQuoted rest)
  else if startsPlain s.inFlow c rest then s.readPlainText
  else .error .malformed

/-- Go on at the next token, forget the keys that are too far back and end the blocks that are
deeper. -/
def settle (s : Lexer) : Except ReadFault Lexer := s.toNextToken.dropStale.map unwind

/-- The tokens at the end of the text. -/
def finish (s : Lexer) : Except ReadFault (List Token) :=
  s.unwindAll.removeKey.map (·.tokens.reverse)

/-- The number of tokens that no colon can change any more. -/
def certain (s : Lexer) : Nat :=
  let places := s.keys.filterMap fun k =>
    k.bind fun key => if s.isStale key then none else some key.position
  places.foldl min s.count

/-- The tokens of a text that cannot be read on. -/
def breakOff (s : Lexer) (fault : ReadFault) : List Token :=
  s.tokens.reverse.take s.certain ++ [.fault fault]

/-- Read the next token, or find the end of the text. -/
def step (s : Lexer) : Except ReadFault (Lexer ⊕ List Token) := do
  let settled ← s.settle
  match settled.cursor.rest with
  | [] => return .inr (← settled.finish)
  | c :: rest => return .inl (← settled.readToken c rest)

/-- The tokens of the rest of a text. Every token takes up some of it. -/
def run (s : Lexer) : (fuel : Nat) → List Token
  | 0 => s.breakOff .malformed
  | fuel + 1 =>
    match s.step with
    | .error fault => s.breakOff fault
    | .ok (.inr tokens) => tokens
    | .ok (.inl next) => next.run fuel

end Lexer

/-- The tokens of a text. -/
def tokens (text : List Char) : List Token := (Lexer.start text).run (text.length + 1)

end EnumLabels.Yaml
