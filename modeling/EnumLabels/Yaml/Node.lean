import EnumLabels.Yaml.Token

/-!
# The tree of a YAML text

A node is a scalar, a sequence or a mapping. What is missing before or after a colon counts as
an empty plain scalar. A text holds at most one document.

The nodes are read from the tokens with fuel for every nested call. Twice the number of tokens
is enough.
-/

namespace EnumLabels.Yaml

/-- A node of the tree. -/
inductive Node where
  | plain (text : List Char)
  | quoted (text : CodeString)
  | sequence (items : List Node)
  | mapping (entries : List (Node × Node))
  deriving Inhabited

namespace Node

/-- The node that stands for nothing. -/
def empty : Node := plain []

/-- Why a text cannot be read on at its first token. -/
def faultOf : List Token → ReadFault
  | .fault fault :: _ => fault
  | _ => .malformed

/-- Whether no node starts at a token within a block collection. -/
def endsBlockNode (withEntries : Bool) : List Token → Bool
  | .blockEntry :: _ => withEntries
  | .key :: _ => true
  | .value :: _ => true
  | .blockEnd :: _ => true
  | _ => false

/-- Whether no node starts at a token within a list in a block. -/
def endsBlockItem : List Token → Bool
  | .blockEntry :: _ => true
  | .blockEnd :: _ => true
  | _ => false

/-- Whether no node starts at a token within a flow collection, before or after a colon. -/
def endsFlowNode (closing : Token) (isKey : Bool) : List Token → Bool
  | .value :: _ => isKey
  | .flowEntry :: _ => true
  | t :: _ => t == closing
  | [] => false

mutual

/-- Read a node. In a block it may be a block collection, and as a key or a value of a block
mapping it may be a list that is not indented further. -/
def read (inBlock isEntry : Bool) :
    (fuel : Nat) → List Token → Except ReadFault (Node × List Token)
  | 0, _ => .error .malformed
  | fuel + 1, tokens =>
    match tokens with
    | .plain text :: rest => .ok (plain text, rest)
    | .quoted text :: rest => .ok (quoted text, rest)
    | .flowSequenceStart :: rest =>
      (readFlowItems true fuel rest).map fun (items, rest) => (sequence items, rest)
    | .flowMappingStart :: rest =>
      (readFlowEntries true fuel rest).map fun (entries, rest) => (mapping entries, rest)
    | .blockSequenceStart :: rest =>
      if inBlock then
        (readBlockItems fuel rest).map fun (items, rest) => (sequence items, rest)
      else .error (faultOf tokens)
    | .blockMappingStart :: rest =>
      if inBlock then
        (readBlockEntries fuel rest).map fun (entries, rest) => (mapping entries, rest)
      else .error (faultOf tokens)
    | .blockEntry :: _ =>
      if isEntry then
        (readLevelItems fuel tokens).map fun (items, rest) => (sequence items, rest)
      else .error (faultOf tokens)
    | _ => .error (faultOf tokens)

/-- Read the items of a block list and the token that ends it. -/
def readBlockItems : (fuel : Nat) → List Token → Except ReadFault (List Node × List Token)
  | 0, _ => .error .malformed
  | fuel + 1, tokens =>
    match tokens with
    | .blockEnd :: rest => .ok ([], rest)
    | .blockEntry :: rest => do
      let (item, rest) ←
        if endsBlockItem rest then .ok (empty, rest) else read true false fuel rest
      let (items, rest) ← readBlockItems fuel rest
      .ok (item :: items, rest)
    | _ => .error (faultOf tokens)

/-- Read the items of a list at the level of its mapping, which no token ends. -/
def readLevelItems : (fuel : Nat) → List Token → Except ReadFault (List Node × List Token)
  | 0, _ => .error .malformed
  | fuel + 1, tokens =>
    match tokens with
    | .blockEntry :: rest => do
      let (item, rest) ←
        if endsBlockNode true rest then .ok (empty, rest) else read true false fuel rest
      let (items, rest) ← readLevelItems fuel rest
      .ok (item :: items, rest)
    | _ => .ok ([], tokens)

/-- Read the entries of a block mapping and the token that ends it. -/
def readBlockEntries :
    (fuel : Nat) → List Token → Except ReadFault (List (Node × Node) × List Token)
  | 0, _ => .error .malformed
  | fuel + 1, tokens =>
    match tokens with
    | .blockEnd :: rest => .ok ([], rest)
    | .key :: rest => do
      let (key, rest) ←
        if endsBlockNode false rest then .ok (empty, rest) else read true true fuel rest
      let (value, rest) ←
        match rest with
        | .value :: rest =>
          if endsBlockNode false rest then .ok (empty, rest) else read true true fuel rest
        | _ => .ok (empty, rest)
      let (entries, rest) ← readBlockEntries fuel rest
      .ok ((key, value) :: entries, rest)
    | _ => .error (faultOf tokens)

/-- Read the items of a flow list and its closing bracket. A key on its own is a mapping with one
entry. -/
def readFlowItems (first : Bool) :
    (fuel : Nat) → List Token → Except ReadFault (List Node × List Token)
  | 0, _ => .error .malformed
  | fuel + 1, tokens =>
    match tokens with
    | .flowSequenceEnd :: rest => .ok ([], rest)
    | _ => do
      let tokens ←
        match first, tokens with
        | true, _ => .ok tokens
        | false, .flowEntry :: rest => .ok rest
        | false, _ => .error (faultOf tokens)
      match tokens with
      | .flowSequenceEnd :: rest => .ok ([], rest)
      | .key :: rest =>
        let (entry, rest) ← readFlowPair .flowSequenceEnd fuel rest
        let (items, rest) ← readFlowItems false fuel rest
        .ok (mapping [entry] :: items, rest)
      | _ =>
        let (item, rest) ← read false false fuel tokens
        let (items, rest) ← readFlowItems false fuel rest
        .ok (item :: items, rest)

/-- Read the entries of a flow mapping and its closing brace. A node without a key token is a key
without a value. -/
def readFlowEntries (first : Bool) :
    (fuel : Nat) → List Token → Except ReadFault (List (Node × Node) × List Token)
  | 0, _ => .error .malformed
  | fuel + 1, tokens =>
    match tokens with
    | .flowMappingEnd :: rest => .ok ([], rest)
    | _ => do
      let tokens ←
        match first, tokens with
        | true, _ => .ok tokens
        | false, .flowEntry :: rest => .ok rest
        | false, _ => .error (faultOf tokens)
      match tokens with
      | .flowMappingEnd :: rest => .ok ([], rest)
      | .key :: rest =>
        let (entry, rest) ← readFlowPair .flowMappingEnd fuel rest
        let (entries, rest) ← readFlowEntries false fuel rest
        .ok (entry :: entries, rest)
      | _ =>
        let (key, rest) ← read false false fuel tokens
        let (entries, rest) ← readFlowEntries false fuel rest
        .ok ((key, empty) :: entries, rest)

/-- Read a key and its value in a flow collection with the given closing token. -/
def readFlowPair (closing : Token) :
    (fuel : Nat) → List Token → Except ReadFault ((Node × Node) × List Token)
  | 0, _ => .error .malformed
  | fuel + 1, tokens => do
    let (key, rest) ←
      if endsFlowNode closing true tokens then .ok (empty, tokens)
      else read false false fuel tokens
    match rest with
    | .value :: rest =>
      let (value, rest) ←
        if endsFlowNode closing false rest then .ok (empty, rest)
        else read false false fuel rest
      .ok ((key, value), rest)
    | _ => .ok ((key, empty), rest)

end

/-- The content of a document that starts with a mark, or without one if `isExplicit` is false. -/
def readDocument (isExplicit : Bool) (tokens : List Token) :
    Except ReadFault (Node × List Token) :=
  let content := read true false (2 * tokens.length + 2) tokens
  if isExplicit then
    match tokens with
    | [] => .ok (empty, [])
    | .documentStart :: _ => .ok (empty, tokens)
    | .documentEnd :: _ => .ok (empty, tokens)
    | _ => content
  else content

/-- The tree of the one document, the empty node if there is no document. -/
def ofTokens (tokens : List Token) : Except ReadFault Node := do
  let (node, rest) ←
    match tokens with
    | [] => .ok (empty, [])
    | .documentStart :: rest => readDocument true rest
    | _ => readDocument false tokens
  match rest.dropWhile (· == .documentEnd) with
  | [] => return node
  | rest => throw (faultOf rest)

end Node

end EnumLabels.Yaml
