import EnumLabels.Yaml.Node

/-!
# The data that a YAML node denotes

Plain scalars denote what they look like, quoted ones their text. Keys have no parts. Of entries
with the same key the last one counts, in the place of the first.

The key `<<` merges the entries of a mapping, or of the mappings of a list, before the entries of
its own mapping. Of the mappings of a list the first one counts most.
-/

namespace EnumLabels.Yaml

namespace Node

/-- An entry of a mapping: a key with its value, or the pairs that it merges. -/
inductive Item where
  | entry (key value : Data)
  | merged (pairs : List (Data × Data))

/-- The pairs of a mapping. Those that are merged come first. -/
def pairsOfItems (items : List Item) : List (Data × Data) :=
  let merged : Item → List (Data × Data)
    | .entry _ _ => []
    | .merged pairs => pairs
  let own : Item → List (Data × Data)
    | .entry key value => [(key, value)]
    | .merged _ => []
  items.flatMap merged ++ items.flatMap own

/-- What a scalar denotes. -/
def scalar? : Node → Option Data
  | plain text =>
    match Plain.of text with
    | .data d => some d
    | .itself => some (.str (String.ofList text))
    | _ => none
  | quoted text => some (.str text)
  | _ => none

/-- What a scalar denotes as a key. -/
def key? : Node → Option Data
  | plain text =>
    match Plain.of text with
    | .reserved => some (.str (String.ofList text))
    | _ => scalar? (plain text)
  | n => scalar? n

/-- Whether a node is the key that merges. -/
def isMergeKey : Node → Bool
  | plain text =>
    match Plain.of text with
    | .merge => true
    | _ => false
  | _ => false

mutual

/-- The data that a node denotes. -/
def toData? : Node → Option Data
  | sequence items => (itemsToData? items).map .list
  | mapping entries =>
    (entriesToItems? entries).map fun items => .dict (Data.ofPairs (pairsOfItems items))
  | n => scalar? n
termination_by structural n => n

/-- The data that the items of a sequence denote. -/
def itemsToData? : List Node → Option (List Data)
  | [] => some []
  | n :: ns => do some ((← toData? n) :: (← itemsToData? ns))
termination_by structural ns => ns

/-- The entries of a mapping. -/
def entriesToItems? : List (Node × Node) → Option (List Item)
  | [] => some []
  | e :: es => do some ((← entryToItem? e) :: (← entriesToItems? es))
termination_by structural es => es

/-- One entry of a mapping. -/
def entryToItem? : Node × Node → Option Item
  | (k, v) =>
    if isMergeKey k then (mergedPairs? v).map .merged
    else do some (.entry (← key? k) (← toData? v))
termination_by structural e => e

/-- The pairs that a value of the merging key merges. -/
def mergedPairs? : Node → Option (List (Data × Data))
  | mapping entries => (entriesToItems? entries).map pairsOfItems
  | sequence items => (mergedLists? items).map fun lists => lists.reverse.flatten
  | _ => none
termination_by structural n => n

/-- The pairs of each mapping in a list of mappings. -/
def mergedLists? : List Node → Option (List (List (Data × Data)))
  | [] => some []
  | n :: ns => do some ((← mappingPairs? n) :: (← mergedLists? ns))
termination_by structural ns => ns

/-- The pairs of a mapping. -/
def mappingPairs? : Node → Option (List (Data × Data))
  | mapping entries => (entriesToItems? entries).map pairsOfItems
  | _ => none
termination_by structural n => n

end

end Node

end EnumLabels.Yaml
