import EnumLabels.Yaml.Value

/-!
# Why a YAML node denotes no data

A node denotes nothing if one of its scalars denotes nothing, if a key has parts, or if the
merging key has a value that cannot be merged. Of several faults the one that is found first
counts. They are looked for level by level: the nodes within a collection come after all the
nodes that are as deep as the collection itself. A mapping is merged before its keys and values
are looked at, each key before its value.
-/

namespace EnumLabels.Yaml.Node

/-- The entries of a mapping that do not merge others. -/
def ownEntries (entries : List (Node × Node)) : List (Node × Node) :=
  entries.filter fun e => !isMergeKey e.1

mutual

/-- The entries that the entries of a mapping merge. -/
def mergedEntries? : List (Node × Node) → Option (List (Node × Node))
  | [] => some []
  | e :: es => do some ((← entriesOfMerge? e) ++ (← mergedEntries? es))
termination_by structural es => es

/-- The entries that one entry merges. -/
def entriesOfMerge? : Node × Node → Option (List (Node × Node))
  | (k, v) => if isMergeKey k then entriesOfValue? v else some []
termination_by structural e => e

/-- The entries that a value of the merging key merges. -/
def entriesOfValue? : Node → Option (List (Node × Node))
  | mapping entries => (mergedEntries? entries).map (· ++ ownEntries entries)
  | sequence items => (entriesOfEach? items).map fun lists => lists.reverse.flatten
  | _ => none
termination_by structural n => n

/-- The entries of each mapping in a list of mappings. -/
def entriesOfEach? : List Node → Option (List (List (Node × Node)))
  | [] => some []
  | n :: ns => do some ((← allEntries? n) :: (← entriesOfEach? ns))
termination_by structural ns => ns

/-- The entries of a mapping behind those it merges. -/
def allEntries? : Node → Option (List (Node × Node))
  | mapping entries => (mergedEntries? entries).map (· ++ ownEntries entries)
  | _ => none
termination_by structural n => n

end

/-- Why a scalar denotes no data. -/
def faultOfScalar : Node → ReadFault
  | plain text =>
    match Plain.of text with
    | .invalid fault => .value fault
    | _ => .malformed
  | _ => .malformed

/-- Look at a node that is no key. What is a collection is looked into on the next level. -/
def visit (n : Node) : Except ReadFault (List Node) :=
  match n with
  | sequence _ => .ok [n]
  | mapping _ => .ok [n]
  | _ => if (scalar? n).isSome then .ok [] else .error (faultOfScalar n)

/-- Look at an entry, the key first. -/
def visitEntry (e : Node × Node) : Except ReadFault (List Node) :=
  if (key? e.1).isSome then visit e.2 else .error (faultOfScalar e.1)

/-- Look at the parts of a node, and find those that are collections. -/
def visitParts (n : Node) : Except ReadFault (List Node) :=
  match n with
  | sequence items => (items.mapM visit).map List.flatten
  | mapping _ =>
    match allEntries? n with
    | some entries => (entries.mapM visitEntry).map List.flatten
    | none => .error .malformed
  | _ => .ok []

/-- The first fault in some levels below the given collections. -/
def levelFault? : (levels : Nat) → List Node → Option ReadFault
  | 0, _ => none
  | levels + 1, collections =>
    match collections.mapM visitParts with
    | .error fault => some fault
    | .ok parts => if parts.flatten.isEmpty then none else levelFault? levels parts.flatten

/-- Why a node denotes no data, if it is at most as deep as the number of levels. -/
def faultOf? (levels : Nat) (n : Node) : Option ReadFault :=
  match n.visit with
  | .error fault => some fault
  | .ok collections => levelFault? levels collections

end EnumLabels.Yaml.Node
