import EnumLabels.Json.Reader
import EnumLabels.Json.Writer
import EnumLabels.Table.Basic
import EnumLabels.Yaml.Reader
import EnumLabels.Yaml.Writer

/-!
# Tables as data and text

A table is stored as a mapping with its count and its entries. An entry holds a label and the
plain value of a case. A stored table is read back entry by entry. With an enumerated type the
values stand for its members, and without one they are the cases. The count may be missing, but
it may not be wrong.
-/

namespace EnumLabels.Table

/-- A label and a case as an entry of a stored table. -/
def entryData (p : Case × Data) : Data := .dict [(.str "label", p.2), (.str "value", p.1.toData)]

/-- The table as data. -/
def toData (t : Table) : Data :=
  .dict [(.str "count", .int t.size), (.str "cases", .list (t.pairs.map entryData))]

/-- The case that a stored value stands for. -/
def caseOfData (type : Option EnumType) (value : Data) : Except Error Case :=
  match type with
  | none => .ok (.value value)
  | some t =>
    match t.ofValue? value with
    | some m => .ok (.member m)
    | none => .error (.notMember value t.name)

/-- The case and the label of a stored entry. -/
def pairOfData (type : Option EnumType) : Data → Except Error (Case × Data)
  | .dict fields =>
    match Data.field? "value" fields with
    | none => .error (.missingField "value")
    | some value =>
      match caseOfData type value with
      | .error e => .error e
      | .ok c =>
        match Data.field? "label" fields with
        | none => .error (.missingField "label")
        | some label => .ok (c, label)
  | _ => .error .wrongType

/-- The entries of stored data: the items of a list, the characters of a string or the keys of a
mapping. -/
def entriesOfData : Data → Except Error (List Data)
  | .list items => .ok items
  | .str s => .ok (s.singles.map Data.str)
  | .dict entries => .ok (entries.map (·.1))
  | _ => .error .wrongType

/-- The table that data stores. -/
def ofData (type : Option EnumType) : Data → Except Error Table
  | .dict fields => do
    let entries ← entriesOfData ((Data.field? "cases" fields).getD (.list []))
    let pairs ← entries.mapM (pairOfData type)
    match Data.field? "count" fields with
    | none => return ofPairs pairs
    | some count =>
      if count.same (.int pairs.length) then return ofPairs pairs
      else throw (.storedCount count pairs.length)
  | _ => .error .notMapping

/-- The table as JSON. -/
def toJson (t : Table) : Except Error String :=
  match Json.text? t.toData with
  | some text => .ok text
  | none => .error .wrongType

/-- The table that a JSON text stores. -/
def ofJson (type : Option EnumType) (text : String) : Except Error Table :=
  match Json.data? text with
  | some d => ofData type d
  | none => .error .malformedJson

/-- The table as YAML. -/
def toYaml (t : Table) : Except Error String :=
  match Yaml.text? .asStored t.toData with
  | some text => .ok text
  | none => .error .malformedYaml

/-- The table that a YAML text stores. -/
def ofYaml (type : Option EnumType) (text : String) : Except Error Table :=
  match Yaml.data text with
  | .ok d => ofData type d
  | .error fault => .error (.ofReadFault fault)

end EnumLabels.Table
