import EnumLabels.Data.Basic

/-!
# Cases of enumerated types

A case is a member of an enumerated type or a plain value. A member equals only itself, never
the value it stands for. Plain values are compared as data.

The types are plain enumerations, and the name of a type stands for the type: two types have
different names. Types whose members are numbers or texts as well, so that a member equals its
value, are left out.

Some cases can name themselves: an object or a member by its `label`, if that is a string, and
any other member by its own name.
-/

namespace EnumLabels

/-- A named member of an enumerated type, with the value it stands for. -/
structure Member where
  /-- The name of the type, which stands for the type. -/
  typeName : String
  name : String
  value : Data
  /-- The value of the label property, if the type has one. -/
  label : Option Data

/-- An enumerated type: its members in the order of their declaration. -/
structure EnumType where
  name : String
  members : List Member

/-- A case of an enumerated type. -/
inductive Case where
  | member (m : Member)
  | value (d : Data)

namespace Member

/-- Members are the same when their types and their names are. -/
def same (m n : Member) : Bool := m.typeName == n.typeName && m.name == n.name

/-- The member with its type, as text. -/
def text (m : Member) : String := m.typeName ++ "." ++ m.name

end Member

namespace EnumType

/-- The first member that stands for a value. -/
def ofValue? (t : EnumType) (v : Data) : Option Member := t.members.find? fun m => v.same m.value

end EnumType

namespace Case

/-- Equality of cases. -/
def same : Case → Case → Bool
  | member m, member n => m.same n
  | value a, value b => a.same b
  | _, _ => false

/-- Whether two cases count as one within a collection. -/
def alike : Case → Case → Bool
  | member m, member n => m.same n
  | value a, value b => a.alike b
  | _, _ => false

/-- The plain value stored for a case: the value of a member, any other case itself. -/
def toData : Case → Data
  | member m => m.value
  | value d => d

/-- A case as messages show it. -/
def shown : Case → String
  | member m => "<" ++ m.text ++ ": " ++ m.value.shown ++ ">"
  | value d => d.shown

/-- A case as text. -/
def text : Case → CodeString
  | member m => m.text
  | value d => d.text

/-- The label a case gives itself. -/
def ownLabel? : Case → Option CodeString
  | member m =>
    match m.label with
    | some (.str label) => some label
    | _ => some m.name
  | value (.object attributes) =>
    match Data.field? "label" attributes with
    | some (.str label) => some label
    | _ => none
  | value _ => none

/-- The name that messages use for the type of a case. -/
def typeName : Case → String
  | member m => m.typeName
  | value d => d.typeName

end Case

end EnumLabels
