import EnumLabels.Error

/-!
# Label tables

A table pairs the cases of an enumerated type with labels, in order. It has as many labels as
cases: a table is never cut short and never filled up.

Looking up a case finds the label of the first equal case, and looking up a label finds the
first case that carries it.
-/

namespace EnumLabels

/-- Cases with their labels. A label is usually a string. -/
structure Table where
  cases : List Case
  labels : List Data
  length_eq : cases.length = labels.length

namespace Table

/-- The table of given cases and labels, if there are equally many. -/
def make (cases : List Case) (labels : List Data) (source : Option String) : Except Error Table :=
  if h : cases.length = labels.length then .ok ⟨cases, labels, h⟩
  else .error (.countMismatch cases.length labels.length source)

/-- The number of cases. -/
def size (t : Table) : Nat := t.cases.length

/-- The cases with their labels. -/
def pairs (t : Table) : List (Case × Data) := t.cases.zip t.labels

/-- The table of given pairs. -/
def ofPairs (pairs : List (Case × Data)) : Table := ⟨pairs.map (·.1), pairs.map (·.2), by simp⟩

/-- The label of the first case that equals the given one. -/
def labelFor (t : Table) (c : Case) : Except Error Data :=
  match t.pairs.find? fun p => p.1.same c with
  | some p => .ok p.2
  | none => .error (.unknownCase c)

/-- The first case that carries the given label. -/
def caseFor (t : Table) (label : Data) : Except Error Case :=
  match t.pairs.find? fun p => p.2.same label with
  | some p => .ok p.1
  | none => .error (.unknownLabel label)

/-- Tables are the same when their cases and labels are, position by position. -/
def same (s t : Table) : Bool :=
  s.size == t.size && (s.cases.zip t.cases).all (fun p => p.1.alike p.2) &&
    (s.labels.zip t.labels).all fun p => p.1.alike p.2

end Table

namespace Case

/-- The label a case gives itself. -/
def ownLabel (c : Case) : Except Error CodeString :=
  match c.ownLabel? with
  | some label => .ok label
  | none => .error (.noOwnLabel c.typeName)

end Case

namespace Table

/-- The table of cases that a function labels. -/
def label (labelOf : Case → Except Error CodeString) (cases : List Case) : Except Error Table := do
  make cases ((← cases.mapM labelOf).map Data.str) none

/-- The table of cases that label themselves. -/
def ofCases (cases : List Case) : Except Error Table := label Case.ownLabel cases

/-- The table of cases whose labels are their texts behind a fixed text. -/
def ofTexts (first : String) (cases : List Case) : Except Error Table :=
  label (fun c => .ok (CodeString.chars first ++ c.text)) cases

end Table

end EnumLabels
