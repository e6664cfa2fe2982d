import EnumLabels.Case

/-!
# Step chains

A step function leads from a case to the next one, and from null to the first. Null ends the
chain and is no case of it. `walkSteps` takes at most a given number of cases and records the
arguments of every step it makes.

A step table states a step function by rows. Its values are compared strictly: a truth value, an
integer and a float are different even if they are equal as numbers.
-/

namespace EnumLabels

namespace Data

mutual

/-- Strict equality of values, in which numbers of different types differ. -/
def identical : Data → Data → Bool
  | null, null => true
  | bool a, bool b => a == b
  | int m, int n => m == n
  | float x, float y => x.toBits == y.toBits
  | nan f, nan g => f == g
  | str s, str t => s == t
  | list xs, list ys => identicalItems xs ys
  | dict es, dict fs => es.length == fs.length && identicalEntries es fs
  | object es, object fs => es.length == fs.length && identicalEntries es fs
  | moment m, moment n => m == n
  | _, _ => false
termination_by structural a => a

/-- Strict equality of the items of two lists. -/
def identicalItems : List Data → List Data → Bool
  | [], [] => true
  | x :: xs, y :: ys => x.identical y && identicalItems xs ys
  | _, _ => false
termination_by structural xs => xs

/-- Whether every entry of the first list is strictly found in the second. -/
def identicalEntries : List (Data × Data) → List (Data × Data) → Bool
  | [], _ => true
  | e :: es, fs => isIdenticalEntryOf e fs && identicalEntries es fs
termination_by structural es => es

/-- Whether an entry is strictly found in a list. -/
def isIdenticalEntryOf : Data × Data → List (Data × Data) → Bool
  | (k, v), fs =>
    match fs.find? fun f => k.identical f.1 with
    | some f => v.identical f.2
    | none => false
termination_by structural e => e

end

end Data

namespace Case

/-- Strict equality of cases. -/
def identical : Case → Case → Bool
  | member m, member n => m.same n
  | value a, value b => a.identical b
  | _, _ => false

/-- The value that stands before the first case and after the last one. -/
def null : Case := value .null

/-- Whether a case is null. -/
def isNull : Case → Bool
  | value .null => true
  | _ => false

end Case

/-- The cases taken from a chain and the arguments of the steps made. -/
structure Walk where
  cases : List Case
  calls : List Case

/-- Take at most `limit` cases of the chain that follows `previous`. -/
def walkSteps (step : Case → Case) : (limit : Nat) → (previous : Case) → Walk
  | 0, _ => ⟨[], []⟩
  | limit + 1, previous =>
    let next := step previous
    if next.isNull then ⟨[], [previous]⟩
    else
      let rest := walkSteps step limit next
      ⟨next :: rest.cases, previous :: rest.calls⟩

/-- The rows of a step function: a case, and the case after it. -/
abbrev StepTable := List (Case × Case)

namespace StepTable

/-- The case after the given one by the first row for it, null if there is no such row. -/
def next (rows : StepTable) (previous : Case) : Case :=
  match rows.find? fun row => row.1.identical previous with
  | some row => row.2
  | none => Case.null

/-- The chain that starts at null. A chain that ends uses every row at most once, so it is whole.
One that does not end is cut off behind one case more than there are rows, though taking all of its
cases would never be done. -/
def chain (rows : StepTable) : List Case := (walkSteps rows.next (rows.length + 1) Case.null).cases

end StepTable

end EnumLabels
