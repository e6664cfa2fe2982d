import EnumLabels.Data.Basic
import EnumLabels.Data.Runs

/-!
# The order of keys

Strings are ordered by their code points and numbers by their values. Keys of other kinds, or of
both kinds in one mapping, have no order.

What is no number is neither below nor above any number, so it has no place of its own among
them. Numbers are therefore sorted by their runs. Without a value that is no number the result is
simply in order.
-/

namespace EnumLabels.Data

/-- Whether a number is below another one. It holds of no other values. -/
def numberBelow (a b : Data) : Bool :=
  match a.toInt?, b.toInt? with
  | some m, some n => m < n
  | some m, none =>
    match b with
    | float y =>
      let exact := Decimal.Binary.ofFloat y
      exact != .nan && !exact.equalsInt m && !exact.belowInt m
    | _ => false
  | none, some n =>
    match a with
    | float x => (Decimal.Binary.ofFloat x).belowInt n
    | _ => false
  | none, none =>
    match a, b with
    | float x, float y => x < y
    | _, _ => false

/-- Whether a value is a string. -/
def isString : Data → Bool
  | str _ => true
  | _ => false

/-- Whether a value is a truth value or a float or an integer, or counts as one. -/
def isNumber : Data → Bool
  | bool _ => true
  | int _ => true
  | float _ => true
  | nan _ => true
  | _ => false

/-- Whether a string does not come after another one. It holds of all other values. -/
def stringLe (a b : Data) : Bool :=
  match a, b with
  | str s, str t => s.le t
  | _, _ => true

/-- Sort what belongs to keys by its key, if the keys have an order. -/
def sortByKey? {α : Type} (entries : List (Data × α)) : Option (List (Data × α)) :=
  if entries.all fun e => isString e.1 then some (entries.mergeSort fun a b => stringLe a.1 b.1)
  else if entries.all fun e => isNumber e.1 then
    some (Runs.sort (fun a b => numberBelow a.1 b.1) entries)
  else if entries.length ≤ 1 then some entries
  else none

end EnumLabels.Data
