import EnumLabels.Data.Moment
import EnumLabels.Text.CodeString

/-!
# Plain data

The values that settings and label tables hold, and that JSON and YAML texts denote. A mapping
is a list of entries in the order in which their keys were first seen.

Values are compared by `Data.same`: numbers by their exact value, the two truth values counting
as one and zero, lists item by item, and mappings as sets of entries. What is no number is the
same as nothing. Within collections and as keys values are compared by `Data.alike`, which lets
two values that are no numbers count as one if they were read from the same format.
-/

namespace EnumLabels

/-- The formats that data is read from. -/
inductive Format where
  | json
  | yaml
  deriving DecidableEq, Repr

/-- A plain value. -/
inductive Data where
  | null
  | bool (b : Bool)
  | int (n : Int)
  /-- A number or an infinity. -/
  | float (x : Float)
  /-- The float that is no number, with the format it was read from. -/
  | nan (source : Format)
  | str (s : CodeString)
  | list (items : List Data)
  /-- A mapping, whose keys are pairwise different. -/
  | dict (entries : List (Data × Data))
  /-- An object with named attributes. The names are strings. -/
  | object (attributes : List (Data × Data))
  | moment (m : Moment)
  deriving Inhabited

namespace Data

/-- The integer a value counts as, if it is an integer or a truth value. -/
def toInt? : Data → Option Int
  | bool b => some (if b then 1 else 0)
  | int n => some n
  | _ => none

/-- Equality of values that have no parts. -/
def sameScalar (a b : Data) : Bool :=
  match a.toInt?, b.toInt? with
  | some m, some n => m == n
  | some m, none =>
    match b with
    | float y => (Decimal.Binary.ofFloat y).equalsInt m
    | _ => false
  | none, some n =>
    match a with
    | float x => (Decimal.Binary.ofFloat x).equalsInt n
    | _ => false
  | none, none =>
    match a, b with
    | null, null => true
    | float x, float y => x == y
    | str s, str t => s == t
    | moment m, moment n => m.same n
    | _, _ => false

/-- Whether two values are no numbers and were read from the same format. -/
def bothNan : Data → Data → Bool
  | nan f, nan g => f == g
  | _, _ => false

mutual

/-- Equality of values. -/
def same : Data → Data → Bool
  | list xs, list ys => sameItems xs ys
  | dict es, dict fs => es.length == fs.length && sameEntries es fs
  | object es, object fs => es.length == fs.length && sameEntries es fs
  | a, b => sameScalar a b
termination_by structural a => a

/-- Equality of the items of two lists, position by position. -/
def sameItems : List Data → List Data → Bool
  | [], [] => true
  | x :: xs, y :: ys => (bothNan x y || x.same y) && sameItems xs ys
  | _, _ => false
termination_by structural xs => xs

/-- Whether every entry of the first list is found in the second. -/
def sameEntries : List (Data × Data) → List (Data × Data) → Bool
  | [], _ => true
  | e :: es, fs => isEntryOf e fs && sameEntries es fs
termination_by structural es => es

/-- Whether a list has an entry with the same key, and its first such entry has the same value. -/
def isEntryOf : Data × Data → List (Data × Data) → Bool
  | (k, v), fs =>
    match fs.find? fun f => bothNan k f.1 || k.same f.1 with
    | some f => bothNan v f.2 || v.same f.2
    | none => false
termination_by structural e => e

end

/-- Whether two values count as one within a collection. -/
def alike (a b : Data) : Bool := bothNan a b || a.same b

/-- The value stored under a key of a mapping. -/
def lookup? (key : Data) (entries : List (Data × Data)) : Option Data :=
  (entries.find? fun e => key.alike e.1).map (·.2)

/-- The value stored under a string key of a mapping. -/
def field? (key : String) (entries : List (Data × Data)) : Option Data := lookup? (str key) entries

/-- Store a value under a key. A key already present keeps its place and its spelling. -/
def store (key value : Data) : List (Data × Data) → List (Data × Data)
  | [] => [(key, value)]
  | e :: es => if key.alike e.1 then (e.1, value) :: es else e :: store key value es

/-- The entries that result from storing pairs one after the other. -/
def ofPairs (pairs : List (Data × Data)) : List (Data × Data) :=
  pairs.foldl (fun entries p => store p.1 p.2 entries) []

/-- Whether a value counts as true: it is not null, false, zero or empty. -/
def isTrue : Data → Bool
  | null => false
  | bool b => b
  | int n => n != 0
  | float x => x != 0.0
  | nan _ => true
  | str s => !s.isEmpty
  | list items => !items.isEmpty
  | dict entries => !entries.isEmpty
  | object _ => true
  | moment _ => true

/-- The number of characters of a string, of items of a list or of entries of a mapping. -/
def length? : Data → Option Nat
  | str s => some s.length
  | list items => some items.length
  | dict entries => some entries.length
  | _ => none

/-- The name that messages use for the type of a value. -/
def typeName : Data → String
  | null => "NoneType"
  | bool _ => "bool"
  | int _ => "int"
  | float _ => "float"
  | nan _ => "float"
  | str _ => "str"
  | list _ => "list"
  | dict _ => "dict"
  | object _ => "SimpleNamespace"
  | moment m => if m.clock.isSome then "datetime" else "date"

/-- Text by which messages separate the shown parts of a value. -/
def separated : List String → String
  | [] => ""
  | [part] => part
  | part :: parts => part ++ ", " ++ separated parts

/-- The layout of floats in messages. -/
def shownFloat : Decimal.Layout where
  positionalFrom := -4
  positionalBelow := 16
  pointBeforeExponent := false
  notANumber := "nan"
  infinity := "inf"
  negativeInfinity := "-inf"

mutual

/-- A value as messages show it, strings between quotes. -/
def shown : Data → String
  | null => "None"
  | bool b => if b then "True" else "False"
  | int n => toString n
  | float x => String.ofList (shownFloat.ofFloat x)
  | nan _ => shownFloat.notANumber
  | str s => s.quote
  | list items => "[" ++ separated (shownItems items) ++ "]"
  | dict entries => "\x7b" ++ separated (shownEntries entries) ++ "\x7d"
  | object attributes => "namespace(" ++ separated (shownAttributes attributes) ++ ")"
  | moment m => m.shown
termination_by structural d => d

/-- The items of a list as messages show them. -/
def shownItems : List Data → List String
  | [] => []
  | x :: xs => x.shown :: shownItems xs
termination_by structural xs => xs

/-- The entries of a mapping as messages show them. -/
def shownEntries : List (Data × Data) → List String
  | [] => []
  | e :: es => shownEntry e :: shownEntries es
termination_by structural es => es

/-- One entry of a mapping as messages show it. -/
def shownEntry : Data × Data → String
  | (k, v) => k.shown ++ ": " ++ v.shown
termination_by structural e => e

/-- The attributes of an object as messages show them. -/
def shownAttributes : List (Data × Data) → List String
  | [] => []
  | e :: es => shownAttribute e ++ shownAttributes es
termination_by structural es => es

/-- One attribute of an object as messages show it. An attribute without a name is left out. -/
def shownAttribute : Data × Data → List String
  | (k, v) =>
    match k with
    | str name => if name.isEmpty then [] else [name.toString ++ "=" ++ v.shown]
    | _ => []
termination_by structural e => e

end

/-- A value as text: a string is its own text, any other value is shown as in messages. -/
def text : Data → CodeString
  | str s => s
  | moment m => m.text
  | d => d.shown

end Data

end EnumLabels
