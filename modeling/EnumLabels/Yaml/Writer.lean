import EnumLabels.Data.Order
import EnumLabels.Yaml.Scalar

/-!
# Writing YAML

Data is written in block style with an indentation of two. A list in a mapping is not indented
further than its key, and a list or a mapping in a list starts on the line of its dash. Empty
lists and mappings are written as brackets.

A key that is not a short scalar on one line is written behind a question mark. Objects have no
YAML form.
-/

namespace EnumLabels.Yaml

/-- Whether the entries of mappings are sorted by key. -/
inductive KeyOrder where
  | sorted
  | asStored
  deriving DecidableEq, Repr

/-- What belongs to keys, in the order of writing. Keys that have no order stay as they are. -/
def KeyOrder.arrange {α : Type} (order : KeyOrder) (entries : List (Data × α)) :
    List (Data × α) :=
  match order with
  | .sorted => (Data.sortByKey? entries).getD entries
  | .asStored => entries

/-- Texts on lines of their own at an indentation. -/
def onLines (indent : Nat) : List (List Char) → List Char
  | [] => []
  | [part] => part
  | part :: parts => part ++ newline indent ++ onLines indent parts

mutual

/-- The text of a value behind its key and a colon, which ends at the given column. -/
def writeValue? (order : KeyOrder) (indent column : Nat) : Data → Option (List Char)
  | .list [] => some " []".toList
  | .dict [] => some [' ', '\x7b', '\x7d']
  | .list items =>
    (writeItems? order indent items).map fun parts => newline indent ++ onLines indent parts
  | .dict entries =>
    (writeEntries? order (indent + 2) entries).map fun parts =>
      newline (indent + 2) ++ onLines (indent + 2) ((order.arrange parts).map (·.2))
  | d => (Scalar.ofData? d).map fun s => ' ' :: s.write true (indent + 2) (column + 1)
termination_by structural d => d

/-- The text of a value behind a dash, or behind the colon after a key with a question mark. -/
def writeNested? (order : KeyOrder) (indent : Nat) : Data → Option (List Char)
  | .list [] => some " []".toList
  | .dict [] => some [' ', '\x7b', '\x7d']
  | .list items =>
    (writeItems? order (indent + 2) items).map fun parts => ' ' :: onLines (indent + 2) parts
  | .dict entries =>
    (writeEntries? order (indent + 2) entries).map fun parts =>
      ' ' :: onLines (indent + 2) ((order.arrange parts).map (·.2))
  | d => (Scalar.ofData? d).map fun s => ' ' :: s.write true (indent + 2) (indent + 2)
termination_by structural d => d

/-- The texts of the items of a list, each with its dash. -/
def writeItems? (order : KeyOrder) (indent : Nat) : List Data → Option (List (List Char))
  | [] => some []
  | x :: xs => do
    some (('-' :: (← writeNested? order indent x)) :: (← writeItems? order indent xs))
termination_by structural xs => xs

/-- The texts of the entries of a mapping, each beside its key. -/
def writeEntries? (order : KeyOrder) (indent : Nat) :
    List (Data × Data) → Option (List (Data × List Char))
  | [] => some []
  | e :: es => do some ((← writeEntry? order indent e) :: (← writeEntries? order indent es))
termination_by structural es => es

/-- The text of an entry, beside its key. -/
def writeEntry? (order : KeyOrder) (indent : Nat) : Data × Data → Option (Data × List Char)
  | (k, v) => do
    let key ← Scalar.ofData? k
    if key.isSimpleKey then
      let text := key.write false (indent + 2) indent
      some (k, text ++ ':' :: (← writeValue? order indent (indent + text.length + 1) v))
    else
      let text := key.write true (indent + 2) (indent + 2)
      some (k, '?' :: ' ' :: text ++ newline indent ++ ':' :: (← writeNested? order indent v))
termination_by structural e => e

end

/-- The YAML text of data. A plain scalar on its own is followed by the end mark. -/
def write? (order : KeyOrder) : Data → Option (List Char)
  | .list [] => some "[]\n".toList
  | .dict [] => some ['\x7b', '\x7d', '\n']
  | .list items => (writeItems? order 0 items).map fun parts => onLines 0 parts ++ ['\n']
  | .dict entries =>
    (writeEntries? order 0 entries).map fun parts =>
      onLines 0 ((order.arrange parts).map (·.2)) ++ ['\n']
  | d =>
    (Scalar.ofData? d).map fun s =>
      s.write true 2 0 ++ (if s.style = .plain then "\n...\n".toList else ['\n'])

/-- The YAML text of data as a string. -/
def text? (order : KeyOrder) (d : Data) : Option String := (write? order d).map String.ofList

end EnumLabels.Yaml
