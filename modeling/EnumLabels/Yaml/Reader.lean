import EnumLabels.Yaml.Fault

/-!
# Reading YAML

A text that breaks the grammar of its format is refused before any scalar in it is understood.
Only of a text that keeps to it the values count, and then the first of them that denotes
nothing.
-/

namespace EnumLabels.Yaml

/-- The data that a YAML text denotes. Its nodes are no deeper than the text is long. -/
def read (text : List Char) : Except ReadFault Data :=
  match prepare? text with
  | none => .error .malformed
  | some prepared => do
    let node ← Node.ofTokens (tokens prepared)
    match node.toData? with
    | some data => return data
    | none => throw ((node.faultOf? (prepared.length + 1)).getD .malformed)

/-- The data that a YAML string denotes. -/
def data (s : String) : Except ReadFault Data := read s.toList

end EnumLabels.Yaml
