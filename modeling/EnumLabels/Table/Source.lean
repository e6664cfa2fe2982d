import EnumLabels.Source
import EnumLabels.Steps
import EnumLabels.Table.Basic

/-!
# Tables labelled by a scan

The labels of the cases are those that a scan of the declaring source file finds. A different
number of them is an error that names the file and the line.
-/

namespace EnumLabels.Table

/-- The table of cases labelled by a scan from a call site. -/
def ofSource (d : Directory) (s : Settings) (cases : List Case) (position : Position)
    (skip : Option Bool) : Except Error Table := do
  let found ← scanFile d s position skip false
  make cases (found.labels.map fun label => Data.str (.chars label))
    (some (position.path ++ ":" ++ toString position.line))

/-- The table of the cases of a step chain labelled by a scan from a call site. It is that of the
chain only if the chain ends. If it does not, there is no table: the cases are never all taken, and
the outcome given here, which is that of a chain cut off, stands for nothing. -/
def ofSteps (d : Directory) (s : Settings) (rows : StepTable) (position : Position)
    (skip : Option Bool) : Except Error Table :=
  ofSource d s rows.chain position skip

end EnumLabels.Table
