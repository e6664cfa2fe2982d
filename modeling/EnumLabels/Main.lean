import EnumLabels.Demo

/-!
# The command

The command takes no arguments. It prints the demonstration.
-/

/-- Print the demonstration. -/
def main : IO Unit :=
  match EnumLabels.Demo.text "samples" with
  | .ok text => IO.print text
  | .error e => IO.eprintln e.words
