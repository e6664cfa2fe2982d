import EnumLabels.Samples
import EnumLabels.Table.Source
import EnumLabels.Table.Stored

/-!
# The demonstration

Every sample is written to a folder and scanned from its call, and the report and the labels are
presented. The label table of the first sample follows as YAML.
-/

namespace EnumLabels

namespace Demo

/-- A line of 70 equal characters. -/
def rule (c : Char) : String := String.ofList (List.replicate 70 c)

/-- The lines that present a sample, and the directory after writing it. -/
def presentSample (d : Directory) (folder : String) (sample : Sample) :
    Except Error (Directory × List String) := do
  let written ← writeSample d folder sample.name
  let d := written.directory
  let skip := some written.skipsClosures
  let report ← inspectFile d Options.default written.path written.line skip none
  let found ← scanFile d Options.default ⟨written.path, written.line, 0⟩ skip false
  let labels := "[" ++ Data.separated (found.labels.map quote) ++ "]"
  let heading := ["", sample.name ++ ":", rule '-']
  return (d, heading ++ report.present ++ ["  extract_labels:  " ++ labels])

/-- The lines that present samples one after the other. -/
def presentSamples (d : Directory) (folder : String) :
    List Sample → Except Error (Directory × List String)
  | [] => .ok (d, [])
  | sample :: samples => do
    let (d, first) ← presentSample d folder sample
    let (d, rest) ← presentSamples d folder samples
    return (d, first ++ rest)

/-- The label of a case as text. -/
def labelText (t : Table) (c : Case) : Except Error String := do
  return (← t.labelFor c).text.toString

/-- The lines that present the label table of the first sample. -/
def presentTable (d : Directory) (folder : String) : Except Error (List String) := do
  let written ← writeSample d folder rawValueType.name
  let position : Position := ⟨written.path, written.line, 0⟩
  let table ← Table.ofSteps written.directory Options.default rawValueSteps position none
  let yaml ← table.toYaml
  let last ← (rawValueType.members.drop 1).mapM fun m => do
    return "Label of " ++ m.text ++ ": " ++ (← labelText table (.member m))
  return ["", "RawValueEnum label table (YAML):", rule '-', yaml] ++ last

/-- The text of the demonstration, with the samples in the given folder. -/
def text (folder : String) : Except Error String := do
  let d := Directory.empty.put folder .folder
  let (d, samples) ← presentSamples d folder Sample.all
  let table ← presentTable d folder
  return Sample.textOf ([rule '=', "CASE LABEL SCAN DEMO", rule '='] ++ samples ++ table)

end Demo

end EnumLabels
