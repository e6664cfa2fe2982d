import EnumLabels.Source
import EnumLabels.Steps

/-!
# Sample declarations

Three declarations of enumerated types, each with a call near its top from which a scan starts.
The call is found by a marker, and its line is counted from one. Two of the declarations hold
the call in a closure that has to be stepped over.

The types of two declarations and the step function of the first one are given as values.
-/

namespace EnumLabels

/-- A declaration with the marker of the line from which it is scanned. -/
structure Sample where
  name : String
  source : String
  marker : String
  skipsClosures : Bool

/-- The number, counted from one, of the first line that holds a marker. -/
def markerLine (source marker : String) : Except Error Nat :=
  match (Text.lines source.toList).findIdx? (Text.contains marker.toList) with
  | some index => .ok (index + 1)
  | none => .error (.markerNotFound marker)

namespace Sample

/-- A text of lines, each of which a line feed ends. -/
def textOf (lines : List String) : String :=
  lines.foldr (fun line rest => line ++ "\n" ++ rest) ""

/-- A declaration with raw values, whose closure walks the cases. -/
def rawValueEnum : Sample where
  name := "RawValueEnum"
  marker := "EnhancedGenerator \x7b"
  skipsClosures := true
  source :=
    textOf [
      "enum RawValueEnum : Int, EnumeratesCasesAndLabels \x7b",
      "    // Swift's type inference gets a bit tripped up here.",
      "    static let enhancer:EnumEnhancer<RawValueEnum> = EnhancedGenerator \x7b",
      "        // `$0` is a RawValueEnum?",
      "        switch $0 \x7b",
      "        case .none: $0 = .zero",
      "        case .some(let theCase):",
      "            switch theCase \x7b",
      "            case .zero: $0 = .one",
      "            case .one: $0 = nil",
      "            \x7d",
      "        \x7d",
      "    \x7d",
      "    case zero = 0",
      "    case one = 1",
      "\x7d" ]

/-- A declaration whose call lists the cases. -/
def basicEnum : Sample where
  name := "BasicEnum"
  marker := "EnumEnhancer<BasicEnum>(cases:"
  skipsClosures := false
  source :=
    textOf [
      "enum BasicEnum : EnumeratesCasesAndLabels, CustomStringConvertible \x7b",
      "    static let enhancer = EnumEnhancer<BasicEnum>(cases: [.zero, .one])",
      "    case zero",
      "    case one",
      "    var description: String \x7b",
      "        switch self \x7b",
      "        case .zero: return \"zero\"",
      "        case .one: return \"one\"",
      "        \x7d",
      "    \x7d",
      "\x7d" ]

/-- A declaration with associated values, whose closure stands in a computed property. -/
def associatedValueEnum : Sample where
  name := "AssociatedValueEnum"
  marker := "EnhancedGenerator \x7b"
  skipsClosures := true
  source :=
    textOf [
      "enum AssociatedValueEnum<T: Initable> : " ++
        "EnumeratesCasesAndLabels, CustomStringConvertible \x7b",
      "    // Generic types can't have static storage, so this is computed",
      "    static var enhancer: EnumEnhancer<AssociatedValueEnum<T>> \x7b",
      "        return EnhancedGenerator \x7b",
      "            switch $0 \x7b",
      "            case .none: $0 = .one(T())",
      "            case .some(let theCase):",
      "                switch theCase \x7b",
      "                case .one: $0 = .two(T(), T())",
      "                case .two: $0 = nil",
      "                \x7d",
      "            \x7d",
      "        \x7d",
      "    \x7d",
      "",
      "    case one(T)",
      "    case two(T,T)",
      "    var description: String \x7b",
      "        switch self \x7b",
      "        case .one (let msg): return \"\\(msg)\"",
      "        case .two (let msg): return \"\\(msg)\"",
      "        \x7d",
      "    \x7d",
      "\x7d" ]

/-- The samples in order. -/
def all : List Sample := [rawValueEnum, basicEnum, associatedValueEnum]

/-- The sample of a name. -/
def named (name : String) : Except Error Sample :=
  match all.find? (·.name == name) with
  | some sample => .ok sample
  | none => .error (.unknownSample name)

/-- The line from which a sample is scanned. -/
def line (s : Sample) : Except Error Nat := markerLine s.source s.marker

end Sample

/-- A sample written to a file. -/
structure WrittenSample where
  directory : Directory
  path : String
  line : Nat
  skipsClosures : Bool

/-- Write a sample to the folder that a path leads to. -/
def writeSample (d : Directory) (folder name : String) : Except Error WrittenSample := do
  let sample ← Sample.named name
  let path := Directory.join folder (name ++ ".swift")
  if Directory.hasNul path then throw .nulInPath
  match d.write path (Text.Utf8.encode sample.source.toList) with
  | .error fault => throw (.cannotOpen path fault)
  | .ok directory => return ⟨directory, path, ← sample.line, sample.skipsClosures⟩

/-- A member of an enumerated type without labels. -/
def Member.unlabelled (typeName name : String) (value : Data) : Member :=
  ⟨typeName, name, value, none⟩

/-- The type that the first sample declares. -/
def rawValueType : EnumType where
  name := "RawValueEnum"
  members :=
    [ .unlabelled "RawValueEnum" "zero" (.int 0), .unlabelled "RawValueEnum" "one" (.int 1) ]

/-- The type that the second sample declares. Its members have labels of their own. -/
def basicType : EnumType where
  name := "BasicEnum"
  members :=
    [ ⟨"BasicEnum", "zero", .str "z", some (.str "zero")⟩,
      ⟨"BasicEnum", "one", .str "o", some (.str "one")⟩ ]

/-- The steps that walk the cases of the first sample. -/
def rawValueSteps : StepTable :=
  let members := rawValueType.members.map Case.member
  (Case.null :: members).zip members

end EnumLabels
