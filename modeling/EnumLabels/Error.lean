import EnumLabels.Case
import EnumLabels.Data.Fault
import EnumLabels.Text.Utf8

/-!
# What can go wrong

Each way in which an operation can fail is a cause of its own, and `Error.message` words it.
Causes that concern the form of a value, such as a setting that is no text, or a JSON or YAML
text that breaks its grammar, have no words of their own.

Some messages repeat a text of the user, which need not be a string, so a message is a text of
code points.
-/

namespace EnumLabels

/-- Why a file cannot be used. -/
inductive FileFault where
  | notFound
  | isDirectory
  | notDirectory
  | nameTooLong
  | notUtf8 (fault : Text.Utf8.Fault)
  deriving DecidableEq, Repr

/-- The words for a file fault. -/
def FileFault.reason : FileFault → String
  | notFound => "file not found"
  | isDirectory => "Is a directory"
  | notDirectory => "Not a directory"
  | nameTooLong => "File name too long"
  | notUtf8 fault => "invalid UTF-8 (" ++ fault.reason.message ++ ")"

/-- A cause of failure. -/
inductive Error where
  /-- A call site has a negative line. -/
  | negativeLine (line : Int)
  /-- A call site has a negative column. -/
  | negativeColumn (column : Int)
  /-- A line number points at no line. -/
  | noSuchLine
  /-- A case line has no word after the keyword. -/
  | unnamedCase (line : Int) (text : String)
  /-- A source file cannot be read. -/
  | unreadable (path : String) (reason : String)
  /-- A path holds the character zero. -/
  | nulInPath
  /-- A settings file cannot be opened. -/
  | cannotOpen (path : String) (fault : FileFault)
  /-- A settings file is not UTF-8. -/
  | undecodable (fault : Text.Utf8.Fault)
  /-- A block ends more than one line before it starts. -/
  | negativeLength
  /-- A block has more lines than can be counted. -/
  | lengthTooLarge
  /-- The keyword setting is empty. -/
  | emptyKeyword
  /-- The comment marker setting is empty. -/
  | emptyCommentMarker
  /-- A brace setting does not have length one. -/
  | braceNotSingle
  /-- The two brace settings are equal. -/
  | equalBraces
  /-- Settings are given that do not exist. -/
  | unknownSettings (names : List CodeString)
  /-- A value has the wrong type for its use. -/
  | wrongType
  /-- A value is used as a mapping but is none. -/
  | notMapping
  /-- A table has `labels` labels for `cases` cases. -/
  | countMismatch (cases labels : Int) (source : Option String)
  /-- A case cannot give itself a label. -/
  | noOwnLabel (typeName : String)
  /-- A table holds no such case. -/
  | unknownCase (c : Case)
  /-- A table holds no such label. -/
  | unknownLabel (label : Data)
  /-- A stored entry lacks a field. -/
  | missingField (name : String)
  /-- A value is that of no member of the type. -/
  | notMember (value : Data) (typeName : String)
  /-- The stored count differs from the number of entries. -/
  | storedCount (stored : Data) (entries : Nat)
  /-- A table cannot be changed. -/
  | frozen
  /-- There is no sample declaration of that name. -/
  | unknownSample (name : String)
  /-- No line holds the marker. -/
  | markerNotFound (marker : String)
  /-- A text is not JSON. -/
  | malformedJson
  /-- A text is not YAML, or data has no YAML form. -/
  | malformedYaml
  /-- A part of a text denotes no value. -/
  | noValue (fault : ValueFault)
  deriving Inhabited

namespace Error

/-- The cause that a YAML text denotes no data. -/
def ofReadFault : ReadFault → Error
  | .malformed => malformedYaml
  | .value fault => noValue fault

/-- The words for opening a file in vain. -/
def openingMessage (path : String) (fault : FileFault) : String :=
  let number :=
    match fault with
    | .notFound => "2"
    | .isDirectory => "21"
    | .notDirectory => "20"
    | .nameTooLong => "36"
    | .notUtf8 _ => "0"
  let words :=
    match fault with
    | .notFound => "No such file or directory"
    | other => other.reason
  "[Errno " ++ number ++ "] " ++ words ++ ": " ++ quote path

/-- The words for a cause as a string, in which the replacement character stands for surrogates. -/
def words : Error → String
  | negativeLine line => "line must be non-negative, got " ++ toString line
  | negativeColumn column => "column must be non-negative, got " ++ toString column
  | noSuchLine => "list index out of range"
  | unnamedCase line text =>
    "Line " ++ toString line ++ ": expected an identifier after the keyword in " ++ quote text
  | unreadable path reason => "Cannot read source file " ++ path ++ ": " ++ reason
  | nulInPath => "embedded null byte"
  | cannotOpen path fault => openingMessage path fault
  | undecodable fault => fault.message
  | negativeLength => "__len__() should return >= 0"
  | lengthTooLarge => "the length is too large"
  | emptyKeyword => "keyword must not be empty"
  | emptyCommentMarker => "comment_marker must not be empty"
  | braceNotSingle => "open_brace and close_brace must be single characters"
  | equalBraces => "open_brace and close_brace must differ"
  | unknownSettings names => "Unknown scan option(s): " ++ (CodeString.joined names).toString
  | wrongType => "wrong type"
  | notMapping => "not a mapping"
  | countMismatch cases labels source =>
    "Found " ++ toString labels ++ " label(s) for " ++ toString cases ++ " case(s)" ++
      (match source with
      | none => ""
      | some place => if place.isEmpty then "" else " in " ++ place)
  | noOwnLabel typeName =>
    typeName ++ " has no 'label' attribute and is not an Enum member"
  | unknownCase c => "Unknown case: " ++ c.shown
  | unknownLabel label => "Unknown label: " ++ label.shown
  | missingField name => name
  | notMember value typeName => value.shown ++ " is not a valid " ++ typeName
  | storedCount stored entries =>
    "Stored count " ++ stored.text.toString ++ " does not match " ++ toString entries ++ " entries"
  | frozen => "the table is frozen"
  | unknownSample name => name
  | markerNotFound marker => "Marker not found: " ++ quote marker
  | malformedJson => "malformed JSON"
  | malformedYaml => "malformed YAML"
  | noValue fault => fault.message

/-- The words for a cause. -/
def message : Error → CodeString
  | unknownSettings names =>
    CodeString.chars "Unknown scan option(s): " ++ CodeString.joined names
  | storedCount stored entries =>
    CodeString.chars "Stored count " ++ stored.text ++
      CodeString.chars (" does not match " ++ toString entries ++ " entries")
  | e => e.words

/-- Whether the cause lies in scanning: an unreadable source file or an unnamed case. -/
def isScanError : Error → Bool
  | unnamedCase .. => true
  | unreadable .. => true
  | _ => false

end Error

end EnumLabels
