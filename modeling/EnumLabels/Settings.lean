import EnumLabels.Scan.Closure
import EnumLabels.Error

/-!
# Settings as plain data

The five settings of a scan, as they are stored and loaded. Values are kept as they are given.
They are checked in a fixed order: the keyword and the comment marker must not be empty, the
two braces must have length one and must differ. `Settings.ofData` overlays the given settings
on the defaults and refuses names that it does not know.

The checks do not ask for texts. `Settings.ofOptions` states the options of a scan, all of which
are of the right type.
-/

namespace EnumLabels

/-- The settings of a scan as plain data. -/
structure Settings where
  keyword : Data := .str "case"
  commentMarker : Data := .str "//"
  skipClosures : Data := .bool true
  openBrace : Data := .str "\x7b"
  closeBrace : Data := .str "\x7d"

namespace Settings

/-- The names of the settings. -/
def names : List String :=
  ["keyword", "comment_marker", "skip_closures", "open_brace", "close_brace"]

/-- Whether a value has length one. Values without a length have the wrong type. -/
def isSingle (d : Data) : Except Error Bool :=
  match d.length? with
  | some n => .ok (n == 1)
  | none => .error .wrongType

/-- The settings, if they pass the checks. -/
def check (s : Settings) : Except Error Settings := do
  if !s.keyword.isTrue then throw .emptyKeyword
  if !s.commentMarker.isTrue then throw .emptyCommentMarker
  if !(← isSingle s.openBrace) then throw .braceNotSingle
  if !(← isSingle s.closeBrace) then throw .braceNotSingle
  if s.openBrace.same s.closeBrace then throw .equalBraces
  return s

/-- Settings overlaid with the entries of a mapping that have their names. -/
def overlay (s : Settings) (entries : List (Data × Data)) : Settings where
  keyword := (Data.field? "keyword" entries).getD s.keyword
  commentMarker := (Data.field? "comment_marker" entries).getD s.commentMarker
  skipClosures := (Data.field? "skip_closures" entries).getD s.skipClosures
  openBrace := (Data.field? "open_brace" entries).getD s.openBrace
  closeBrace := (Data.field? "close_brace" entries).getD s.closeBrace

/-- Whether a key names a setting. -/
def isName : Data → Bool
  | .str (.chars s) => names.contains s
  | _ => false

/-- The keys of a mapping that name no setting. They must be strings. -/
def unknownNames (entries : List (Data × Data)) : Except Error (List CodeString) :=
  ((entries.map (·.1)).filter fun k => !isName k).mapM fun k =>
    match k with
    | .str s => .ok s
    | _ => .error .wrongType

/-- The settings given by a mapping, the defaults if it is empty or another value that counts as
false. -/
def ofData (d : Data) : Except Error Settings :=
  if !d.isTrue then .ok {}
  else
    match d with
    | .dict entries => do
      let unknown ← unknownNames entries
      if !unknown.isEmpty then throw (.unknownSettings (CodeString.sort unknown))
      check (overlay {} entries)
    | _ => .error .notMapping

/-- The settings as a mapping. -/
def toData (s : Settings) : Data :=
  .dict
    [ (.str "keyword", s.keyword),
      (.str "comment_marker", s.commentMarker),
      (.str "skip_closures", s.skipClosures),
      (.str "open_brace", s.openBrace),
      (.str "close_brace", s.closeBrace) ]

/-- Settings are the same when their values are, one by one. -/
def same (s t : Settings) : Bool :=
  s.keyword.alike t.keyword && s.commentMarker.alike t.commentMarker &&
    s.skipClosures.alike t.skipClosures && s.openBrace.alike t.openBrace &&
    s.closeBrace.alike t.closeBrace

/-- The settings that state the options of a scan. -/
def ofOptions (o : Options) : Settings where
  keyword := .str (String.ofList o.keyword)
  commentMarker := .str (String.ofList o.commentMarker)
  skipClosures := .bool o.skipsClosures
  openBrace := .str (String.singleton o.openBrace)
  closeBrace := .str (String.singleton o.closeBrace)

instance : Coe Options Settings := ⟨ofOptions⟩

/-- The characters of a setting that is a text. -/
def characters : Data → Except Error (List Char)
  | .str (.chars s) => .ok s.toList
  | _ => .error .wrongType

/-- The keyword and the comment marker of a scan with these settings, which must be texts. -/
def markers (s : Settings) : Except Error Markers := do
  let keyword ← characters s.keyword
  let commentMarker ← characters s.commentMarker
  if hk : keyword = [] then throw .emptyKeyword
  else if hm : commentMarker = [] then throw .emptyCommentMarker
  else return ⟨keyword, commentMarker, hk, hm⟩

/-- The character that a setting is, if it is one. -/
def character? (d : Data) : Option Char :=
  match characters d with
  | .ok [c] => some c
  | _ => none

/-- The braces of a scan with these settings. A setting that is no character is a brace that
stands nowhere. -/
def braces (s : Settings) : Braces := ⟨character? s.openBrace, character? s.closeBrace⟩

end Settings

end EnumLabels
