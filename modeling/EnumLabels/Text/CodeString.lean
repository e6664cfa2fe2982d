import EnumLabels.Text.Quoted

/-!
# Texts of code points

The escapes of JSON and YAML can denote a surrogate on its own, which is a code point but no
character. A text with such a code point is therefore no string. `CodeString` holds texts of
both kinds. It is a string whenever all its code points are characters.

Texts are ordered by their code points.
-/

namespace EnumLabels

/-- A text of code points. -/
inductive CodeString where
  /-- A text of characters. -/
  | chars (s : String)
  /-- The code points of a text that has a surrogate among them. -/
  | points (ps : List Nat)
  deriving DecidableEq, Repr

namespace CodeString

instance : Coe String CodeString := ⟨chars⟩

/-- A code point that is no character. -/
def isSurrogate (n : Nat) : Bool := 0xD800 ≤ n && n < 0xE000

/-- The text of given code points. -/
def ofPoints (ps : List Nat) : CodeString :=
  if ps.any isSurrogate then points ps else chars (String.ofList (ps.map Char.ofNat))

/-- The code points of a text. -/
def toPoints : CodeString → List Nat
  | chars s => s.toList.map Char.toNat
  | points ps => ps

/-- The number of code points of a text. -/
def length : CodeString → Nat
  | chars s => s.length
  | points ps => ps.length

/-- Whether a text has no code points. -/
def isEmpty : CodeString → Bool
  | chars s => s.isEmpty
  | points ps => ps.isEmpty

/-- A text followed by another one. -/
protected def append : CodeString → CodeString → CodeString
  | chars s, chars t => chars (s ++ t)
  | s, t => ofPoints (s.toPoints ++ t.toPoints)

instance : Append CodeString := ⟨CodeString.append⟩

/-- Whether a text does not come after another one. -/
def le : CodeString → CodeString → Bool
  | chars s, chars t => decide (s ≤ t)
  | s, t => !t.toPoints.lex s.toPoints Nat.blt

/-- Texts in order. -/
def sort (texts : List CodeString) : List CodeString := texts.mergeSort le

/-- Texts separated by a comma and a blank. -/
def joined : List CodeString → CodeString
  | [] => ""
  | [s] => s
  | s :: rest => s ++ (", " : String) ++ joined rest

/-- The texts of one code point each that make up a text. -/
def singles : CodeString → List CodeString
  | chars s => s.toList.map fun c => chars (String.singleton c)
  | points ps => ps.map fun n => ofPoints [n]

/-- One code point between quotes. -/
def quotedPoint (quote : Char) (n : Nat) : List Char :=
  if isSurrogate n then '\\' :: 'u' :: Text.hexDigits .lower 4 n
  else Text.quotedChar quote (Char.ofNat n)

/-- A text as messages show it, between quotes. Surrogates are escaped, so the result is a
string. -/
def quote : CodeString → String
  | chars s => EnumLabels.quote s
  | points ps =>
    let quote := Text.quoteFor (ps.map Char.ofNat)
    String.ofList (quote :: (ps.flatMap (quotedPoint quote) ++ [quote]))

/-- The string of a text, in which the replacement character stands for surrogates. -/
def toString : CodeString → String
  | chars s => s
  | points ps => String.ofList (ps.map fun n => if isSurrogate n then '\ufffd' else Char.ofNat n)

end CodeString

end EnumLabels
