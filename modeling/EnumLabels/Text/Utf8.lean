import EnumLabels.Text.Hex

/-!
# Reading UTF-8

`decode` reads a whole file and reports the first fault. A fault names the offset of the first
byte that belongs to no character, how many bytes it covers and why: the byte starts no
character, a later byte does not continue the character, or the data ends inside it.

Overlong forms, surrogates and values above U+10FFFF are faults at the second byte of the form.
-/

namespace EnumLabels.Text.Utf8

/-- Why bytes are not a character. -/
inductive Reason where
  | invalidStart
  | invalidContinuation
  | unexpectedEnd
  deriving DecidableEq, Repr

/-- The words that reports use for a reason. -/
def Reason.message : Reason → String
  | .invalidStart => "invalid start byte"
  | .invalidContinuation => "invalid continuation byte"
  | .unexpectedEnd => "unexpected end of data"

/-- The first place where bytes are not UTF-8. -/
structure Fault where
  /-- Offset of the first byte that is not part of a character. -/
  offset : Nat
  /-- Number of bytes concerned, at least one. -/
  length : Nat
  /-- The byte at the offset. -/
  byte : UInt8
  reason : Reason
  deriving DecidableEq, Repr

/-- The words that reports use for a fault. -/
def Fault.message (f : Fault) : String :=
  let place :=
    if f.length = 1 then
      "byte 0x" ++ String.ofList (hexDigits .lower 2 f.byte.toNat) ++ " in position " ++
        toString f.offset
    else
      "bytes in position " ++ toString f.offset ++ "-" ++ toString (f.offset + f.length - 1)
  "'utf-8' codec can't decode " ++ place ++ ": " ++ f.reason.message

/-- A byte of the form `10xxxxxx`. -/
def isContinuation (b : UInt8) : Bool := 0x80 ≤ b && b ≤ 0xBF

/-- The second bytes of a three-byte form that is neither overlong nor a surrogate. -/
def isSecondOfThree (first second : UInt8) : Bool :=
  (if first = 0xE0 then 0xA0 else 0x80) ≤ second && second ≤ (if first = 0xED then 0x9F else 0xBF)

/-- The second bytes of a four-byte form that is neither overlong nor above U+10FFFF. -/
def isSecondOfFour (first second : UInt8) : Bool :=
  (if first = 0xF0 then 0x90 else 0x80) ≤ second && second ≤ (if first = 0xF4 then 0x8F else 0xBF)

/-- The six payload bits of a continuation byte. -/
def payload (b : UInt8) : Nat := b.toNat % 64

/-- Decode the bytes that start at an offset, behind the characters already decoded. -/
def decodeFrom (offset : Nat) : List UInt8 → Except Fault (List Char)
  | [] => .ok []
  | a :: rest =>
    if a < 0x80 then (Char.ofNat a.toNat :: ·) <$> decodeFrom (offset + 1) rest
    else if a < 0xC2 ∨ 0xF4 < a then .error ⟨offset, 1, a, .invalidStart⟩
    else
      match rest with
      | [] => .error ⟨offset, 1, a, .unexpectedEnd⟩
      | b :: rest =>
        if a < 0xE0 then
          if isContinuation b then
            (Char.ofNat (a.toNat % 32 * 64 + payload b) :: ·) <$> decodeFrom (offset + 2) rest
          else .error ⟨offset, 1, a, .invalidContinuation⟩
        else if a < 0xF0 then
          if isSecondOfThree a b then
            match rest with
            | [] => .error ⟨offset, 2, a, .unexpectedEnd⟩
            | c :: rest =>
              if isContinuation c then
                (Char.ofNat (a.toNat % 16 * 4096 + payload b * 64 + payload c) :: ·) <$>
                  decodeFrom (offset + 3) rest
              else .error ⟨offset, 2, a, .invalidContinuation⟩
          else .error ⟨offset, 1, a, .invalidContinuation⟩
        else if isSecondOfFour a b then
          match rest with
          | [] => .error ⟨offset, 2, a, .unexpectedEnd⟩
          | c :: rest =>
            if isContinuation c then
              match rest with
              | [] => .error ⟨offset, 3, a, .unexpectedEnd⟩
              | d :: rest =>
                if isContinuation d then
                  (Char.ofNat (a.toNat % 8 * 262144 + payload b * 4096 + payload c * 64 + payload d)
                    :: ·) <$> decodeFrom (offset + 4) rest
                else .error ⟨offset, 3, a, .invalidContinuation⟩
            else .error ⟨offset, 2, a, .invalidContinuation⟩
        else .error ⟨offset, 1, a, .invalidContinuation⟩

/-- The characters that bytes encode, or the first fault. -/
def decode (bytes : List UInt8) : Except Fault (List Char) := decodeFrom 0 bytes

/-- The bytes of a text. -/
def encode (text : List Char) : List UInt8 := text.flatMap String.utf8EncodeChar

end EnumLabels.Text.Utf8
