import EnumLabels.Text.Utf8
import Mathlib.Data.List.Basic

/-!
# UTF-8 is read as it is written

A character is written in one to four bytes of a pattern, whose payloads make up its code point.
Bytes of a pattern are read as a character exactly when their number is a code point that needs all
of them. So the bytes that can be decoded are those that encode a text, and they are decoded to it.
-/

namespace EnumLabels.Text.Utf8

/-- Bytes of a pattern, with the number that their payloads make up. It may be a number that needs
fewer bytes, or one that is no code point of a character. -/
inductive HasPattern : List UInt8 → Nat → Prop
  | one {x : Nat} : x < 0x80 → HasPattern [.ofNat x] x
  | two {x y : Nat} : x < 0x20 → y < 0x40 →
      HasPattern [.ofNat (x + 0xC0), .ofNat (y + 0x80)] (x * 0x40 + y)
  | three {x y z : Nat} : x < 0x10 → y < 0x40 → z < 0x40 →
      HasPattern [.ofNat (x + 0xE0), .ofNat (y + 0x80), .ofNat (z + 0x80)]
        (x * 0x1000 + y * 0x40 + z)
  | four {w x y z : Nat} : w < 8 → x < 0x40 → y < 0x40 → z < 0x40 →
      HasPattern
        [.ofNat (w + 0xF0), .ofNat (x + 0x80), .ofNat (y + 0x80), .ofNat (z + 0x80)]
        (w * 0x40000 + x * 0x1000 + y * 0x40 + z)

/-- The least number that needs as many bytes. -/
def leastOfLength : Nat → Nat
  | 2 => 0x80
  | 3 => 0x800
  | 4 => 0x10000
  | _ => 0

/-- Bytes of a pattern are those of a character when their number is its code point and needs all
of them. -/
structure IsForm (bytes : List UInt8) (n : Nat) : Prop where
  pattern : HasPattern bytes n
  shortest : leastOfLength bytes.length ≤ n
  valid : n.isValidChar

/-- The number of a byte. -/
theorem toNat_ofNat {n : Nat} (h : n < 0x100) : (UInt8.ofNat n).toNat = n := by
  rw [UInt8.toNat_ofNat']
  exact Nat.mod_eq_of_lt h

/-- A byte within bounds has a payload. -/
theorem exists_eq_ofNat_add {a : UInt8} (base size : Nat) (hbase : base ≤ a.toNat)
    (hsize : a.toNat < base + size) : ∃ x < size, a = .ofNat (x + base) := by
  refine ⟨a.toNat - base, by omega, ?_⟩
  rw [Nat.sub_add_cancel hbase, UInt8.ofNat_toNat]

/-- The continuation bytes are those with a payload of six bits. -/
theorem isContinuation_iff {b : UInt8} :
    isContinuation b = true ↔ ∃ y < 0x40, b = .ofNat (y + 0x80) := by
  simp only [isContinuation, Bool.and_eq_true, decide_eq_true_eq, UInt8.le_iff_toNat_le,
    UInt8.reduceToNat]
  constructor
  · intro h
    exact exists_eq_ofNat_add 0x80 0x40 h.1 (by omega)
  · rintro ⟨y, hy, rfl⟩
    rw [toNat_ofNat (by omega)]
    omega

/-- The payload of a continuation byte. -/
theorem payload_ofNat {y : Nat} (hy : y < 0x40) : payload (.ofNat (y + 0x80)) = y := by
  rw [payload, toNat_ofNat (by omega)]
  omega

/-- The second bytes of three are continuation bytes. -/
theorem isContinuation_of_isSecondOfThree {a b : UInt8} (h : isSecondOfThree a b = true) :
    isContinuation b = true := by
  simp only [isSecondOfThree, isContinuation, Bool.and_eq_true, decide_eq_true_eq,
    UInt8.le_iff_toNat_le, apply_ite UInt8.toNat, UInt8.reduceToNat] at h ⊢
  split at h <;> split at h <;> omega

/-- The second bytes of four are continuation bytes. -/
theorem isContinuation_of_isSecondOfFour {a b : UInt8} (h : isSecondOfFour a b = true) :
    isContinuation b = true := by
  simp only [isSecondOfFour, isContinuation, Bool.and_eq_true, decide_eq_true_eq,
    UInt8.le_iff_toNat_le, apply_ite UInt8.toNat, UInt8.reduceToNat] at h ⊢
  split at h <;> split at h <;> omega

section Patterns

variable {w x y z : Nat}

/-- A second byte of three continues no overlong form and no surrogate. -/
theorem isSecondOfThree_iff (hx : x < 0x10) (hy : y < 0x40) :
    isSecondOfThree (.ofNat (x + 0xE0)) (.ofNat (y + 0x80)) = true ↔
      (x = 0 → 0x20 ≤ y) ∧ (x = 0xD → y < 0x20) := by
  have hfirst := toNat_ofNat (n := x + 0xE0) (by omega)
  have hsecond := toNat_ofNat (n := y + 0x80) (by omega)
  simp only [isSecondOfThree, Bool.and_eq_true, decide_eq_true_eq, UInt8.le_iff_toNat_le,
    ← UInt8.toNat_inj, apply_ite UInt8.toNat, UInt8.reduceToNat, hfirst, hsecond]
  split <;> split <;> omega

/-- A second byte of four continues no overlong form and nothing above the last code point. -/
theorem isSecondOfFour_iff (hw : w < 8) (hx : x < 0x40) :
    isSecondOfFour (.ofNat (w + 0xF0)) (.ofNat (x + 0x80)) = true ↔
      (w = 0 → 0x10 ≤ x) ∧ (w = 4 → x < 0x10) := by
  have hfirst := toNat_ofNat (n := w + 0xF0) (by omega)
  have hsecond := toNat_ofNat (n := x + 0x80) (by omega)
  simp only [isSecondOfFour, Bool.and_eq_true, decide_eq_true_eq, UInt8.le_iff_toNat_le,
    ← UInt8.toNat_inj, apply_ite UInt8.toNat, UInt8.reduceToNat, hfirst, hsecond]
  split <;> split <;> omega

/-- Two bytes of the pattern are those of a character unless it needs one byte. -/
theorem isForm_two_iff (hx : x < 0x20) (hy : y < 0x40) :
    IsForm [.ofNat (x + 0xC0), .ofNat (y + 0x80)] (x * 0x40 + y) ↔ 2 ≤ x := by
  constructor
  · intro h
    have hshortest : 0x80 ≤ x * 0x40 + y := h.shortest
    omega
  · intro h
    refine ⟨.two hx hy, ?_, .inl ?_⟩
    · change 0x80 ≤ _
      omega
    · omega

/-- Three bytes of the pattern are those of a character when their second byte is as it must be. -/
theorem isForm_three_iff (hx : x < 0x10) (hy : y < 0x40) (hz : z < 0x40) :
    IsForm [.ofNat (x + 0xE0), .ofNat (y + 0x80), .ofNat (z + 0x80)]
        (x * 0x1000 + y * 0x40 + z) ↔
      isSecondOfThree (.ofNat (x + 0xE0)) (.ofNat (y + 0x80)) = true := by
  rw [isSecondOfThree_iff hx hy]
  constructor
  · intro h
    have hshortest : 0x800 ≤ x * 0x1000 + y * 0x40 + z := h.shortest
    rcases h.valid with hvalid | hvalid <;> omega
  · intro h
    refine ⟨.three hx hy hz, ?_, ?_⟩
    · change 0x800 ≤ _
      omega
    · change _ ∨ _ ∧ _
      omega

/-- Four bytes of the pattern are those of a character when their first byte is not too large and
their second byte is as it must be. -/
theorem isForm_four_iff (hw : w < 8) (hx : x < 0x40) (hy : y < 0x40) (hz : z < 0x40) :
    IsForm [.ofNat (w + 0xF0), .ofNat (x + 0x80), .ofNat (y + 0x80), .ofNat (z + 0x80)]
        (w * 0x40000 + x * 0x1000 + y * 0x40 + z) ↔
      w ≤ 4 ∧ isSecondOfFour (.ofNat (w + 0xF0)) (.ofNat (x + 0x80)) = true := by
  rw [isSecondOfFour_iff hw hx]
  constructor
  · intro h
    have hshortest : 0x10000 ≤ w * 0x40000 + x * 0x1000 + y * 0x40 + z := h.shortest
    rcases h.valid with hvalid | hvalid <;> omega
  · intro h
    refine ⟨.four hw hx hy hz, ?_, ?_⟩
    · change 0x10000 ≤ _
      omega
    · change _ ∨ _ ∧ _
      omega

end Patterns

/-- The character of a code point has it. -/
theorem val_ofNat {n : Nat} (h : n.isValidChar) : (Char.ofNat n).val.toNat = n := by
  rw [Char.ofNat, dif_pos h]
  rfl

/-- A character is encoded as the bytes that are its own. -/
theorem encodeChar_of_isForm {bytes : List UInt8} {n : Nat} (h : IsForm bytes n) :
    String.utf8EncodeChar (Char.ofNat n) = bytes := by
  obtain ⟨hpattern, hshortest, hvalid⟩ := h
  simp only [String.utf8EncodeChar, val_ofNat hvalid]
  cases hpattern with
  | one hx => rw [if_pos (Nat.le_of_lt_succ hx)]
  | @two x y hx hy =>
    change 0x80 ≤ _ at hshortest
    have hfirst : (x * 0x40 + y) / 64 % 32 = x := by omega
    have hsecond : (x * 0x40 + y) % 64 = y := by omega
    rw [if_neg (by omega), if_pos (by omega), hfirst, hsecond]
  | @three x y z hx hy hz =>
    change 0x800 ≤ _ at hshortest
    have hfirst : (x * 0x1000 + y * 0x40 + z) / 4096 % 16 = x := by omega
    have hsecond : (x * 0x1000 + y * 0x40 + z) / 64 % 64 = y := by omega
    have hthird : (x * 0x1000 + y * 0x40 + z) % 64 = z := by omega
    rw [if_neg (by omega), if_neg (by omega), if_pos (by omega), hfirst, hsecond, hthird]
  | @four w x y z hw hx hy hz =>
    change 0x10000 ≤ _ at hshortest
    have hfirst : (w * 0x40000 + x * 0x1000 + y * 0x40 + z) / 262144 % 8 = w := by omega
    have hsecond : (w * 0x40000 + x * 0x1000 + y * 0x40 + z) / 4096 % 64 = x := by omega
    have hthird : (w * 0x40000 + x * 0x1000 + y * 0x40 + z) / 64 % 64 = y := by omega
    have hfourth : (w * 0x40000 + x * 0x1000 + y * 0x40 + z) % 64 = z := by omega
    rw [if_neg (by omega), if_neg (by omega), if_neg (by omega), hfirst, hsecond, hthird, hfourth]

/-- The bytes of a character are those of its code point. -/
theorem isForm_encodeChar (c : Char) : IsForm (String.utf8EncodeChar c) c.val.toNat := by
  have hvalid : c.val.toNat.isValidChar := c.valid
  have hmost : c.val.toNat < 0x110000 := by
    rcases hvalid with h | ⟨-, h⟩ <;> omega
  generalize hn : c.val.toNat = n at hvalid hmost
  have hdigit (m : Nat) : m % 64 < 0x40 := Nat.mod_lt m (by decide)
  simp only [String.utf8EncodeChar, hn]
  split
  · next hone => exact ⟨.one (by omega), Nat.zero_le n, hvalid⟩
  next hone =>
  split
  · have hvalue : n / 64 % 32 * 0x40 + n % 64 = n := by omega
    have hpattern := HasPattern.two (x := n / 64 % 32) (by omega) (hdigit n)
    rw [hvalue] at hpattern
    exact ⟨hpattern, Nat.not_le.mp hone, hvalid⟩
  next htwo =>
  split
  · have hvalue : n / 4096 % 16 * 0x1000 + n / 64 % 64 * 0x40 + n % 64 = n := by omega
    have hpattern := HasPattern.three (x := n / 4096 % 16) (by omega) (hdigit (n / 64)) (hdigit n)
    rw [hvalue] at hpattern
    exact ⟨hpattern, Nat.not_le.mp htwo, hvalid⟩
  · next hthree =>
    have hvalue : n / 262144 % 8 * 0x40000 + n / 4096 % 64 * 0x1000 + n / 64 % 64 * 0x40 +
        n % 64 = n := by omega
    have hpattern := HasPattern.four (w := n / 262144 % 8) (by omega) (hdigit (n / 4096))
      (hdigit (n / 64)) (hdigit n)
    rw [hvalue] at hpattern
    exact ⟨hpattern, Nat.not_le.mp hthree, hvalid⟩

section Decoding

variable {bytes : List UInt8} {n : Nat}

/-- Bytes of a pattern are decoded as the character whose bytes they are. -/
theorem decodeFrom_of_isForm (h : IsForm bytes n) (offset : Nat) (rest : List UInt8) :
    decodeFrom offset (bytes ++ rest) =
      (Char.ofNat n :: ·) <$> decodeFrom (offset + bytes.length) rest := by
  cases h.pattern with
  | one hx =>
    have hfirst := toNat_ofNat (n := n) (by omega)
    change decodeFrom offset (.ofNat n :: rest) = _
    rw [decodeFrom.eq_def offset (.ofNat n :: rest)]
    simp only [UInt8.lt_iff_toNat_lt, UInt8.reduceToNat, hfirst, hx, if_true]
    rfl
  | @two x y hx hy =>
    have hleast := (isForm_two_iff hx hy).mp h
    have hfirst := toNat_ofNat (n := x + 0xC0) (by omega)
    have hsecond := isContinuation_iff.mpr ⟨y, hy, rfl⟩
    have hvalue : (x + 0xC0) % 32 = x := by omega
    change decodeFrom offset (.ofNat (x + 0xC0) :: .ofNat (y + 0x80) :: rest) = _
    rw [decodeFrom.eq_def offset (_ :: _)]
    simp only [UInt8.lt_iff_toNat_lt, UInt8.reduceToNat, hfirst, hsecond, payload_ofNat hy,
      hvalue, if_true]
    rw [if_neg (by omega), if_neg (by omega), if_pos (by omega)]
    rfl
  | @three x y z hx hy hz =>
    have hbounds := (isForm_three_iff hx hy hz).mp h
    have hfirst := toNat_ofNat (n := x + 0xE0) (by omega)
    have hthird := isContinuation_iff.mpr ⟨z, hz, rfl⟩
    have hvalue : (x + 0xE0) % 16 = x := by omega
    change decodeFrom offset
      (.ofNat (x + 0xE0) :: .ofNat (y + 0x80) :: .ofNat (z + 0x80) :: rest) = _
    rw [decodeFrom.eq_def offset (_ :: _)]
    simp only [UInt8.lt_iff_toNat_lt, UInt8.reduceToNat, hfirst, hbounds, hthird,
      payload_ofNat hy, payload_ofNat hz, hvalue, if_true]
    rw [if_neg (by omega), if_neg (by omega), if_neg (by omega), if_pos (by omega)]
    rfl
  | @four w x y z hw hx hy hz =>
    obtain ⟨hmost, hbounds⟩ := (isForm_four_iff hw hx hy hz).mp h
    have hfirst := toNat_ofNat (n := w + 0xF0) (by omega)
    have hthird := isContinuation_iff.mpr ⟨y, hy, rfl⟩
    have hfourth := isContinuation_iff.mpr ⟨z, hz, rfl⟩
    have hvalue : (w + 0xF0) % 8 = w := by omega
    change decodeFrom offset
      (.ofNat (w + 0xF0) :: .ofNat (x + 0x80) :: .ofNat (y + 0x80) :: .ofNat (z + 0x80) :: rest) = _
    rw [decodeFrom.eq_def offset (_ :: _)]
    simp only [UInt8.lt_iff_toNat_lt, UInt8.reduceToNat, hfirst, hbounds, hthird, hfourth,
      payload_ofNat hx, payload_ofNat hy, payload_ofNat hz, hvalue, if_true]
    rw [if_neg (by omega), if_neg (by omega), if_neg (by omega), if_neg (by omega)]
    rfl

/-- Bytes of a pattern that are not those of a character cannot be decoded. -/
theorem exists_fault_of_not_isForm (h : HasPattern bytes n) (hnot : ¬ IsForm bytes n) (offset : Nat)
    (rest : List UInt8) : ∃ fault, decodeFrom offset (bytes ++ rest) = .error fault := by
  cases h with
  | one hx => exact absurd ⟨.one hx, Nat.zero_le n, .inl (by omega)⟩ hnot
  | @two x y hx hy =>
    rw [isForm_two_iff hx hy] at hnot
    have hfirst := toNat_ofNat (n := x + 0xC0) (by omega)
    rw [List.cons_append, decodeFrom.eq_def]
    simp only [UInt8.lt_iff_toNat_lt, UInt8.reduceToNat, hfirst]
    rw [if_neg (by omega), if_pos (by omega)]
    exact ⟨_, rfl⟩
  | @three x y z hx hy hz =>
    rw [isForm_three_iff hx hy hz] at hnot
    have hfirst := toNat_ofNat (n := x + 0xE0) (by omega)
    rw [List.cons_append, List.cons_append, decodeFrom.eq_def]
    simp only [UInt8.lt_iff_toNat_lt, UInt8.reduceToNat, hfirst, hnot]
    rw [if_neg (by omega), if_neg (by omega), if_neg (by omega), if_pos (by omega)]
    exact ⟨_, rfl⟩
  | @four w x y z hw hx hy hz =>
    rw [isForm_four_iff hw hx hy hz] at hnot
    have hfirst := toNat_ofNat (n := w + 0xF0) (by omega)
    rw [List.cons_append, List.cons_append, decodeFrom.eq_def]
    simp only [UInt8.lt_iff_toNat_lt, UInt8.reduceToNat, hfirst]
    rw [if_neg (by omega)]
    by_cases hmost : w ≤ 4
    · have hbounds : ¬ isSecondOfFour (.ofNat (w + 0xF0)) (.ofNat (x + 0x80)) = true :=
        fun hbounds => hnot ⟨hmost, hbounds⟩
      rw [if_neg (by omega), if_neg (by omega), if_neg (by omega), if_neg hbounds]
      exact ⟨_, rfl⟩
    · rw [if_pos (by omega)]
      exact ⟨_, rfl⟩

/-- A character in front of what is decoded. -/
theorem exists_of_map_eq_ok {decoded : Except Fault (List Char)} {c : Char} {text : List Char}
    (h : (c :: ·) <$> decoded = .ok text) : ∃ more, decoded = .ok more ∧ text = c :: more := by
  cases decoded with
  | error fault => contradiction
  | ok more => exact ⟨more, rfl, (Except.ok.inj h).symm⟩

/-- Bytes that can be decoded encode the text to which they are. -/
theorem encode_of_decodeFrom {offset : Nat} {text : List Char}
    (h : decodeFrom offset bytes = .ok text) : encode text = bytes := by
  have hcons {form rest : List UInt8} {n : Nat} (hform : IsForm form n) {more : List Char}
      (hmore : encode more = rest) : encode (Char.ofNat n :: more) = form ++ rest := by
    rw [encode, List.flatMap_cons, encodeChar_of_isForm hform]
    exact congrArg _ hmore
  fun_induction decodeFrom offset bytes generalizing text with
  | case1 =>
    obtain rfl := Except.ok.inj h
    rfl
  | case2 offset a rest ha ih =>
    obtain ⟨more, hmore, rfl⟩ := exists_of_map_eq_ok h
    rw [UInt8.lt_iff_toNat_lt] at ha
    have hform : IsForm [a] a.toNat := by
      have hpattern := HasPattern.one ha
      rw [UInt8.ofNat_toNat] at hpattern
      exact ⟨hpattern, Nat.zero_le _, .inl (Nat.lt_trans ha (by decide))⟩
    exact hcons hform (ih hmore)
  | case5 offset a hsmall hstart b rest htwo hb ih =>
    obtain ⟨more, hmore, rfl⟩ := exists_of_map_eq_ok h
    simp only [UInt8.lt_iff_toNat_lt, UInt8.reduceToNat] at hsmall hstart htwo
    obtain ⟨x, hx, rfl⟩ := exists_eq_ofNat_add (a := a) 0xC0 0x20 (by omega) (by omega)
    obtain ⟨y, hy, rfl⟩ := isContinuation_iff.mp hb
    have hfirst := toNat_ofNat (n := x + 0xC0) (by omega)
    have hvalue : (x + 0xC0) % 32 = x := by omega
    rw [payload_ofNat hy, hfirst, hvalue]
    exact hcons ((isForm_two_iff hx hy).mpr (by omega)) (ih hmore)
  | case8 offset a hsmall hstart b htwo hthree hbounds c rest hc ih =>
    obtain ⟨more, hmore, rfl⟩ := exists_of_map_eq_ok h
    simp only [UInt8.lt_iff_toNat_lt, UInt8.reduceToNat] at htwo hthree
    obtain ⟨x, hx, rfl⟩ := exists_eq_ofNat_add (a := a) 0xE0 0x10 (by omega) (by omega)
    obtain ⟨y, hy, rfl⟩ := isContinuation_iff.mp (isContinuation_of_isSecondOfThree hbounds)
    obtain ⟨z, hz, rfl⟩ := isContinuation_iff.mp hc
    have hfirst := toNat_ofNat (n := x + 0xE0) (by omega)
    have hvalue : (x + 0xE0) % 16 = x := by omega
    rw [payload_ofNat hy, payload_ofNat hz, hfirst, hvalue]
    exact hcons ((isForm_three_iff hx hy hz).mpr hbounds) (ih hmore)
  | case13 offset a hsmall hstart b htwo hthree hbounds c hc d rest hd ih =>
    obtain ⟨more, hmore, rfl⟩ := exists_of_map_eq_ok h
    simp only [UInt8.lt_iff_toNat_lt, UInt8.reduceToNat] at hstart hthree
    obtain ⟨w, hw, rfl⟩ := exists_eq_ofNat_add (a := a) 0xF0 8 (by omega) (by omega)
    obtain ⟨x, hx, rfl⟩ := isContinuation_iff.mp (isContinuation_of_isSecondOfFour hbounds)
    obtain ⟨y, hy, rfl⟩ := isContinuation_iff.mp hc
    obtain ⟨z, hz, rfl⟩ := isContinuation_iff.mp hd
    have hfirst := toNat_ofNat (n := w + 0xF0) (by omega)
    have hvalue : (w + 0xF0) % 8 = w := by omega
    rw [payload_ofNat hx, payload_ofNat hy, payload_ofNat hz, hfirst, hvalue]
    exact hcons ((isForm_four_iff hw hx hy hz).mpr ⟨by omega, hbounds⟩) (ih hmore)
  | _ => contradiction

end Decoding

/-- A text in front of other bytes is decoded up to them. -/
theorem decodeFrom_encode_append (offset : Nat) (text : List Char) (rest : List UInt8) :
    decodeFrom offset (encode text ++ rest) =
      (text ++ ·) <$> decodeFrom (offset + (encode text).length) rest := by
  induction text generalizing offset with
  | nil =>
    change decodeFrom offset rest = ([] ++ ·) <$> decodeFrom offset rest
    cases decodeFrom offset rest <;> rfl
  | cons c text ih =>
    have hform := isForm_encodeChar c
    have hencode : encode (c :: text) = String.utf8EncodeChar c ++ encode text := rfl
    have hchar : Char.ofNat c.val.toNat = c := Char.ofNat_toNat c
    rw [hencode, List.append_assoc, decodeFrom_of_isForm hform, ih, hchar, List.length_append,
      Nat.add_assoc]
    generalize decodeFrom _ rest = decoded
    cases decoded <;> rfl

/-- Bytes are decoded to the text that they encode, and no other bytes are decoded. -/
theorem decode_eq_ok_iff {bytes : List UInt8} {text : List Char} :
    decode bytes = .ok text ↔ bytes = encode text := by
  constructor
  · intro h
    exact (encode_of_decodeFrom h).symm
  · rintro rfl
    have hdecode := decodeFrom_encode_append 0 text []
    rw [List.append_nil] at hdecode
    rw [decode, hdecode]
    change Except.ok (text ++ []) = _
    rw [List.append_nil]

/-- Bytes of a pattern that are not those of a character make the bytes around them encode no
text. -/
theorem ne_encode_of_not_isForm {bytes : List UInt8} {n : Nat} (h : HasPattern bytes n)
    (hnot : ¬ IsForm bytes n) (before : List Char) (rest : List UInt8) (text : List Char) :
    encode before ++ (bytes ++ rest) ≠ encode text := by
  intro heq
  obtain ⟨fault, hfault⟩ :=
    exists_fault_of_not_isForm h hnot (0 + (encode before).length) rest
  have hdecode := decode_eq_ok_iff.mpr heq
  rw [decode, decodeFrom_encode_append, hfault] at hdecode
  contradiction

end EnumLabels.Text.Utf8
