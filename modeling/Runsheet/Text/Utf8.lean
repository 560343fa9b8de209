/-
UTF-8. Files hold bytes and everything else here holds characters;
this module is the passage between them.

Encoding is total. Decoding never fails either: a byte that cannot go
on with the character begun before it, or cannot begin one, makes the
longest stretch of bytes that could still have become a character into
one U+FFFD, and reading goes on with that byte afresh. A byte order
mark is a character like any other.

The decoder is a machine that takes one byte at a time. Between bytes
it knows only the characters so far and, in the middle of a character,
what is still owed: how many bytes, the bits collected, and the range
in which the next byte must lie. The range is what keeps overlong
forms, surrogates and values past U+10FFFF out.
-/
import Runsheet.Text.Basic

namespace Runsheet.Utf8

-- ============================================================= encoding

/-- The bytes of one code point. -/
def encodeScalar (n : Nat) : List UInt8 :=
  if n < 0x80 then [.ofNat n]
  else if n < 0x800 then [.ofNat (0xC0 + n / 0x40), .ofNat (0x80 + n % 0x40)]
  else if n < 0x10000 then
    [.ofNat (0xE0 + n / 0x1000), .ofNat (0x80 + n / 0x40 % 0x40),
     .ofNat (0x80 + n % 0x40)]
  else
    [.ofNat (0xF0 + n / 0x40000), .ofNat (0x80 + n / 0x1000 % 0x40),
     .ofNat (0x80 + n / 0x40 % 0x40), .ofNat (0x80 + n % 0x40)]

/-- The bytes of a text. -/
def encode (t : Text) : List UInt8 := t.flatMap fun c => encodeScalar c.toNat

-- ============================================================= decoding

/-- What a character that has begun still owes: `owed + 1` bytes, of
which the next lies between `low` and `high`, added to the bits in
`value`. -/
structure Tail where
  owed : Nat
  value : Nat
  low : Nat
  high : Nat
  deriving DecidableEq, Repr

/-- The character that stands for an ill-formed stretch of bytes. -/
def replacement : Char := '\uFFFD'

/-- The decoder between two bytes: the characters read, latest first,
and the tail of the character that has begun, if one has. -/
structure Decoder where
  out : Text
  tail : Option Tail
  deriving DecidableEq, Repr

/-- A byte where a character begins. -/
def Decoder.lead (out : Text) (b : Nat) : Decoder :=
  if b < 0x80 then ⟨.ofNat b :: out, none⟩
  else if b < 0xC2 then ⟨replacement :: out, none⟩
  else if b < 0xE0 then ⟨out, some ⟨0, b - 0xC0, 0x80, 0xBF⟩⟩
  else if b < 0xF0 then
    ⟨out, some ⟨1, b - 0xE0, if b = 0xE0 then 0xA0 else 0x80,
      if b = 0xED then 0x9F else 0xBF⟩⟩
  else if b < 0xF5 then
    ⟨out, some ⟨2, b - 0xF0, if b = 0xF0 then 0x90 else 0x80,
      if b = 0xF4 then 0x8F else 0xBF⟩⟩
  else ⟨replacement :: out, none⟩

/-- One byte more. -/
def Decoder.push (d : Decoder) (byte : UInt8) : Decoder :=
  let b := byte.toNat
  match d.tail with
  | none => .lead d.out b
  | some t =>
    if t.low ≤ b ∧ b ≤ t.high then
      let value := t.value * 0x40 + (b - 0x80)
      match t.owed with
      | 0 => ⟨.ofNat value :: d.out, none⟩
      | owed + 1 => ⟨d.out, some ⟨owed, value, 0x80, 0xBF⟩⟩
    else .lead (replacement :: d.out) b

/-- The text read, in reading order; a character cut off by the end is
ill-formed too. -/
def Decoder.text (d : Decoder) : Text :=
  match d.tail with
  | none => d.out.reverse
  | some _ => (replacement :: d.out).reverse

/-- The text of a file's bytes. -/
def decode (bytes : List UInt8) : Text :=
  (bytes.foldl Decoder.push ⟨[], none⟩).text

-- =========================================================== round trip

theorem toNat_ofNat_of_lt {b : Nat} (h : b < 0x100) : (UInt8.ofNat b).toNat = b := by
  rw [UInt8.toNat_ofNat']
  omega

/-- Between characters a byte is taken for the first of the next one. -/
theorem push_lead (out : Text) {b : Nat} (h : b < 0x100) :
    Decoder.push ⟨out, none⟩ (.ofNat b) = .lead out b := by
  simp only [Decoder.push, toNat_ofNat_of_lt h]

/-- The last byte of a tail completes its character. -/
theorem push_tail_last (out : Text) {value low high b : Nat} (hb : b < 0x40)
    (hlo : low ≤ 0x80 + b) (hhi : 0x80 + b ≤ high) :
    Decoder.push ⟨out, some ⟨0, value, low, high⟩⟩ (.ofNat (0x80 + b))
      = ⟨.ofNat (value * 0x40 + b) :: out, none⟩ := by
  simp only [Decoder.push, toNat_ofNat_of_lt (show 0x80 + b < 0x100 by omega)]
  rw [if_pos ⟨hlo, hhi⟩, Nat.add_sub_cancel_left]

/-- A byte before the last leaves one less to come, in the full range. -/
theorem push_tail_inner (out : Text) {owed value low high b : Nat} (hb : b < 0x40)
    (hlo : low ≤ 0x80 + b) (hhi : 0x80 + b ≤ high) :
    Decoder.push ⟨out, some ⟨owed + 1, value, low, high⟩⟩ (.ofNat (0x80 + b))
      = ⟨out, some ⟨owed, value * 0x40 + b, 0x80, 0xBF⟩⟩ := by
  simp only [Decoder.push, toNat_ofNat_of_lt (show 0x80 + b < 0x100 by omega)]
  rw [if_pos ⟨hlo, hhi⟩, Nat.add_sub_cancel_left]

/-- The bytes of a character are read as that character. -/
theorem foldl_push_encodeScalar (out : Text) (c : Char) :
    (encodeScalar c.toNat).foldl Decoder.push ⟨out, none⟩ = ⟨c :: out, none⟩ := by
  have hv : c.toNat < 0xD800 ∨ 0xDFFF < c.toNat ∧ c.toNat < 0x110000 := c.valid
  have hc : ∀ v, v = c.toNat → Char.ofNat v = c := fun v h => h ▸ Char.ofNat_toNat c
  generalize hn : c.toNat = n at hv hc
  -- one case for each number of bytes: the lead byte, then the tail bytes, then the
  -- scalar
  by_cases h1 : n < 0x80
  · rw [encodeScalar, if_pos h1, List.foldl_cons, List.foldl_nil,
      push_lead out (by omega), Decoder.lead, if_pos h1, hc n rfl]
  by_cases h2 : n < 0x800
  · rw [encodeScalar, if_neg h1, if_pos h2, List.foldl_cons, List.foldl_cons,
      List.foldl_nil, push_lead out (by omega), Decoder.lead, if_neg (by omega),
      if_neg (by omega), if_pos (by omega),
      push_tail_last out (by omega) (by omega) (by omega), hc _ (by omega)]
  by_cases h3 : n < 0x10000
  · rw [encodeScalar, if_neg h1, if_neg h2, if_pos h3, List.foldl_cons,
      List.foldl_cons, List.foldl_cons, List.foldl_nil, push_lead out (by omega),
      Decoder.lead, if_neg (by omega), if_neg (by omega), if_neg (by omega),
      if_pos (by omega),
      push_tail_inner out (by omega) (by split <;> omega) (by split <;> omega),
      push_tail_last out (by omega) (by omega) (by omega), hc _ (by omega)]
  · rw [encodeScalar, if_neg h1, if_neg h2, if_neg h3, List.foldl_cons,
      List.foldl_cons, List.foldl_cons, List.foldl_cons, List.foldl_nil,
      push_lead out (by omega), Decoder.lead, if_neg (by omega), if_neg (by omega),
      if_neg (by omega), if_neg (by omega), if_pos (by omega),
      push_tail_inner out (by omega) (by split <;> omega) (by split <;> omega),
      push_tail_inner out (by omega) (by omega) (by omega),
      push_tail_last out (by omega) (by omega) (by omega), hc _ (by omega)]

/-- Decoding gives back what was encoded. -/
theorem decode_encode (t : Text) : decode (encode t) = t := by
  suffices h : ∀ out : Text, (encode t).foldl Decoder.push ⟨out, none⟩
      = ⟨t.reverse ++ out, none⟩ by
    simp [decode, Decoder.text, h]
  induction t with
  | nil => intro out; rfl
  | cons c r ih =>
    intro out
    have hc : encode (c :: r) = encodeScalar c.toNat ++ encode r := rfl
    rw [hc, List.foldl_append, foldl_push_encodeScalar, ih]
    simp

end Runsheet.Utf8
