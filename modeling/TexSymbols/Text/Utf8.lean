import TexSymbols.Text

/-!
# UTF-8

* `Utf8.units` — the characters that bytes stand for; each maximal part that begins like a character and is none, or
  cannot begin one, is a unit without character.
* `Utf8.decode?` — the text of bytes without ill-formed parts.
* `Utf8.decodeLossy` — the text with U+FFFD for each ill-formed part.
* `Utf8.encode` — the bytes of a text.
-/

namespace TexSymbols

abbrev Bytes := List UInt8

namespace Utf8

/-- A character whose first bytes have been read: their value, the range in which the next byte has to lie, and the
number of bytes after that one. -/
structure Partial where
  value : Nat
  low : Nat
  high : Nat
  more : Nat

/-- What a leading byte of several begins. -/
def lead? (b : Nat) : Option Partial :=
  if 0xC2 ≤ b && b ≤ 0xDF then some ⟨b - 0xC0, 0x80, 0xBF, 0⟩
  else if b = 0xE0 then some ⟨0, 0xA0, 0xBF, 1⟩
  else if b = 0xED then some ⟨0xD, 0x80, 0x9F, 1⟩
  else if 0xE1 ≤ b && b ≤ 0xEF then some ⟨b - 0xE0, 0x80, 0xBF, 1⟩
  else if b = 0xF0 then some ⟨0, 0x90, 0xBF, 2⟩
  else if 0xF1 ≤ b && b ≤ 0xF3 then some ⟨b - 0xF0, 0x80, 0xBF, 2⟩
  else if b = 0xF4 then some ⟨4, 0x80, 0x8F, 2⟩
  else none

/-- The units of the bytes that follow the beginning of a character, if there is one. -/
def unitsFrom : Option Partial → Bytes → List (Option Char)
  | none, [] => []
  | some _, [] => [none]
  | pending, byte :: r =>
    let b := byte.toNat
    let afresh (_ : Unit) : List (Option Char) :=
      if b < 0x80 then some (Char.ofNat b) :: unitsFrom none r
      else
        match lead? b with
        | some p => unitsFrom (some p) r
        | none => none :: unitsFrom none r
    match pending with
    | none => afresh ()
    | some p =>
      if p.low ≤ b && b ≤ p.high then
        let value := p.value * 64 + (b - 0x80)
        match p.more with
        | 0 => some (Char.ofNat value) :: unitsFrom none r
        | more + 1 => unitsFrom (some ⟨value, 0x80, 0xBF, more⟩) r
      else none :: afresh ()

/-- The characters and ill-formed parts of bytes. -/
def units (bytes : Bytes) : List (Option Char) := unitsFrom none bytes

/-- The text of the bytes, if they are well-formed. -/
def decode? (bytes : Bytes) : Option Text := (units bytes).mapM id

/-- The text of the bytes, with a replacement character for each ill-formed part. -/
def decodeLossy (bytes : Bytes) : Text := (units bytes).map fun c => c.getD '\ufffd'

/-- The bytes of a character. -/
def encodeChar (c : Char) : Bytes :=
  let n := c.toNat
  let byte (lead shift : Nat) : UInt8 := UInt8.ofNat (lead + n / Nat.pow 64 shift % 64)
  if n < 0x80 then [UInt8.ofNat n]
  else if n < 0x800 then [byte 0xC0 1, byte 0x80 0]
  else if n < 0x10000 then [byte 0xE0 2, byte 0x80 1, byte 0x80 0]
  else [byte 0xF0 3, byte 0x80 2, byte 0x80 1, byte 0x80 0]

/-- The bytes of a text. -/
def encode (t : Text) : Bytes := t.flatMap encodeChar

example : decode? (encode "aé€😀".toList) = some "aé€😀".toList := by decide +kernel

example : decodeLossy [0x61, 0xFF, 0xE2, 0x82, 0x62] = "a\ufffd\ufffdb".toList := by decide +kernel

end Utf8

end TexSymbols
