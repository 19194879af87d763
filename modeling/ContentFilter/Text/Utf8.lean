import ContentFilter.Text.Hex

/-! # UTF-8

* `Text.encodeUtf8`: the bytes of a text.
* `Text.decodeUtf8?`: the text of a sequence of bytes. It refuses a byte out of place, a sequence
  that is cut short or longer than needed, a surrogate, and a value above U+10FFFF.
-/

set_option autoImplicit false

namespace ContentFilter.Text

/-! ## Encoding -/

/-- A byte that carries the six lowest bits of `n` in second place or later. -/
def tailByte (n : Nat) : UInt8 := UInt8.ofNat (0x80 + n % 64)

def encodeChar (c : Char) : Bytes :=
  let n := c.toNat
  if n < 0x80 then [UInt8.ofNat n]
  else if n < 0x800 then [UInt8.ofNat (0xC0 + n / 64), tailByte n]
  else if n < 0x10000 then [UInt8.ofNat (0xE0 + n / 4096), tailByte (n / 64), tailByte n]
  else [UInt8.ofNat (0xF0 + n / 262144), tailByte (n / 4096), tailByte (n / 64), tailByte n]

def encodeUtf8 (t : Text) : Bytes := t.flatMap encodeChar

/-! ## Decoding -/

/-- The text of the rest of a sequence of bytes. In the middle of a character `owed` bytes are still
to come, `value` holds the bits read so far and `least` is the smallest code point that needs that
many bytes. -/
def decodeUtf8From : (owed value least : Nat) → Bytes → Option Text
  | 0, _, _, [] => some []
  | _ + 1, _, _, [] => none
  | 0, _, _, b :: bytes =>
    let n := b.toNat
    if n < 0x80 then (decodeUtf8From 0 0 0 bytes).map (Char.ofNat n :: ·)
    else if n < 0xC0 then none
    else if n < 0xE0 then decodeUtf8From 1 (n - 0xC0) 0x80 bytes
    else if n < 0xF0 then decodeUtf8From 2 (n - 0xE0) 0x800 bytes
    else if n < 0xF8 then decodeUtf8From 3 (n - 0xF0) 0x10000 bytes
    else none
  | owed + 1, value, least, b :: bytes =>
    let n := b.toNat
    if n < 0x80 || 0xC0 ≤ n then none
    else
      let value := 64 * value + (n - 0x80)
      if owed = 0 then
        if least ≤ value && Nat.isValidChar value then
          (decodeUtf8From 0 0 0 bytes).map (Char.ofNat value :: ·)
        else none
      else decodeUtf8From owed value least bytes

def decodeUtf8? (bytes : Bytes) : Option Text := decodeUtf8From 0 0 0 bytes

end ContentFilter.Text
