/-
# `Utf8` — bytes as text

Bytes that are no text are read all the same: each longest stretch that
starts a character without finishing it, and each byte that cannot start
one, becomes one replacement character.
-/
namespace SourceMetrics.Text

/-- What has to follow the first byte of a character: how many bytes, and
the range of the first of them. -/
structure Continuation where
  count : Nat
  low : UInt8
  high : UInt8

/-- What has to follow a byte; `none` if no character of several bytes starts
with it. -/
def continuation? (first : UInt8) : Option Continuation :=
  if 0xc2 ≤ first && first ≤ 0xdf then some ⟨1, 0x80, 0xbf⟩
  else if first == 0xe0 then some ⟨2, 0xa0, 0xbf⟩
  else if first == 0xed then some ⟨2, 0x80, 0x9f⟩
  else if 0xe1 ≤ first && first ≤ 0xef then some ⟨2, 0x80, 0xbf⟩
  else if first == 0xf0 then some ⟨3, 0x90, 0xbf⟩
  else if 0xf1 ≤ first && first ≤ 0xf3 then some ⟨3, 0x80, 0xbf⟩
  else if first == 0xf4 then some ⟨3, 0x80, 0x8f⟩
  else none

/-- The bytes that follow as they should: at most `count`, the first of them
within the given range. -/
def continuing (count : Nat) (low high : UInt8) : List UInt8 → List UInt8
  | [] => []
  | b :: rest =>
    match count with
    | 0 => []
    | count + 1 =>
      if low ≤ b && b ≤ high then b :: continuing count 0x80 0xbf rest else []

/-- The code point of a first byte with `bits` bits of its own and the bytes
that continue it. -/
def codePoint (first : UInt8) (bits : Nat) (following : List UInt8) : Nat :=
  following.foldl (fun n b => n * 64 + b.toNat % 64) (first.toNat % Nat.pow 2 bits)

/-- The character that stands for what is no text. -/
def replacement : Char := Char.ofNat 0xfffd

/-- The first character of some bytes, and how many of those that follow the
first byte belong to it. -/
def decodeFirst (first : UInt8) (rest : List UInt8) : Char × Nat :=
  if first < 0x80 then (Char.ofNat first.toNat, 0)
  else
    match continuation? first with
    | none => (replacement, 0)
    | some c =>
      let following := continuing c.count c.low c.high rest
      if following.length = c.count then
        (Char.ofNat (codePoint first (6 - c.count) following), following.length)
      else (replacement, following.length)

/-- The characters of some bytes. -/
def decodeChars : List UInt8 → List Char
  | [] => []
  | b :: rest =>
    let (c, used) := decodeFirst b rest
    c :: decodeChars (rest.drop used)
termination_by bytes => bytes.length
decreasing_by simp only [List.length_drop, List.length_cons]; omega

/-- The text of some bytes, with what is no text replaced. -/
def decodeLossy (bytes : ByteArray) : String :=
  match String.fromUTF8? bytes with
  | some text => text
  | none => String.ofList (decodeChars bytes.toList)

end SourceMetrics.Text
