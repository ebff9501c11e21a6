/-!
# Bytes as text

Reading bytes as UTF-8, with the place of the first fault.

* `Text.Utf8Fault` is what stops a text from being read: a sequence of one to three bytes that no
  character starts with, or an end in the middle of a character.
* `Text.decode` gives the text, or its first fault.
-/

namespace CodeSurvey.Text

/-- Why bytes are not UTF-8: the offset of the first fault, and how many bytes are wrong there.
No count means that the bytes end in the middle of a character. -/
structure Utf8Fault where
  index : Nat
  wrong : Option Nat
deriving DecidableEq

/-- The text of a fault. -/
def Utf8Fault.message (fault : Utf8Fault) : String :=
  match fault.wrong with
  | some n => s!"invalid utf-8 sequence of {n} bytes from index {fault.index}"
  | none   => s!"incomplete utf-8 byte sequence from index {fault.index}"

/-- The ranges of the bytes after a first byte, or none if no character starts with it. -/
def followers (b : Nat) : Option (List (Nat × Nat)) :=
  let tail := (0x80, 0xBF)
  if b < 0x80 then some []
  else if 0xC2 ≤ b && b ≤ 0xDF then some [tail]
  else if b == 0xE0 then some [(0xA0, 0xBF), tail]
  else if b == 0xED then some [(0x80, 0x9F), tail]
  else if 0xE1 ≤ b && b ≤ 0xEF then some [tail, tail]
  else if b == 0xF0 then some [(0x90, 0xBF), tail, tail]
  else if 0xF1 ≤ b && b ≤ 0xF3 then some [tail, tail, tail]
  else if b == 0xF4 then some [(0x80, 0x8F), tail, tail]
  else none

/-- How the bytes after a first byte meet the ranges asked of them. -/
inductive Continuation where
  | complete (rest : List Nat)
  | wrong (read : Nat)
  | cut

/-- Reads one byte for each range; `read` bytes of the character have been read. -/
def continuation : List (Nat × Nat) → Nat → List Nat → Continuation
  | [], _, bytes                        => .complete bytes
  | _ :: _, _, []                       => .cut
  | (low, high) :: ranges, read, b :: bytes =>
    if low ≤ b && b ≤ high then continuation ranges (read + 1) bytes else .wrong read

/-- The first fault of bytes that start at an offset. The fuel bounds the characters read. -/
def faultFrom : Nat → Nat → List Nat → Option Utf8Fault
  | 0, _, _               => none
  | _ + 1, _, []          => none
  | fuel + 1, index, b :: bytes =>
    match followers b with
    | none => some ⟨index, some 1⟩
    | some ranges =>
      match continuation ranges 1 bytes with
      | .complete rest => faultFrom fuel (index + 1 + ranges.length) rest
      | .wrong read    => some ⟨index, some read⟩
      | .cut           => some ⟨index, none⟩

/-- The text that bytes spell, or the first fault in them. -/
def decode (bytes : ByteArray) : Except Utf8Fault String :=
  match String.fromUTF8? bytes with
  | some text => .ok text
  | none      =>
    let values := bytes.toList.map UInt8.toNat
    .error ((faultFrom (values.length + 1) 0 values).getD ⟨0, none⟩)

end CodeSurvey.Text
