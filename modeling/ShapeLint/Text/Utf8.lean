/-!
# UTF-8

Sources are bytes. What a node or a message shows of them is decoded text, in which each maximal run
of bytes that starts no character is shown as one replacement character. Configuration text must be
well formed.

A character is recognised by its first byte, which fixes how many bytes follow and between which
bounds the second one lies; all later ones lie between 80 and BF.
-/

namespace ShapeLint.Text

/-- What a first byte announces: how many bytes follow it, the bounds of the next one, and the bits
that it adds to the code point itself. -/
structure Utf8Lead where
  following : Nat
  low : Nat
  high : Nat
  bits : Nat

/-- What a byte announces as the first of a character of more than one byte. -/
def utf8Lead? (b : Nat) : Option Utf8Lead :=
  if 0xC2 ≤ b ∧ b ≤ 0xDF then some ⟨1, 0x80, 0xBF, b - 0xC0⟩
  else if b = 0xE0 then some ⟨2, 0xA0, 0xBF, 0⟩
  else if b = 0xED then some ⟨2, 0x80, 0x9F, 0xD⟩
  else if 0xE1 ≤ b ∧ b ≤ 0xEF then some ⟨2, 0x80, 0xBF, b - 0xE0⟩
  else if b = 0xF0 then some ⟨3, 0x90, 0xBF, 0⟩
  else if 0xF1 ≤ b ∧ b ≤ 0xF3 then some ⟨3, 0x80, 0xBF, b - 0xF0⟩
  else if b = 0xF4 then some ⟨3, 0x80, 0x8F, 4⟩
  else none

/-- A character being read: the bits so far, how many bytes are still owed, the bounds of the next,
and how many bytes were read. -/
structure Utf8Pending where
  bits : Nat
  owed : Nat
  low : Nat
  high : Nat
  read : Nat

/-- A decoded piece of a byte sequence: a character, or bytes that start none, with the number of
bytes that it takes. -/
structure Utf8Piece where
  char? : Option Char
  width : Nat

/-- Cuts bytes into characters and malformed pieces. `pending` is the character that has begun. A
byte that does not continue it ends a malformed piece and is looked at afresh as a first byte. -/
def utf8Pieces.go : Option Utf8Pending → List UInt8 → List Utf8Piece
  | none, [] => []
  | some p, [] => [⟨none, p.read⟩]
  | pending, byte :: rest =>
    let b := byte.toNat
    let fresh (_ : Unit) : List Utf8Piece :=
      if b < 0x80 then ⟨some (Char.ofNat b), 1⟩ :: utf8Pieces.go none rest
      else
        match utf8Lead? b with
        | some lead => utf8Pieces.go (some ⟨lead.bits, lead.following, lead.low, lead.high, 1⟩) rest
        | none => ⟨none, 1⟩ :: utf8Pieces.go none rest
    match pending with
    | none => fresh ()
    | some p =>
      if p.low ≤ b ∧ b ≤ p.high then
        let bits := p.bits * 64 + (b - 0x80)
        if p.owed = 1 then ⟨some (Char.ofNat bits), p.read + 1⟩ :: utf8Pieces.go none rest
        else utf8Pieces.go (some ⟨bits, p.owed - 1, 0x80, 0xBF, p.read + 1⟩) rest
      else ⟨none, p.read⟩ :: fresh ()

/-- The characters and malformed pieces of a byte sequence, in order. -/
def utf8Pieces (bytes : List UInt8) : List Utf8Piece :=
  utf8Pieces.go none bytes

/-- The replacement character, shown for bytes that are no character. -/
def replacement : Char := '�'

/-- The text of a byte sequence, with the replacement character for each malformed piece. -/
def decodeLossy (bytes : List UInt8) : List Char :=
  (utf8Pieces bytes).map fun piece => piece.char?.getD replacement

/-- The text of a byte sequence; none if a piece of it is malformed. -/
def decodeStrict? (bytes : List UInt8) : Option (List Char) :=
  (utf8Pieces bytes).mapM (·.char?)

end ShapeLint.Text
