/-!
UTF-8 bytes of a text and the way back.

Reading is one automaton over the bytes. It splits them into pieces, each a character or a maximal
invalid part; strict and lenient reading differ only in what they make of an invalid part.
-/
namespace RelEngine.Utf8

def encode (s : String) : List UInt8 := s.toList.flatMap String.utf8EncodeChar

/-- A character that is not complete yet: the bits so far, how many bytes are missing, and the range
of the next one. -/
structure Partial where
  bits : Nat
  missing : Nat
  low : UInt8
  high : UInt8

/-- One character, or one maximal invalid part. -/
abbrev Piece := Option Char

/-- The state after the first byte of a piece, and the piece if it is complete. The range of the
second byte keeps out overlong forms, surrogates and numbers above the last character. -/
def begin (b : UInt8) : List Piece × Option Partial :=
  let n := b.toNat
  if n < 0x80 then ([some (Char.ofNat n)], none)
  else if n < 0xc2 then ([none], none)
  else if n < 0xe0 then ([], some ⟨n % 32, 1, 0x80, 0xbf⟩)
  else if n < 0xf0 then
    ([], some ⟨n % 16, 2, if n = 0xe0 then 0xa0 else 0x80, if n = 0xed then 0x9f else 0xbf⟩)
  else if n < 0xf5 then
    ([], some ⟨n % 8, 3, if n = 0xf0 then 0x90 else 0x80, if n = 0xf4 then 0x8f else 0xbf⟩)
  else ([none], none)

/-- Reads one byte. A byte that cannot continue the open piece ends it and starts the next. -/
def step (open? : Option Partial) (b : UInt8) : List Piece × Option Partial :=
  match open? with
  | none => begin b
  | some p =>
    if p.low ≤ b ∧ b ≤ p.high then
      let bits := p.bits * 64 + b.toNat % 64
      if p.missing ≤ 1 then ([some (Char.ofNat bits)], none)
      else ([], some ⟨bits, p.missing - 1, 0x80, 0xbf⟩)
    else
      let (pieces, next) := begin b
      (none :: pieces, next)

/-- The pieces of a byte sequence, with a piece that may be open already. -/
def piecesFrom : Option Partial → List UInt8 → List Piece
  | none, [] => []
  | some _, [] => [none]
  | open?, b :: bs =>
    let (pieces, next) := step open? b
    pieces ++ piecesFrom next bs

def pieces (bytes : List UInt8) : List Piece := piecesFrom none bytes

def decode? (bytes : List UInt8) : Option String :=
  ((pieces bytes).mapM id).map String.ofList

def decodeLenient (bytes : List UInt8) : String :=
  String.ofList ((pieces bytes).map (·.getD '\ufffd'))

end RelEngine.Utf8
