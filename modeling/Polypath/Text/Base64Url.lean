/-!
# Base64url text

Bytes as text over the alphabet `A`–`Z`, `a`–`z`, `0`–`9`, `-`, `_`, four symbols for three bytes, the last group filled
up with `=`. Reading is strict: the padding has to be there, and the bits of the last symbol that no byte uses have to
be zero, so that every byte string has exactly one text. Texts are taken as their UTF-8 bytes, and offsets count those.
-/

namespace Polypath.Text.Base64Url

/-- Why a text denotes no bytes. -/
inductive Fault where
  /-- A byte that may not stand where it stands. -/
  | symbol (byte : UInt8) (offset : Nat)
  /-- The last group has too few symbols for a byte. -/
  | inputLength (length : Nat)
  /-- The padding does not fill the last group. -/
  | padding
  /-- The last symbol has unused bits that are not zero. -/
  | lastSymbol (byte : UInt8) (offset : Nat)
deriving DecidableEq, Repr

namespace Fault

/-- The fault in words. -/
def message : Fault → String
  | .symbol byte offset => s!"Invalid symbol {byte}, offset {offset}."
  | .inputLength length => s!"Invalid input length: {length}"
  | .padding => "Invalid padding"
  | .lastSymbol byte offset => s!"Invalid last symbol {byte}, offset {offset}."

end Fault

/-- The padding byte. -/
def pad : UInt8 := 61

/-- The symbol of a six-bit number. -/
def symbol (n : Nat) : UInt8 :=
  UInt8.ofNat <|
    if n < 26 then n + 65
    else if n < 52 then n + 71
    else if n < 62 then n - 4
    else if n = 62 then 45
    else 95

/-- The six-bit number of a symbol. -/
def value? (b : UInt8) : Option Nat :=
  let n := b.toNat
  if 65 ≤ n ∧ n ≤ 90 then some (n - 65)
  else if 97 ≤ n ∧ n ≤ 122 then some (n - 71)
  else if 48 ≤ n ∧ n ≤ 57 then some (n + 4)
  else if n = 45 then some 62
  else if n = 95 then some 63
  else none

/-! ## Writing -/

/-- The text of a byte string. -/
def encode : List UInt8 → List UInt8
  | a :: b :: c :: rest =>
    let n := a.toNat * 65536 + b.toNat * 256 + c.toNat
    symbol (n / 262144) :: symbol (n / 4096 % 64) :: symbol (n / 64 % 64) :: symbol (n % 64) :: encode rest
  | [a, b] =>
    let n := (a.toNat * 256 + b.toNat) * 4
    [symbol (n / 4096), symbol (n / 64 % 64), symbol (n % 64), pad]
  | [a] =>
    let n := a.toNat * 16
    [symbol (n / 64), symbol (n % 64), pad, pad]
  | [] => []

/-! ## Reading -/

/-- The values of symbols that all have to be in the alphabet; `offset` is where the first one stands. -/
def values (offset : Nat) : List UInt8 → Except Fault (List Nat)
  | [] => .ok []
  | b :: bs =>
    match value? b with
    | none => .error (.symbol b offset)
    | some v => (v :: ·) <$> values (offset + 1) bs

/-- What the last group holds: its symbols, and how many padding bytes follow them. -/
structure Tail where
  symbols : List (UInt8 × Nat)
  pads : Nat

/-- Reads the last group, which starts at `start`; `position` counts the bytes already taken. -/
def readTail (start : Nat) : (position : Nat) → Tail → List UInt8 → Except Fault Tail
  | _, tail, [] => .ok tail
  | position, tail, b :: bs =>
    if b = pad then
      if position < 2 then .error (.symbol pad (start + position))
      else readTail start (position + 1) { tail with pads := tail.pads + 1 } bs
    else if 0 < tail.pads then .error (.symbol pad (start + tail.symbols.length))
    else
      match value? b with
      | none => .error (.symbol b (start + position))
      | some v => readTail start (position + 1) { tail with symbols := tail.symbols ++ [(b, v)] } bs

/-- The bytes of full groups of four values. -/
def joinGroups : List Nat → List UInt8
  | a :: b :: c :: d :: rest =>
    let n := a * 262144 + b * 4096 + c * 64 + d
    UInt8.ofNat (n / 65536) :: UInt8.ofNat (n / 256) :: UInt8.ofNat n :: joinGroups rest
  | _ => []

/-- The bytes of the last group. -/
def joinTail (start : Nat) (tail : Tail) : Except Fault (List UInt8) :=
  match tail.symbols with
  | [] => .ok []
  | [_] => .error (.inputLength (start + 1))
  | [(_, a), (s, b)] =>
    if tail.pads ≠ 2 then .error .padding
    else if b % 16 ≠ 0 then .error (.lastSymbol s (start + 1))
    else .ok [UInt8.ofNat (a * 4 + b / 16)]
  | [(_, a), (_, b), (s, c)] =>
    if tail.pads ≠ 1 then .error .padding
    else if c % 4 ≠ 0 then .error (.lastSymbol s (start + 2))
    else .ok [UInt8.ofNat (a * 4 + b / 16), UInt8.ofNat (b * 16 + c / 4)]
  | symbols => .ok (joinGroups (symbols.map Prod.snd))

/-- Where the last group starts: the largest multiple of four that leaves at least one byte. -/
def tailStart (length : Nat) : Nat := (length - 1) / 4 * 4

/-- A text one byte longer than full groups, whose last byte is no symbol and no padding, is refused for that byte
before anything else is looked at. -/
def checkLoneByte (text : List UInt8) : Except Fault Unit :=
  match text.getLast? with
  | some b =>
    if text.length % 4 = 1 ∧ b ≠ pad ∧ (value? b).isNone then .error (.symbol b (text.length - 1)) else .ok ()
  | none => .ok ()

/-- The bytes that a text denotes. -/
def decode (text : List UInt8) : Except Fault (List UInt8) := do
  checkLoneByte text
  let start := tailStart text.length
  let groups ← values 0 (text.take start)
  let tail ← readTail start 0 ⟨[], 0⟩ (text.drop start)
  let last ← joinTail start tail
  return joinGroups groups ++ last

end Polypath.Text.Base64Url
