/-!
# Keccak-256

The hash function of the chain: a sponge over twenty-five lanes of sixty-four bits, of which
seventeen take up input. Lane `x + 5 * y` stands in column `x` and row `y`.
-/

namespace Payout.Keccak

/-- The state of the sponge. -/
abbrev State := Vector UInt64 25

/-- The lane in a column and row, both taken modulo five. -/
def lane (s : State) (x y : Nat) : UInt64 :=
  s.get ⟨x % 5 + 5 * (y % 5), by omega⟩

/-- Rotates a lane to the left by fewer than sixty-four places. -/
def rotate (a : UInt64) (places : Nat) : UInt64 :=
  if places = 0 then a
  else a <<< UInt64.ofNat places ||| a >>> UInt64.ofNat (64 - places)

/-- How far each lane is rotated. -/
def rotations : Vector Nat 25 :=
  #v[0, 1, 62, 28, 27, 36, 44, 6, 55, 20, 3, 10, 43, 25, 39, 41, 45, 15, 21, 8, 18, 2, 61, 56, 14]

/-- The constants of the twenty-four rounds. -/
def roundConstants : List UInt64 :=
  [0x0000000000000001, 0x0000000000008082, 0x800000000000808A, 0x8000000080008000,
    0x000000000000808B, 0x0000000080000001, 0x8000000080008081, 0x8000000000008009,
    0x000000000000008A, 0x0000000000000088, 0x0000000080008009, 0x000000008000000A,
    0x000000008000808B, 0x800000000000008B, 0x8000000000008089, 0x8000000000008003,
    0x8000000000008002, 0x8000000000000080, 0x000000000000800A, 0x800000008000000A,
    0x8000000080008081, 0x8000000000008080, 0x0000000080000001, 0x8000000080008008]

/-- Mixes the parity of two columns into every lane. -/
def mixColumns (s : State) : State :=
  let parity : Vector UInt64 5 := Vector.ofFn fun x =>
    lane s x 0 ^^^ lane s x 1 ^^^ lane s x 2 ^^^ lane s x 3 ^^^ lane s x 4
  Vector.ofFn fun i =>
    s[i] ^^^ parity.get ⟨(i.val + 4) % 5, by omega⟩ ^^^
      rotate (parity.get ⟨(i.val + 1) % 5, by omega⟩) 1

/-- Rotates every lane and moves it to another place. -/
def moveLanes (s : State) : State :=
  Vector.ofFn fun i =>
    let x := i.val % 5
    let y := i.val / 5
    rotate (lane s (x + 3 * y) x) (rotations.get ⟨(x + 3 * y) % 5 + 5 * x, by omega⟩)

/-- Combines every lane with the two that follow it in its row. -/
def combineRows (s : State) : State :=
  Vector.ofFn fun i =>
    let x := i.val % 5
    let y := i.val / 5
    s[i] ^^^ (~~~(lane s (x + 1) y) &&& lane s (x + 2) y)

def round (s : State) (constant : UInt64) : State :=
  let s := combineRows (moveLanes (mixColumns s))
  s.set 0 (s[0] ^^^ constant)

/-- All rounds. -/
def permute (s : State) : State := roundConstants.foldl round s

/-- The number of bytes taken up before each permutation. -/
def rate : Nat := 136

/-- A lane made of up to eight bytes, the lowest first. -/
def laneOfBytes (bytes : List UInt8) : UInt64 :=
  bytes.foldr (fun b a => a <<< 8 ||| b.toUInt64) 0

/-- The eight bytes of a lane, the lowest first. -/
def bytesOfLane (a : UInt64) : List UInt8 :=
  (List.range 8).map fun n => (a >>> UInt64.ofNat (8 * n)).toUInt8

/-- Takes up one block of input. -/
def absorb (s : State) (block : List UInt8) : State :=
  permute (Vector.ofFn fun i => s[i] ^^^ laneOfBytes ((block.drop (8 * i.val)).take 8))

/-- Input filled up to whole blocks: one bit set after its end and one at the end of the last
block. -/
def padded (input : List UInt8) : List UInt8 :=
  let free := rate - input.length % rate
  if free = 1 then input ++ [0x81]
  else input ++ 0x01 :: List.replicate (free - 2) 0 ++ [0x80]

/-- Bytes divided into a number of blocks. -/
def blocks : Nat → List UInt8 → List (List UInt8)
  | 0, _ => []
  | n + 1, bytes => bytes.take rate :: blocks n (bytes.drop rate)

/-- The thirty-two bytes of the hash. -/
def hash (input : List UInt8) : List UInt8 :=
  let whole := padded input
  let s := (blocks (whole.length / rate) whole).foldl absorb (Vector.replicate 25 0)
  (s.toList.take 4).flatMap bytesOfLane

end Payout.Keccak
