import Payout.Evm.Curve
import Payout.Evm.Keccak
import Payout.Text.Hex

/-!
# Addresses and keys

Twenty bytes that name an account or a contract, and thirty-two that sign for one. Both are read
from hexadecimal digits, with or without `0x` before them. An address is written with letters whose
case is a checksum.
-/

namespace Payout

/-- Why a text is not the bytes that were asked for. -/
inductive HexError where
  | oddLength
  | wrongLength
  /-- A character is not a hexadecimal digit. -/
  | badCharacter (c : Char) (position : Nat)
deriving DecidableEq

def HexError.message : HexError → String
  | oddLength => "odd number of digits"
  | wrongLength => "invalid string length"
  | badCharacter c position => s!"invalid character {c.quote} at position {position}"

/-- Text without `0x` or `0X` at its start. -/
def Text.dropAnyHexMark : List Char → List Char
  | '0' :: 'x' :: rest => rest
  | '0' :: 'X' :: rest => rest
  | text => text

/-- The bytes of a text, each as the character of its value. -/
def Text.byteChars (text : List Char) : List Char :=
  (String.ofList text).toUTF8.data.toList.map fun b => Char.ofNat b.toNat

/-- Reads `count` bytes from hexadecimal digits. The length is looked at before the digits. -/
def Text.fixedBytes (count : Nat) (text : String) : Except HexError (List UInt8) :=
  let digits := byteChars (dropAnyHexMark text.toList)
  if digits.length % 2 = 1 then .error .oddLength
  else if digits.length ≠ 2 * count then .error .wrongLength
  else
    match digits.zipIdx.find? fun d => (hexValue? d.1).isNone with
    | some (c, position) => .error (.badCharacter c position)
    | none =>
      match bytesOfHex? digits with
      | some bytes => .ok bytes
      | none => .error .wrongLength

/-- An account or a contract. -/
structure Address where
  bytes : List UInt8
deriving DecidableEq

namespace Address

def read (text : String) : Except HexError Address := mk <$> Text.fixedBytes 20 text

/-- The address in lower-case digits after `0x`. -/
def lowerText (a : Address) : String := String.ofList ('0' :: 'x' :: Text.hexOfBytes a.bytes)

/-- A digit as the checksum wants it: a letter is upper case where the hash of all digits has a high
digit. -/
def checksumDigit (digit hashDigit : Char) : Char :=
  if 8 ≤ (Text.hexValue? hashDigit).getD 0 then digit.toUpper else digit

/-- The address with the case of its letters as a checksum, after `0x`. -/
def text (a : Address) : String :=
  let digits := Text.hexOfBytes a.bytes
  let hash := Text.hexOfBytes (Keccak.hash (digits.map fun c => UInt8.ofNat c.toNat))
  String.ofList ('0' :: 'x' :: digits.zipWith checksumDigit hash)

end Address

/-- A private key: a number from one to below the order of the curve. -/
structure PrivateKey where
  value : Nat
deriving DecidableEq

/-- Why a text is not a private key. -/
inductive KeyError where
  | digits (e : HexError)
  | outOfRange
deriving DecidableEq

def KeyError.message : KeyError → String
  | digits e => e.message
  | outOfRange => "signature error"

namespace PrivateKey

def read (text : String) : Except KeyError PrivateKey :=
  match Text.fixedBytes 32 text with
  | .error e => .error (.digits e)
  | .ok bytes =>
    let n := bytes.foldl (fun n b => 256 * n + b.toNat) 0
    if 0 < n ∧ n < Curve.order then .ok ⟨n⟩ else .error .outOfRange

/-- The address that a key signs for: the end of the hash of its public point. -/
def address (k : PrivateKey) : Address :=
  match Curve.publicPoint k.value with
  | none => ⟨List.replicate 20 0⟩
  | some (x, y) => ⟨(Keccak.hash (Curve.coordinateBytes x ++ Curve.coordinateBytes y)).drop 12⟩

end PrivateKey

end Payout
