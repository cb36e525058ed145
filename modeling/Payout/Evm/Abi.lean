import Payout.Evm.Address

/-!
# Contract calls as bytes

A call is four bytes that name the function and its arguments in words of thirty-two bytes. Text
takes a word with the place where it starts; its length and its bytes follow the other arguments.
-/

namespace Payout.Abi

/-- An argument of a call. -/
inductive Argument where
  | address (a : Address)
  | number (n : Nat)
  | text (s : String)

def Argument.typeName : Argument → String
  | address _ => "address"
  | number _ => "uint256"
  | text _ => "string"

/-- A number in a word, the highest byte first. -/
def word (n : Nat) : List UInt8 := Curve.coordinateBytes n

/-- Bytes filled up with zeros to whole words. -/
def filled (bytes : List UInt8) : List UInt8 :=
  bytes ++ List.replicate ((32 - bytes.length % 32) % 32) 0

def textBytes (s : String) : List UInt8 := s.toUTF8.data.toList

/-- What follows the words of all arguments for one of them. -/
def tail : Argument → List UInt8
  | .text s => word (textBytes s).length ++ filled (textBytes s)
  | _ => []

/-- The words of arguments, given where the next tail starts. -/
def heads : Nat → List Argument → List UInt8
  | _, [] => []
  | start, .address a :: rest => List.replicate 12 0 ++ a.bytes ++ heads start rest
  | start, .number n :: rest => word n ++ heads start rest
  | start, .text s :: rest => word start ++ heads (start + (tail (.text s)).length) rest

/-- The bytes of arguments. -/
def encode (arguments : List Argument) : List UInt8 :=
  heads (32 * arguments.length) arguments ++ arguments.flatMap tail

/-- The four bytes that name a function. -/
def selector (name : String) (arguments : List Argument) : List UInt8 :=
  let types := ",".intercalate (arguments.map Argument.typeName)
  (Keccak.hash (textBytes s!"{name}({types})")).take 4

/-- The bytes of a call. -/
def call (name : String) (arguments : List Argument) : List UInt8 :=
  selector name arguments ++ encode arguments

/-- The number in the first word of an answer; none if the answer is shorter than a word. -/
def firstWord? (answer : List UInt8) : Option Nat :=
  if answer.length < 32 then none
  else some ((answer.take 32).foldl (fun n b => 256 * n + b.toNat) 0)

end Payout.Abi
