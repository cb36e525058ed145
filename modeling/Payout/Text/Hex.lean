/-!
# Hexadecimal text

Bytes as pairs of hexadecimal digits. Writing uses lower-case digits; reading takes either case and
refuses an odd number of digits. Main statement: reading what was written gives the bytes back.
-/

namespace Payout.Text

/-- The lower-case digit of a value below sixteen. -/
def hexDigit (n : Nat) : Char :=
  if n < 10 then Char.ofNat (48 + n) else Char.ofNat (87 + n)

/-- The value of a hexadecimal digit of either case. -/
def hexValue? (c : Char) : Option Nat :=
  if '0' ≤ c ∧ c ≤ '9' then some (c.toNat - 48)
  else if 'a' ≤ c ∧ c ≤ 'f' then some (c.toNat - 87)
  else if 'A' ≤ c ∧ c ≤ 'F' then some (c.toNat - 55)
  else none

/-- The two digits of a byte, high half first. -/
def hexOfByte (b : UInt8) : List Char :=
  [hexDigit (b.toNat / 16), hexDigit (b.toNat % 16)]

/-- Bytes as lower-case hexadecimal digits, two for each byte. -/
def hexOfBytes (bytes : List UInt8) : List Char :=
  bytes.flatMap hexOfByte

/-- The bytes that an even number of hexadecimal digits stands for. -/
def bytesOfHex? : List Char → Option (List UInt8)
  | [] => some []
  | [_] => none
  | high :: low :: rest => do
    let h ← hexValue? high
    let l ← hexValue? low
    let bytes ← bytesOfHex? rest
    pure (UInt8.ofNat (16 * h + l) :: bytes)

/-- The value of a run of hexadecimal digits read as one number. -/
def natOfHex? (digits : List Char) : Option Nat :=
  digits.foldlM (fun n c => (hexValue? c).map (16 * n + ·)) 0

/-- A number in exactly `width` lower-case hexadecimal digits, high digits first; higher digits
are dropped. -/
def hexOfNat (width n : Nat) : List Char :=
  match width with
  | 0 => []
  | width + 1 => hexOfNat width (n / 16) ++ [hexDigit (n % 16)]

/-- The digit that is written for a value below sixteen stands for that value. -/
theorem hexValue?_hexDigit {n : Nat} (h : n < 16) : hexValue? (hexDigit n) = some n := by
  have digits : ∀ m : Fin 16, hexValue? (hexDigit m.val) = some m.val := by decide
  exact digits ⟨n, h⟩

/-- Reading the digits of written bytes gives the bytes back. -/
theorem bytesOfHex?_hexOfBytes (bytes : List UInt8) :
    bytesOfHex? (hexOfBytes bytes) = some bytes := by
  induction bytes with
  | nil => rfl
  | cons b bytes ih =>
    have hb := b.toNat_lt
    have high : hexValue? (hexDigit (b.toNat / 16)) = some (b.toNat / 16) :=
      hexValue?_hexDigit (by omega)
    have low : hexValue? (hexDigit (b.toNat % 16)) = some (b.toNat % 16) :=
      hexValue?_hexDigit (by omega)
    have value : 16 * (b.toNat / 16) + b.toNat % 16 = b.toNat := by omega
    have step : hexOfBytes (b :: bytes) =
        hexDigit (b.toNat / 16) :: hexDigit (b.toNat % 16) :: hexOfBytes bytes := rfl
    rw [step, bytesOfHex?]
    simp only [high, low, ih, Option.bind_eq_bind, Option.bind_some, value, UInt8.ofNat_toNat]
    rfl

end Payout.Text
