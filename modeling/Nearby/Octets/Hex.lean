import Nearby.Octets

/-!
# Hexadecimal text

Identifiers are shown to people as hexadecimal text: two lower-case digits a byte. Reading takes
digits of either case.
-/

namespace Nearby.Hex

/-- The lower-case digit of a number below sixteen. -/
def digit (value : Nat) : Char :=
  if value < 10 then Char.ofNat (48 + value) else Char.ofNat (87 + value)

/-- The number a digit of either case stands for. -/
def digit? (c : Char) : Option Nat :=
  if '0' ≤ c ∧ c ≤ '9' then some (c.toNat - 48)
  else if 'a' ≤ c ∧ c ≤ 'f' then some (c.toNat - 87)
  else if 'A' ≤ c ∧ c ≤ 'F' then some (c.toNat - 55)
  else none

/-- The digits of a byte string, two a byte. -/
def digits (bytes : Bytes) : List Char :=
  bytes.flatMap fun byte => [digit (byte.toNat / 16), digit (byte.toNat % 16)]

/-- Writes a byte string, two lower-case digits a byte. -/
def encode (bytes : Bytes) : String := String.ofList (digits bytes)

/-- Reads pairs of digits; there is no value if a digit is missing or foreign. -/
def ofDigits? : List Char → Option Bytes
  | [] => some []
  | [_] => none
  | high :: low :: rest => do
    let high ← digit? high
    let low ← digit? low
    let rest ← ofDigits? rest
    pure (UInt8.ofNat (high * 16 + low) :: rest)

/-- Reads hexadecimal text of either case. -/
def decode? (text : String) : Option Bytes := ofDigits? text.toList

end Nearby.Hex
