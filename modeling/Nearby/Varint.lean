import Nearby.Octets

/-!
# Numbers of variable length

A number of up to 64 bits is written in groups of seven bits, least significant group first; every
byte but the last has its high bit set. A reader takes at most ten bytes. Of the tenth only the bit
that still fits a 64-bit word is kept.
-/

namespace Nearby.Varint

/-- The most bytes a number takes. -/
def maxLength : Nat := 10

/-- Writes a number in at most `fuel` groups. -/
def groups : (fuel : Nat) → (value : Nat) → Bytes
  | 0, _ => []
  | fuel + 1, value =>
    if value < 128 then [UInt8.ofNat value]
    else UInt8.ofNat (value % 128 + 128) :: groups fuel (value / 128)

/-- Writes a number. -/
def encode (value : UInt64) : Bytes := groups maxLength value.toNat

/-- True for a byte that is followed by another one of the same number. -/
def isContinued (byte : UInt8) : Bool := 128 ≤ byte

/-- Reads groups from bit `shift` on into `value`, from at most `fuel` bytes. -/
def readGroups : (fuel : Nat) → (shift : UInt64) → (value : UInt64) → Bytes → Option (UInt64 × Bytes)
  | 0, _, _, _ => none
  | _, _, _, [] => none
  | fuel + 1, shift, value, byte :: rest =>
    let value := value ||| ((byte &&& 0x7F).toUInt64 <<< shift)
    if isContinued byte then readGroups fuel (shift + 7) value rest else some (value, rest)

/-- Reads a number from the front of a byte string, and gives the bytes behind it; there is none if
the bytes, or the ten bytes a number may take, end before the number does. -/
def read? (bytes : Bytes) : Option (UInt64 × Bytes) := readGroups maxLength 0 0 bytes

end Nearby.Varint
