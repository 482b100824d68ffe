import Nearby.Digest.Sha1
import Nearby.Octets.Hex
import Nearby.Text.Utf8

/-!
# Universally unique identifiers

Services and characteristics are named by 128-bit identifiers. Some are fixed; others are derived
from a name within a namespace (version 5), so that every device computes the same identifier for
the same name. A derived identifier carries the digit 5 as its version, which keeps it apart from
identifiers of another version.
-/

namespace Nearby

/-- A 128-bit identifier. -/
structure Uuid where
  octets : Octets 16
  deriving DecidableEq, Inhabited

namespace Uuid

instance : Ord Uuid := ⟨fun a b => compare a.octets b.octets⟩

instance : Std.TransOrd Uuid := transOrd_of_key Uuid.octets fun _ _ => rfl

instance : Std.LawfulEqOrd Uuid :=
  lawfulEqOrd_of_key Uuid.octets (fun _ _ => rfl) fun a b h => by cases a; cases b; cases h; rfl

/-- The identifier with the given 128-bit value. -/
def ofNat (value : Nat) : Uuid := ⟨.ofNat value⟩

/-- The bytes of an identifier. -/
def bytes (u : Uuid) : Bytes := u.octets.bytes

/-- The byte at an index, counted from the most significant one. -/
def byteAt (u : Uuid) (index : Nat) : UInt8 := u.bytes.getD index 0

/-- The version: the high digit of the seventh byte. -/
def version (u : Uuid) : Nat := (u.byteAt 6).toNat / 16

/-- Marks sixteen bytes of a digest as a version 5 identifier: the version takes the high digit of
the seventh byte, and the two high bits of the ninth name the layout. -/
def markDerived (bytes : Bytes) : Bytes :=
  (bytes.modify 6 fun b => (b &&& 0x0F) ||| 0x50).modify 8 fun b => (b &&& 0x3F) ||| 0x80

/-- The identifier derived from a name within a namespace. -/
def derive (space : Uuid) (name : Bytes) : Uuid :=
  ⟨markDerived ((Digest.Sha1.digest (space.bytes ++ name)).bytes.take 16), by
    simp [markDerived, (Digest.Sha1.digest (space.bytes ++ name)).length_bytes]⟩

/-- The text form: lower-case digits in groups of 8, 4, 4, 4 and 12. -/
def text (u : Uuid) : String :=
  let digits := Hex.digits u.bytes
  let group (start length : Nat) := String.ofList ((digits.drop start).take length)
  "-".intercalate [group 0 8, group 8 4, group 12 4, group 16 4, group 20 12]

/-- Reads an identifier, with or without hyphens, in digits of either case. -/
def ofText? (text : String) : Option Uuid := do
  let bytes ← Hex.ofDigits? (text.toList.filter (· != '-'))
  let octets ← Octets.ofBytes? bytes
  pure ⟨octets⟩

end Uuid

end Nearby
