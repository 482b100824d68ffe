import Nearby.Octets.Hex

/-!
# Stamps

A device broadcasts a stamp beside the services it publishes: as long as the stamp stays, so does
the published set. The stamp travels in the manufacturer data of a broadcast, behind a byte that
tells its length.
-/

namespace Nearby

/-- The token a device draws anew whenever its published set changes. -/
structure Stamp where
  value : UInt64
  deriving DecidableEq, Repr, Inhabited

namespace Stamp

instance : Ord Stamp := ⟨fun a b => compare a.value b.value⟩

instance : Std.TransOrd Stamp := transOrd_of_key Stamp.value fun _ _ => rfl

instance : Std.LawfulEqOrd Stamp :=
  lawfulEqOrd_of_key Stamp.value (fun _ _ => rfl) fun a b h => by cases a; cases b; cases h; rfl

/-- The length of a stamp in bytes. -/
def byteLength : Nat := 8

/-- The length of a payload that holds nothing but a stamp. -/
def payloadLength : Nat := 1 + byteLength

/-- The bytes of a stamp. -/
def bytes (s : Stamp) : Bytes := bigEndian byteLength s.value.toNat

/-- The stamp with the given bytes. -/
def ofBytes (bytes : Bytes) : Stamp := ⟨UInt64.ofNat (ofBigEndian bytes)⟩

/-- The text form: sixteen lower-case digits. -/
def text (s : Stamp) : String := Hex.encode s.bytes

/-- The broadcast payload that announces a stamp. -/
def payload (s : Stamp) : Bytes := UInt8.ofNat byteLength :: s.bytes

/-- The stamp a broadcast payload announces; bytes behind the stamp are left alone. -/
def ofPayload? : Bytes → Option Stamp
  | [] => none
  | length :: rest =>
    if length.toNat = byteLength ∧ byteLength ≤ rest.length then
      some (ofBytes (rest.take byteLength))
    else none

end Stamp

end Nearby
