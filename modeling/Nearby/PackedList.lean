import Nearby.Varint

/-!
# Packed lists

A list of byte strings is packed into one: every item follows its own length.
-/

namespace Nearby.PackedList

/-- Why a byte string is no packed list. -/
inductive Fault
  /-- The bytes end inside the length of an item. -/
  | truncatedLength
  /-- Fewer bytes are left than the item is long. -/
  | lengthExceedsPayload
  deriving DecidableEq, Repr

/-- What is wrong, in words. -/
def Fault.message : Fault → String
  | .truncatedLength => "truncated length prefix"
  | .lengthExceedsPayload => "length prefix exceeds payload"

/-- Packs a list of byte strings. -/
def pack (items : List Bytes) : Bytes :=
  items.flatMap fun item => Varint.encode (UInt64.ofNat item.length) ++ item

/-- Reads at most `fuel` items. -/
def unpackFrom : (fuel : Nat) → Bytes → Except Fault (List Bytes)
  | _, [] => .ok []
  | 0, _ :: _ => .ok []
  | fuel + 1, bytes@(_ :: _) =>
    match Varint.read? bytes with
    | none => .error .truncatedLength
    | some (length, rest) =>
      if length.toNat ≤ rest.length then
        (unpackFrom fuel (rest.drop length.toNat)).map (rest.take length.toNat :: ·)
      else .error .lengthExceedsPayload

/-- Reads the items of a packed list, to the last byte. An item takes at least the byte of its
length, so there are no more items than bytes. -/
def unpack (bytes : Bytes) : Except Fault (List Bytes) := unpackFrom bytes.length bytes

end Nearby.PackedList
