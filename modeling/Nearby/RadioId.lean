import Nearby.Order

/-!
# Radio identifiers

The radio names every device it hears. The name is often an address that changes over time, so it
stands for an encounter rather than for a device.
-/

namespace Nearby

/-- The name the radio gives to a remote device. -/
structure RadioId where
  text : String
  deriving DecidableEq, Repr, Inhabited

namespace RadioId

/-! Names are ordered by code point, which is the order of their UTF-8 bytes. -/

instance : Ord RadioId := ⟨fun a b => compare a.text b.text⟩

instance : Std.TransOrd RadioId := transOrd_of_key RadioId.text fun _ _ => rfl

instance : Std.LawfulEqOrd RadioId :=
  lawfulEqOrd_of_key RadioId.text (fun _ _ => rfl) fun a b h => by cases a; cases b; cases h; rfl

end RadioId

end Nearby
