/-!
# Orders read off a key

The identifiers of this library wrap a byte string, a number or a text, and are ordered as what they
wrap. The two lemmas here carry the laws of an order over from the wrapped value to the wrapper.
-/

namespace Nearby

variable {α β : Type} [Ord α] [Ord β] (key : α → β)

/-- Values compared by a key are ordered transitively as soon as the keys are. -/
theorem transOrd_of_key [Std.TransOrd β] (h : ∀ a b : α, compare a b = compare (key a) (key b)) :
    Std.TransOrd α where
  eq_swap {a b} := by rw [h, h b a]; exact Std.OrientedCmp.eq_swap
  isLE_trans {a b c} := by rw [h, h b c, h a c]; exact Std.TransCmp.isLE_trans

/-- Values compared by a key that tells them apart are equal as soon as they compare equal. -/
theorem lawfulEqOrd_of_key [Std.LawfulEqOrd β]
    (h : ∀ a b : α, compare a b = compare (key a) (key b))
    (injective : ∀ a b : α, key a = key b → a = b) : Std.LawfulEqOrd α where
  compare_self {a} := by rw [h]; exact Std.ReflCmp.compare_self
  eq_of_compare {a b} hab := injective a b (Std.LawfulEqOrd.eq_of_compare (by rw [← h]; exact hab))

end Nearby
