/-!
# The last word

Of what a list has to say, often only the last counts: the stamp that a peer announced last, the value
that was read last. `lastSome` looks for it.
-/

namespace Nearby

/-- The last that a list has to say. -/
def lastSome {α β : Type} (f : α → Option β) (l : List α) : Option β := l.reverse.findSome? f

section LastSome

variable {α β : Type} (f : α → Option β)

/-- The second list has the last word, if it has any. -/
theorem lastSome_append (a b : List α) : lastSome f (a ++ b) = (lastSome f b).or (lastSome f a) := by
  rw [lastSome, List.reverse_append, List.findSome?_append, lastSome, lastSome]

/-- The head of a list is heard last. -/
theorem lastSome_cons (x : α) (l : List α) : lastSome f (x :: l) = (lastSome f l).or (f x) := by
  rw [lastSome, List.reverse_cons, List.findSome?_append, List.findSome?_singleton, lastSome]

variable {f}

/-- A list has nothing to say if nobody in it has. -/
theorem lastSome_eq_none_iff {l : List α} : lastSome f l = none ↔ ∀ x ∈ l, f x = none := by
  simp only [lastSome, List.findSome?_eq_none_iff, List.mem_reverse]

/-- Somebody has the last word. -/
theorem exists_of_lastSome {l : List α} {b : β} (h : lastSome f l = some b) :
    ∃ x ∈ l, f x = some b := by
  obtain ⟨x, hx, hb⟩ := List.exists_of_findSome?_eq_some h
  exact ⟨x, List.mem_reverse.mp hx, hb⟩

/-- Who has the last word is followed by nobody who has one. -/
theorem lastSome_eq_some_iff {l : List α} {b : β} :
    lastSome f l = some b ↔
      ∃ before x behind, l = before ++ x :: behind ∧ f x = some b ∧ ∀ y ∈ behind, f y = none := by
  constructor
  · intro h
    obtain ⟨behind, x, before, hl, hx, hbehind⟩ := List.findSome?_eq_some_iff.mp h
    refine ⟨before.reverse, x, behind.reverse, ?_, hx, fun y hy => hbehind y (List.mem_reverse.mp hy)⟩
    rw [← List.reverse_inj, hl]
    simp
  · rintro ⟨before, x, behind, rfl, hx, hbehind⟩
    rw [lastSome_append, lastSome_cons, lastSome_eq_none_iff.mpr hbehind, hx]
    rfl

/-- The last word is yes exactly if somebody said so and nobody said no afterwards. -/
theorem lastSome_eq_true_iff {f : α → Option Bool} {l : List α} :
    lastSome f l = some true ↔
      ∃ a x b, l = a ++ x :: b ∧ f x = some true ∧ ∀ y ∈ b, f y ≠ some false := by
  constructor
  · intro h
    obtain ⟨a, x, b, hl, hx, hb⟩ := lastSome_eq_some_iff.mp h
    refine ⟨a, x, b, hl, hx, fun y hy hfalse => ?_⟩
    cases (hb y hy).symm.trans hfalse
  · rintro ⟨a, x, b, rfl, hx, hb⟩
    rw [lastSome_append, lastSome_cons, hx]
    rcases hlast : lastSome f b with _ | _ | _
    · rfl
    · obtain ⟨y, hy, hfalse⟩ := exists_of_lastSome hlast
      exact absurd hfalse (hb y hy)
    · rfl

end LastSome

end Nearby
