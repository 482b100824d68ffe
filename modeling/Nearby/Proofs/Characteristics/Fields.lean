import Nearby.Proofs.Characteristics.Normal

/-!
# One field at a time

A field that has an identifier of its own is read from the characteristic with that identifier, and
from no other (`field_decode`). If there is none, or it makes no sense, the field is that of a blank
advertisement.

The identifier of the advertisement is such a field. It is all that decides whether a service carries
an advertisement at all (`identifier?`).
-/

namespace Nearby.Characteristics

/-- The built-in identifier under which a fact is told, if it is no attribute or attachment. -/
def Fact.builtIn? : Fact → Option Uuid
  | .attribute .. => none
  | .attachment .. => none
  | f => some f.uuid

variable {uuid : Uuid} {bytes : Bytes} {f : Fact}

theorem builtIn?_of_readKeyValue (h : readKeyValue bytes = .ok f) : f.builtIn? = none := by
  obtain ⟨key, text, rfl, -⟩ | ⟨name, value, rfl, -⟩ := readKeyValue_eq_ok_iff.mp h
  · rfl
  · rfl

/-- What is read under a built-in identifier is a fact with that identifier, and under any other one
it is an attribute or attachment. -/
theorem builtIn?_of_readFact (h : readFact uuid bytes = .ok f) :
    f.builtIn? = if uuid ∈ builtIn then some uuid else none := by
  by_cases hmem : uuid ∈ builtIn
  · rw [if_pos hmem]
    simp only [builtIn, List.mem_cons, List.not_mem_nil, or_false] at hmem
    rcases hmem with rfl | rfl | rfl | rfl | rfl | rfl
    · rw [readFact_idUuid] at h
      rcases hid : AdId.ofBytes? bytes with _ | adId
      · simp [hid] at h
      · simp only [hid] at h
        obtain rfl := Except.ok.inj h
        rfl
    · rw [readFact_interfaceNameUuid] at h
      obtain ⟨name, -, rfl⟩ := exists_of_map_eq_ok h
      rfl
    · rw [readFact_addressesUuid] at h
      obtain ⟨texts, -, rfl⟩ := exists_of_map_eq_ok h
      rfl
    · rw [readFact_encryptionUuid] at h
      obtain ⟨e, -, rfl⟩ := exists_of_map_eq_ok h
      rfl
    · rw [readFact_hashUuid] at h
      rcases hhash : AdHash.ofBytes? bytes with _ | adHash
      · simp [hhash] at h
      · simp only [hhash] at h
        obtain rfl := Except.ok.inj h
        rfl
    · rw [readFact_directoriesUuid] at h
      obtain ⟨texts, -, rfl⟩ := exists_of_map_eq_ok h
      rfl
  · rw [if_neg hmem]
    rw [readFact_of_notMem_builtIn hmem] at h
    exact builtIn?_of_readKeyValue h

/-- **A fact with a built-in identifier is read from the characteristic under it.** -/
theorem uuid_of_readFact {own : Uuid} (h : readFact uuid bytes = .ok f)
    (hown : f.builtIn? = some own) : uuid = own := by
  rw [builtIn?_of_readFact h] at hown
  split at hown
  · exact Option.some.inj hown
  · cases hown

section Field

variable {α : Type} (get : Advertisement → α)

/-- A field that only one identifier is about is untouched by the characteristics under others. -/
theorem get_add_of_ne {own : Uuid}
    (hget : ∀ ad f, f.builtIn? ≠ some own → get (learn ad f) = get ad) (d : Decoded)
    {entry : Uuid × Bytes} (hentry : entry.1 ≠ own) : get (d.add entry).ad = get d.ad := by
  rw [Decoded.add]
  rcases hread : readFact entry.1 entry.2 with e | f
  · rfl
  · exact hget d.ad f fun hown => hentry (uuid_of_readFact hread hown)

/-- **A field is read from its own characteristic**, and is otherwise as in a blank advertisement. -/
theorem field_decode {own : Uuid} (tell : Bytes → Option α)
    (hown : ∀ (d : Decoded) bytes, get (d.add (own, bytes)).ad = (tell bytes).getD (get d.ad))
    (hget : ∀ ad f, f.builtIn? ≠ some own → get (learn ad f) = get ad) (m : Characteristics) :
    get (decode m).ad = ((m.get? own).bind tell).getD (get .blank) := by
  have hfold : ∀ entries : List (Uuid × Bytes),
      entries.Pairwise (fun a b => compare a.1 b.1 = .lt) → ∀ d : Decoded,
      get (entries.foldl Decoded.add d).ad =
        ((Table.lookup own entries).bind tell).getD (get d.ad) := by
    intro entries hascending
    induction entries with
    | nil => exact fun _ => rfl
    | cons entry rest ih =>
      obtain ⟨hlt, hrest⟩ := List.pairwise_cons.mp hascending
      intro d
      rw [List.foldl_cons, ih hrest, Table.lookup]
      by_cases heq : compare own entry.1 = .eq
      · -- the identifiers ascend, so this one does not come again
        obtain rfl : own = entry.1 := Std.LawfulEqOrd.eq_of_compare heq
        rw [if_pos heq, Table.lookup_eq_none_of_lt hlt, Option.bind_none, Option.getD_none,
          Option.bind_some]
        exact hown d entry.2
      · have hne : entry.1 ≠ own := by
          rintro rfl
          exact heq Std.ReflOrd.compare_self
        rw [if_neg heq, get_add_of_ne get hget d hne]
  exact hfold m.entries m.ascending ⟨.blank, []⟩

end Field

/-! ## The identifier -/

/-- The identifier that characteristics tell: one of the right length, and not zero. -/
def identifier? (m : Characteristics) : Option AdId :=
  ((m.get? idUuid).bind AdId.ofBytes?).filter fun adId => !adId.isZero

theorem id_decode (m : Characteristics) :
    (decode m).ad.id = ((m.get? idUuid).bind AdId.ofBytes?).getD default := by
  refine field_decode Advertisement.id AdId.ofBytes? (fun d bytes => ?_) (fun ad f hf => ?_) m
  · rw [Decoded.add, readFact_idUuid]
    rcases AdId.ofBytes? bytes with _ | adId
    · rfl
    · rfl
  · cases f with
    | id adId => exact absurd rfl hf
    | _ => rfl

/-- **What is decoded has an identifier exactly if the characteristics tell one**, and then it is that
one. -/
theorem identifier?_eq (m : Characteristics) :
    identifier? m = if (decode m).ad.id.isZero then none else some (decode m).ad.id := by
  rw [identifier?, id_decode]
  rcases (m.get? idUuid).bind AdId.ofBytes? with _ | adId
  · rfl
  · rcases hzero : adId.isZero with _ | _
    · simp [hzero]
    · simp [hzero]

end Nearby.Characteristics
