import Nearby.Proofs.Characteristics.RoundTrip

/-!
# Reading with gaps

Of the characteristics of an advertisement some may be missing, as a reader goes on when one of them
cannot be read. What is left tells the facts that are left, and there is nothing to complain about
(`decode_filter`): a fact that is not told looks like one that is not there.

A field that one characteristic tells is read if that characteristic is there
(`field_decode_filter`). Identifier and hash, the key of an advertisement, are such fields, and so what
is read with gaps may well have the key of the whole.
-/

namespace Nearby.Characteristics

/-! ## Some of the facts -/

/-- Characteristics that tell facts may be taken into account in any order, as long as their
identifiers differ. -/
theorem foldl_add_of_perm {entries : List (Uuid × Bytes)} {fs : List Fact}
    (hperm : entries.Perm (fs.map Fact.entry)) (htell : ∀ f ∈ fs, f.IsTellable)
    (hnodup : (fs.map Fact.uuid).Nodup) (d : Decoded) :
    entries.foldl Decoded.add d = { d with ad := fs.foldl learn d.ad } := by
  rw [hperm.foldl_eq' ?_, foldl_add_entries fs htell]
  intro x hx y hy d
  obtain ⟨f, hf, rfl⟩ := List.mem_map.mp (hperm.mem_iff.mp hx)
  obtain ⟨g, hg, rfl⟩ := List.mem_map.mp (hperm.mem_iff.mp hy)
  rw [add_entry (htell f hf), add_entry (htell g hg), add_entry (htell g hg),
    add_entry (htell f hf)]
  by_cases huuid : f.uuid = g.uuid
  · rw [List.inj_on_of_nodup_map hnodup hf hg huuid]
  · exact congrArg (fun a => { d with ad := a }) (learn_comm huuid d.ad)

/-- The facts that are told by the characteristics that are there. -/
def factsLeft (ad : Advertisement) (present : Uuid → Bool) : List Fact :=
  (facts ad).filter fun f => present f.uuid

variable {ad : Advertisement} {m : Characteristics}

/-- **What is left of the characteristics tells the facts that are left**, with nothing skipped. -/
theorem decode_filter (hencode : encode ad = .ok m) (hapart : TellsApart (wireKeys ad))
    (present : Uuid → Bool) :
    decode (m.filter fun uuid _ => present uuid) =
      ⟨(factsLeft ad present).foldl learn .blank, []⟩ := by
  obtain ⟨-, htell⟩ := encode_eq_ok_iff.mp hencode
  have hperm := (perm_of_encode hencode hapart).filter fun e => present e.1
  rw [List.filter_map] at hperm
  exact foldl_add_of_perm hperm (fun f hf => htell f (List.mem_of_mem_filter hf))
    ((nodup_uuids htell hapart).sublist (List.filter_sublist.map _)) _

/-- Where nothing is missing, the advertisement is read as a whole. -/
theorem decode_eq_of_told (hencode : encode ad = .ok m) (hapart : TellsApart (wireKeys ad))
    (hkept : ad.lost = false) : decode m = ⟨ad, []⟩ := by
  have hall : m.filter (fun _ _ => true) = m := by
    refine Table.ext_get? fun uuid => ?_
    rw [Table.get?_filter]
    rcases m.get? uuid with _ | value
    · rfl
    · rfl
  rw [← hall, decode_filter hencode hapart fun _ => true, factsLeft, List.filter_true,
    foldl_learn_facts hkept]

/-! ## The key -/

theorem id_mem_facts (ad : Advertisement) : .id ad.id ∈ facts ad := by
  simp [facts, fixedFacts]

theorem hash_mem_facts (ad : Advertisement) : .hash ad.hash ∈ facts ad := by
  simp [facts, fixedFacts]

/-- There is one fact about the identifier. -/
theorem eq_id_of_mem_facts {adId : AdId} (h : .id adId ∈ facts ad) : adId = ad.id := by
  simpa [facts, fixedFacts, attributeFacts, attachmentFacts] using h

theorem eq_hash_of_mem_facts {adHash : AdHash} (h : .hash adHash ∈ facts ad) :
    adHash = ad.hash := by
  simpa [facts, fixedFacts, attributeFacts, attachmentFacts] using h

/-- What can be encoded has an identifier. -/
theorem isZero_id_of_encode (hencode : encode ad = .ok m) : ad.id.isZero = false :=
  ((encode_eq_ok_iff.mp hencode).2 _ (id_mem_facts ad)).1

/-- A field that no fact but one is about is known exactly if that fact is among those learnt. -/
theorem foldl_learn_field {α : Type} (get : Advertisement → α) {told : Fact} {fs : List Fact}
    (htold : ∀ a, get (learn a told) = get ad)
    (hother : ∀ f ∈ fs, f ≠ told → ∀ a, get (learn a f) = get a) (a : Advertisement) :
    get (fs.foldl learn a) = if told ∈ fs then get ad else get a := by
  induction fs generalizing a with
  | nil => rfl
  | cons f rest ih =>
    obtain ⟨hf, hrest⟩ := List.forall_mem_cons.mp hother
    rw [List.foldl_cons, ih hrest]
    by_cases hlater : told ∈ rest
    · rw [if_pos hlater, if_pos (List.mem_cons_of_mem _ hlater)]
    · rw [if_neg hlater]
      by_cases hnow : f = told
      · rw [if_pos (hnow ▸ List.mem_cons_self), hnow, htold]
      · rw [if_neg (List.not_mem_cons_of_ne_of_not_mem (Ne.symm hnow) hlater), hf hnow]

/-- **A field that one fact is about is read if the characteristic of that fact is there**, whatever
else is missing. -/
theorem field_decode_filter (hencode : encode ad = .ok m) (hapart : TellsApart (wireKeys ad))
    {α : Type} (get : Advertisement → α) {told : Fact} (hfact : told ∈ facts ad)
    (htold : ∀ a, get (learn a told) = get ad)
    (hother : ∀ f ∈ facts ad, f ≠ told → ∀ a, get (learn a f) = get a) (present : Uuid → Bool) :
    get (decode (m.filter fun uuid _ => present uuid)).ad =
      if present told.uuid = true then get ad else get .blank := by
  have hleft : told ∈ factsLeft ad present ↔ present told.uuid = true := by
    rw [factsLeft, List.mem_filter, and_iff_right hfact]
  rw [decode_filter hencode hapart, foldl_learn_field get htold]
  · simp only [hleft]
  · exact fun f hf => hother f (List.mem_of_mem_filter hf)

/-- What is missing from a fetch leaves its field empty, the identifier among them. -/
theorem id_decode_filter (hencode : encode ad = .ok m) (hapart : TellsApart (wireKeys ad))
    (present : Uuid → Bool) :
    (decode (m.filter fun uuid _ => present uuid)).ad.id =
      if present idUuid = true then ad.id else default := by
  refine field_decode_filter hencode hapart Advertisement.id (id_mem_facts ad) (fun _ => rfl) ?_ _
  intro f hf hne a
  cases f with
  | id adId => exact absurd (congrArg _ (eq_id_of_mem_facts hf)) hne
  | _ => rfl

/-- The hash is not computed from what was read: it is read itself. -/
theorem hash_decode_filter (hencode : encode ad = .ok m) (hapart : TellsApart (wireKeys ad))
    (present : Uuid → Bool) :
    (decode (m.filter fun uuid _ => present uuid)).ad.hash =
      if present hashUuid = true then ad.hash else default := by
  refine field_decode_filter hencode hapart Advertisement.hash (hash_mem_facts ad) (fun _ => rfl) ?_ _
  intro f hf hne a
  cases f with
  | hash adHash => exact absurd (congrArg _ (eq_hash_of_mem_facts hf)) hne
  | _ => rfl

end Nearby.Characteristics
