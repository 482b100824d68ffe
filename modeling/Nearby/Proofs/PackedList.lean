import Mathlib.Data.List.Forall2
import Nearby.PackedList
import Nearby.Proofs.Varint

/-!
# Packed lists are rows of segments

A segment is an item behind a numeral that tells its length (`IsSegment`). The reader takes one segment
at a time off the front (`unpack_segment`), until nothing is left or no segment begins (`IsStuck`). So
it reads a list exactly from the bytes that divide into segments, one for each item
(`unpack_takes_segments`).

A numeral may be longer than it has to be, so there are many ways to pack a list. None of them is
shorter than `pack`, whose segments have the shortest numerals.
-/

namespace Nearby.PackedList

/-! ## Segments -/

/-- An item behind bytes that are read, to the last of them, as its length. -/
def IsSegment (segment item : Bytes) : Prop :=
  ∃ numeral length, segment = numeral ++ item ∧ Varint.read? numeral = some (length, []) ∧
    length.toNat = item.length

/-- The bytes divide into segments, one for each item, without a gap and with nothing left over. -/
def DividesInto (bytes : Bytes) (items : List Bytes) : Prop :=
  ∃ segments, bytes = segments.flatten ∧ List.Forall₂ IsSegment segments items

/-- There are bytes, but no segment begins with them, for the reason given. -/
def IsStuck (bytes : Bytes) : Fault → Prop
  | .truncatedLength => bytes ≠ [] ∧ Varint.read? bytes = none
  | .lengthExceedsPayload =>
    ∃ length rest, Varint.read? bytes = some (length, rest) ∧ rest.length < length.toNat

variable {bytes segment item front tail rest : Bytes} {items : List Bytes}

theorem dividesInto_nil : DividesInto [] [] := ⟨[], rfl, .nil⟩

/-- A segment in front adds its item. -/
theorem DividesInto.cons (hsegment : IsSegment segment item) (h : DividesInto bytes items) :
    DividesInto (segment ++ bytes) (item :: items) := by
  obtain ⟨segments, rfl, hitems⟩ := h
  exact ⟨segment :: segments, rfl, .cons hsegment hitems⟩

/-- Segment by segment: the induction that follows a division. -/
theorem DividesInto.induction
    {motive : (bytes : Bytes) → (items : List Bytes) → DividesInto bytes items → Prop}
    (nil : motive [] [] dividesInto_nil)
    (cons : ∀ segment item bytes items (hsegment : IsSegment segment item)
      (h : DividesInto bytes items), motive bytes items h →
      motive (segment ++ bytes) (item :: items) (h.cons hsegment))
    (h : DividesInto bytes items) : motive bytes items h := by
  obtain ⟨segments, rfl, hitems⟩ := h
  induction hitems with
  | nil => exact nil
  | cons hsegment hitems ih => exact cons _ _ _ _ hsegment ⟨_, rfl, hitems⟩ ih

/-- The length of an item fits into a word. -/
theorem IsSegment.length_lt (h : IsSegment segment item) : item.length < UInt64.size := by
  obtain ⟨numeral, length, -, -, hlength⟩ := h
  exact hlength ▸ length.toNat_lt_size

/-- The length in front of a segment is read, and the item follows. -/
theorem IsSegment.read? (h : IsSegment segment item) (rest : Bytes) :
    ∃ length, Varint.read? (segment ++ rest) = some (length, item ++ rest) ∧
      length.toNat = item.length := by
  obtain ⟨numeral, length, rfl, hread, hlength⟩ := h
  refine ⟨length, ?_, hlength⟩
  rw [List.append_assoc]
  exact Varint.read?_append hread (item ++ rest)

/-- A number and as many bytes behind it as it says are a segment. -/
theorem exists_isSegment {length : UInt64} (hread : Varint.read? bytes = some (length, rest))
    (hfits : length.toNat ≤ rest.length) :
    ∃ segment, bytes = segment ++ rest.drop length.toNat ∧
      IsSegment segment (rest.take length.toNat) := by
  obtain ⟨numeral, rfl, hnumeral⟩ := Varint.exists_numeral_of_read? hread
  refine ⟨numeral ++ rest.take length.toNat, ?_, numeral, length, rfl, hnumeral, ?_⟩
  · rw [List.append_assoc, List.take_append_drop]
  · rw [List.length_take, Nat.min_eq_left hfits]

theorem IsSegment.length_pos (h : IsSegment segment item) : 0 < segment.length := by
  obtain ⟨numeral, length, rfl, hread, -⟩ := h
  have hnumeral := Varint.length_lt_of_read? hread
  rw [List.length_append]
  omega

/-- A segment begins wherever there are bytes, unless the reader is stuck there. -/
theorem segment_or_stuck (bytes : Bytes) :
    bytes = [] ∨ (∃ fault, IsStuck bytes fault) ∨
      ∃ segment item rest, bytes = segment ++ rest ∧ IsSegment segment item := by
  rcases Decidable.em (bytes = []) with hnil | hne
  · exact .inl hnil
  refine .inr ?_
  rcases hread : Varint.read? bytes with _ | ⟨length, rest⟩
  · exact .inl ⟨.truncatedLength, hne, hread⟩
  rcases Nat.lt_or_ge rest.length length.toNat with hshort | hfits
  · exact .inl ⟨.lengthExceedsPayload, length, rest, hread, hshort⟩
  · obtain ⟨segment, hbytes, hsegment⟩ := exists_isSegment hread hfits
    exact .inr ⟨segment, _, _, hbytes, hsegment⟩

/-! ## The reader, one segment at a time -/

/-- An item takes at least the byte of its length, so fuel for a turn a byte is enough, and what is
beyond that changes nothing. -/
theorem unpackFrom_of_le {fuel : Nat} (h : bytes.length ≤ fuel) :
    unpackFrom fuel bytes = unpack bytes := by
  suffices hsame : ∀ fuel' : Nat, bytes.length ≤ fuel' →
      unpackFrom fuel bytes = unpackFrom fuel' bytes from hsame _ (Nat.le_refl _)
  -- on the fuel of the one reader, for every reader with enough of its own
  induction fuel generalizing bytes with
  | zero =>
    intro fuel' _
    obtain rfl := List.eq_nil_of_length_eq_zero (Nat.le_zero.mp h)
    cases fuel' <;> rfl
  | succ fuel ih =>
    intro fuel' h'
    cases bytes with
    | nil => cases fuel' <;> rfl
    | cons byte bytes =>
      obtain ⟨fuel', rfl⟩ : ∃ n, fuel' = n + 1 := ⟨fuel' - 1, by rw [List.length_cons] at h'; omega⟩
      rw [unpackFrom, unpackFrom]
      rcases hread : Varint.read? (byte :: bytes) with _ | ⟨length, rest⟩
      · rfl
      · have hshorter := Varint.length_lt_of_read? hread
        have hdrop : (rest.drop length.toNat).length ≤ rest.length := by
          rw [List.length_drop]
          exact Nat.sub_le ..
        simp only
        rw [ih (by omega) fuel' (by omega)]

/-- There is nothing in no bytes. -/
theorem unpack_nil : unpack [] = .ok [] := rfl

/-- What the reader does when there are bytes. -/
theorem unpack_of_ne_nil (h : bytes ≠ []) :
    unpack bytes = match Varint.read? bytes with
      | none => .error .truncatedLength
      | some (length, rest) =>
        if length.toNat ≤ rest.length then
          (unpack (rest.drop length.toNat)).map (rest.take length.toNat :: ·)
        else .error .lengthExceedsPayload := by
  obtain ⟨byte, others, rfl⟩ := List.exists_cons_of_ne_nil h
  rw [unpack, List.length_cons, unpackFrom]
  rcases hread : Varint.read? (byte :: others) with _ | ⟨length, rest⟩
  · rfl
  · have hshorter := Varint.length_lt_of_read? hread
    rw [List.length_cons] at hshorter
    simp only
    rw [unpackFrom_of_le]
    rw [List.length_drop]
    omega

/-- What no segment begins is not unpacked. -/
theorem unpack_of_isStuck {fault : Fault} (h : IsStuck bytes fault) :
    unpack bytes = .error fault := by
  cases fault with
  | truncatedLength =>
    obtain ⟨hne, hread⟩ := h
    rw [unpack_of_ne_nil hne, hread]
  | lengthExceedsPayload =>
    obtain ⟨length, rest, hread, hshort⟩ := h
    have hne : bytes ≠ [] := by
      rintro rfl
      cases hread
    rw [unpack_of_ne_nil hne, hread]
    exact if_neg (Nat.not_le.mpr hshort)

/-- The first segment is unpacked before the rest. -/
theorem unpack_segment (h : IsSegment segment item) (rest : Bytes) :
    unpack (segment ++ rest) = (unpack rest).map (item :: ·) := by
  obtain ⟨length, hread, hlength⟩ := h.read? rest
  have hne : segment ++ rest ≠ [] :=
    List.append_ne_nil_of_left_ne_nil (List.ne_nil_of_length_pos h.length_pos) rest
  rw [unpack_of_ne_nil hne, hread]
  simp only [hlength, List.length_append, Nat.le_add_right, if_true, List.take_left, List.drop_left]

/-! ## The reader at work -/

/-- Every byte string begins with a row of segments, behind which is nothing or no further one. The
bytes that are left are the measure. -/
theorem exists_front (bytes : Bytes) :
    ∃ front items tail, bytes = front ++ tail ∧ DividesInto front items ∧
      (tail = [] ∨ ∃ fault, IsStuck tail fault) := by
  induction hlength : bytes.length using Nat.strongRecOn generalizing bytes with
  | ind length ih =>
    subst hlength
    rcases segment_or_stuck bytes with hnil | hstuck | ⟨segment, item, rest, rfl, hsegment⟩
    · exact ⟨[], [], bytes, rfl, dividesInto_nil, .inl hnil⟩
    · exact ⟨[], [], bytes, rfl, dividesInto_nil, .inr hstuck⟩
    · have hpos := hsegment.length_pos
      obtain ⟨front, items, tail, rfl, hfront, htail⟩ :=
        ih rest.length (by rw [List.length_append]; omega) rest rfl
      exact ⟨segment ++ front, item :: items, tail, (List.append_assoc ..).symm,
        hfront.cons hsegment, htail⟩

/-- A row of segments is read item by item, whatever follows it. -/
theorem unpack_append (h : DividesInto front items) (tail : Bytes) :
    unpack (front ++ tail) = (unpack tail).map (items ++ ·) := by
  induction h using DividesInto.induction with
  | nil =>
    rw [List.nil_append]
    cases unpack tail <;> rfl
  | cons segment item bytes items hsegment _ ih =>
    rw [List.append_assoc, unpack_segment hsegment, ih]
    cases unpack tail <;> rfl

theorem unpack_eq_ok_iff : unpack bytes = .ok items ↔ DividesInto bytes items := by
  constructor
  · intro h
    obtain ⟨front, others, tail, rfl, hfront, rfl | ⟨fault, hstuck⟩⟩ := exists_front bytes
    · rw [unpack_append hfront, unpack_nil] at h
      obtain rfl : others ++ [] = items := Except.ok.inj h
      rwa [List.append_nil, List.append_nil]
    · rw [unpack_append hfront, unpack_of_isStuck hstuck] at h
      cases h
  · intro h
    have hall := unpack_append h []
    rw [List.append_nil, unpack_nil] at hall
    rw [hall]
    exact congrArg Except.ok (List.append_nil items)

theorem unpack_eq_error_iff {fault : Fault} :
    unpack bytes = .error fault ↔
      ∃ front items tail, bytes = front ++ tail ∧ DividesInto front items ∧ IsStuck tail fault := by
  constructor
  · intro h
    obtain ⟨front, items, tail, rfl, hfront, rfl | ⟨reason, hstuck⟩⟩ := exists_front bytes
    · rw [unpack_append hfront, unpack_nil] at h
      cases h
    · rw [unpack_append hfront, unpack_of_isStuck hstuck] at h
      obtain rfl : reason = fault := Except.error.inj h
      exact ⟨front, items, tail, rfl, hfront, hstuck⟩
  · rintro ⟨front, items, tail, rfl, hfront, hstuck⟩
    rw [unpack_append hfront, unpack_of_isStuck hstuck]
    rfl

/-! ## The writer -/

theorem pack_cons (item : Bytes) (items : List Bytes) :
    pack (item :: items) = Varint.encode (UInt64.ofNat item.length) ++ item ++ pack items := rfl

/-- An item with its length in front is a segment, if a word can count it. -/
theorem isSegment_encode (h : item.length < UInt64.size) :
    IsSegment (Varint.encode (UInt64.ofNat item.length) ++ item) item := by
  refine ⟨_, UInt64.ofNat item.length, rfl, ?_, UInt64.toNat_ofNat_of_lt' h⟩
  simpa using Varint.read?_encode (UInt64.ofNat item.length) []

/-- What is packed divides into its items. -/
theorem dividesInto_pack (h : ∀ item ∈ items, item.length < UInt64.size) :
    DividesInto (pack items) items := by
  induction items with
  | nil => exact dividesInto_nil
  | cons item items ih =>
    obtain ⟨hitem, hitems⟩ := List.forall_mem_cons.mp h
    exact (ih hitems).cons (isSegment_encode hitem)

/-- A word tells the length of every item that was read. -/
theorem DividesInto.length_lt (h : DividesInto bytes items) :
    ∀ item ∈ items, item.length < UInt64.size := by
  induction h using DividesInto.induction with
  | nil => exact fun _ hitem => (List.not_mem_nil hitem).elim
  | cons segment item bytes items hsegment _ ih =>
    exact List.forall_mem_cons.mpr ⟨hsegment.length_lt, ih⟩

/-- No segment of an item is shorter than the one with the shortest numeral. -/
theorem IsSegment.length_encode_le (h : IsSegment segment item) :
    (Varint.encode (UInt64.ofNat item.length)).length + item.length ≤ segment.length := by
  obtain ⟨numeral, length, rfl, hread, hlength⟩ := h
  have hnumeral := Varint.length_encode_le_of_read? hread
  rw [← hlength, UInt64.ofNat_toNat, List.length_append, hlength]
  exact Nat.add_le_add_right hnumeral item.length

/-- **No packing of a list is shorter** than the one of `pack`. -/
theorem DividesInto.length_pack_le (h : DividesInto bytes items) :
    (pack items).length ≤ bytes.length := by
  induction h using DividesInto.induction with
  | nil => exact Nat.le_refl 0
  | cons segment item bytes items hsegment _ ih =>
    have hlength := hsegment.length_encode_le
    rw [pack_cons, List.length_append, List.length_append, List.length_append]
    omega

/-- To pack again takes no more bytes than there were. -/
theorem length_pack_le_of_unpack (h : unpack bytes = .ok items) :
    (pack items).length ≤ bytes.length :=
  (unpack_eq_ok_iff.mp h).length_pack_le

/-- No item is longer than what it is packed into. -/
theorem length_le_length_pack (h : item ∈ items) : item.length ≤ (pack items).length := by
  obtain ⟨before, behind, rfl⟩ := List.append_of_mem h
  rw [pack, List.flatMap_append, List.flatMap_cons]
  simp only [List.length_append]
  omega

/-- **A packed list can be read back.** -/
theorem unpack_pack (h : (pack items).length < 2 ^ 64) : unpack (pack items) = .ok items := by
  rw [unpack_eq_ok_iff]
  exact dividesInto_pack fun item hitem => Nat.lt_of_le_of_lt (length_le_length_pack hitem) h

/-! ## Cutting the bytes -/

/-- The bytes before a place and those from there on, if the place lies within the bytes. -/
def cut? (bytes : Bytes) (place : Nat) : Option (Bytes × Bytes) :=
  if place ≤ bytes.length then some (bytes.take place, bytes.drop place) else none

/-- Reads items like `unpackFrom`, one each turn, and checks every cut: there is no result if a place to
cut at lies outside of the bytes, or if the turns are used up before the bytes are. -/
def unpackFrom? : (turns : Nat) → Bytes → Option (Except Fault (List Bytes))
  | _, [] => some (.ok [])
  | 0, _ :: _ => none
  | turns + 1, bytes@(_ :: _) =>
    match Varint.read? bytes with
    | none => some (.error .truncatedLength)
    | some (length, _) =>
      (cut? bytes (Varint.width bytes)).bind fun (_, behind) =>
        if length.toNat ≤ behind.length then
          (cut? behind length.toNat).bind fun (item, others) =>
            (unpackFrom? turns others).map (Except.map (item :: ·))
        else some (.error .lengthExceedsPayload)

/-- **The reader comes to an end, and every cut lies within its bytes.** It needs no more turns than
there are bytes. -/
theorem unpackFrom?_of_le {turns : Nat} (h : bytes.length ≤ turns) :
    unpackFrom? turns bytes = some (unpack bytes) := by
  induction turns generalizing bytes with
  | zero =>
    obtain rfl := List.eq_nil_of_length_eq_zero (Nat.le_zero.mp h)
    rfl
  | succ turns ih =>
    cases bytes with
    | nil => rfl
    | cons byte bytes =>
      rw [unpack_of_ne_nil (List.cons_ne_nil byte bytes), unpackFrom?]
      rcases hread : Varint.read? (byte :: bytes) with _ | ⟨length, rest⟩
      · rfl
      · -- the length ends within the bytes, and at its end the reader cuts
        obtain ⟨hwidth, rfl⟩ := Varint.of_read?_width hread
        have hshorter := Varint.length_lt_of_read? hread
        simp only [cut?, if_pos hwidth, Option.bind_some]
        split
        case isTrue hfits =>
          rw [Option.bind_some, ih]
          · rfl
          · rw [List.length_drop]
            omega
        case isFalse => rfl

/-! ## What is read -/

/-- **The reader takes segments, to the last byte.** A list is read back from what was packed exactly
if a word tells the length of every item, as it does for whatever a memory holds. From any bytes the
reader comes to an end within as many turns, without a cut outside of them. It reads the items of the
segments that the bytes divide into, and these take no more bytes when packed anew; if the bytes do not
divide, it reads nothing and says what is wrong behind the last segment. -/
theorem unpack_takes_segments :
    (∀ items, unpack (pack items) = .ok items ↔ ∀ item ∈ items, item.length < UInt64.size) ∧
    ∀ bytes, unpackFrom? bytes.length bytes = some (unpack bytes) ∧
      (∀ items, unpack bytes = .ok items ↔ DividesInto bytes items) ∧
      (∀ items, DividesInto bytes items → (pack items).length ≤ bytes.length) ∧
      ((∃ fault, unpack bytes = .error fault) ↔ ¬ ∃ items, DividesInto bytes items) ∧
      ∀ fault, unpack bytes = .error fault ↔
        ∃ front items tail, bytes = front ++ tail ∧ DividesInto front items ∧
          IsStuck tail fault := by
  refine ⟨fun items => ⟨fun h => (unpack_eq_ok_iff.mp h).length_lt, fun h => ?_⟩, fun bytes =>
    ⟨unpackFrom?_of_le (Nat.le_refl _), fun _ => unpack_eq_ok_iff,
      fun _ => DividesInto.length_pack_le, ?_, fun _ => unpack_eq_error_iff⟩⟩
  · exact unpack_eq_ok_iff.mpr (dividesInto_pack h)
  · simp only [← unpack_eq_ok_iff]
    rcases unpack bytes with fault | items <;> simp

/-- The length of the first item takes a byte more than it has to, so the list is packed into one byte
less than it was read from. -/
theorem unpack_takes_segments_padded :
    DividesInto [0x81, 0x00, 0x07, 0x00] [[0x07], []] ∧
      (pack [[0x07], []]).length = 3 ∧
      (pack [[0x07], []]).length ≤ [0x81, 0x00, 0x07, 0x00].length := by
  obtain ⟨-, hread, hlength, -⟩ := unpack_takes_segments.2 [0x81, 0x00, 0x07, 0x00]
  have hdivides : DividesInto [0x81, 0x00, 0x07, 0x00] [[0x07], []] := (hread _).mp rfl
  exact ⟨hdivides, rfl, hlength _ hdivides⟩

end Nearby.PackedList
