import Mathlib.Logic.ExistsUnique
import Nearby.Radio

/-!
# What a payload announces

A payload announces a stamp exactly if it begins with the payload of that stamp
(`ofPayload?_eq_some_iff`). Any eight bytes are those of a stamp, so all that is asked of a payload is
its first byte and its length (`IsWellFormed`), and what is behind the ninth byte does not matter.
-/

namespace Nearby.Stamp

/-! ## The bytes of a stamp -/

@[simp] theorem length_bytes (stamp : Stamp) : stamp.bytes.length = byteLength :=
  length_bigEndian ..

@[simp] theorem length_payload (stamp : Stamp) : stamp.payload.length = payloadLength := by
  rw [payload, List.length_cons, length_bytes, payloadLength, Nat.add_comm]

/-- A stamp is read back from its bytes. -/
theorem ofBytes_bytes (stamp : Stamp) : ofBytes stamp.bytes = stamp := by
  rw [ofBytes, bytes, ofBigEndian_bigEndian _ _ stamp.value.toNat_lt, UInt64.ofNat_toNat]

theorem bytes_ofBytes {bytes : Bytes} (h : bytes.length = byteLength) :
    (ofBytes bytes).bytes = bytes := by
  have hfits : ofBigEndian bytes < UInt64.size := ofBigEndian_lt h
  rw [ofBytes, Stamp.bytes, UInt64.toNat_ofNat_of_lt' hfits, bigEndian_ofBigEndian h]

/-! ## The stamp of a payload -/

/-- A payload begins with the length of a stamp and is long enough for one. -/
def IsWellFormed (payload : Bytes) : Prop :=
  payload.head? = some (UInt8.ofNat byteLength) ∧ payloadLength ≤ payload.length

variable {payload : Bytes} {stamp : Stamp}

/-- Whatever follows a stamp, it is read back. -/
theorem ofPayload?_append (stamp : Stamp) (rest : Bytes) :
    ofPayload? (stamp.payload ++ rest) = some stamp := by
  have hlong : byteLength ≤ (stamp.bytes ++ rest).length := by
    rw [List.length_append, length_bytes]
    exact Nat.le_add_right ..
  rw [Stamp.payload, List.cons_append, ofPayload?, if_pos ⟨rfl, hlong⟩,
    ← length_bytes stamp, List.take_left, ofBytes_bytes]

/-- Nothing is read but a length and a stamp behind it. -/
theorem isPrefix_of_ofPayload? (h : ofPayload? payload = some stamp) :
    stamp.payload <+: payload := by
  cases payload with
  | nil => cases h
  | cons length rest =>
    rw [ofPayload?] at h
    split at h
    case isTrue hformed =>
      obtain ⟨hlength, hlong⟩ := hformed
      obtain rfl := Option.some.inj h
      have htaken : (rest.take byteLength).length = byteLength := by
        rw [List.length_take, Nat.min_eq_left hlong]
      rw [Stamp.payload, bytes_ofBytes htaken, ← hlength, UInt8.ofNat_toNat]
      exact List.cons_prefix_cons.mpr ⟨rfl, List.take_prefix ..⟩
    case isFalse => cases h

/-- **A payload announces the stamp that it begins with.** -/
theorem ofPayload?_eq_some_iff : ofPayload? payload = some stamp ↔ stamp.payload <+: payload := by
  constructor
  · exact isPrefix_of_ofPayload?
  · rintro ⟨rest, rfl⟩
    exact ofPayload?_append stamp rest

/-- No payload begins with two stamps. -/
theorem eq_of_isPrefix {other : Stamp} (h : stamp.payload <+: payload)
    (hother : other.payload <+: payload) : stamp = other :=
  Option.some.inj ((ofPayload?_eq_some_iff.mpr h).symm.trans (ofPayload?_eq_some_iff.mpr hother))

/-- A payload that begins as that of a stamp is well formed. -/
theorem isWellFormed_of_isPrefix (h : stamp.payload <+: payload) : IsWellFormed payload := by
  obtain ⟨rest, rfl⟩ := h
  refine ⟨rfl, ?_⟩
  rw [List.length_append, length_payload]
  exact Nat.le_add_right ..

/-- A well-formed payload begins as that of some stamp. -/
theorem exists_isPrefix (h : IsWellFormed payload) :
    ∃ stamp : Stamp, stamp.payload <+: payload := by
  obtain ⟨hlength, hlong⟩ := h
  cases payload with
  | nil => cases hlength
  | cons length rest =>
    obtain rfl : length = UInt8.ofNat byteLength := Option.some.inj hlength
    have hrest : byteLength ≤ rest.length := by
      rw [List.length_cons, payloadLength] at hlong
      omega
    refine ⟨ofBytes (rest.take byteLength), ofPayload?_eq_some_iff.mp ?_⟩
    rw [ofPayload?, if_pos ⟨rfl, hrest⟩]

/-- Only the first nine bytes of a payload matter. -/
theorem ofPayload?_take (payload : Bytes) :
    ofPayload? (payload.take payloadLength) = ofPayload? payload := by
  refine Option.ext fun stamp => ?_
  rw [ofPayload?_eq_some_iff, ofPayload?_eq_some_iff, List.prefix_take_iff, length_payload]
  exact and_iff_left (Nat.le_refl _)

/-- **A payload announces one stamp or none.** It announces the stamp that it begins with. There is
exactly one if the first byte tells the length of a stamp and there are as many bytes behind it, and
none otherwise; bytes behind those are ignored. What a device broadcasts is heard as its stamp, whatever
follows. -/
theorem payload_announces_one_or_none :
    (∀ payload stamp, ofPayload? payload = some stamp ↔ stamp.payload <+: payload) ∧
    (∀ payload, (∃! stamp : Stamp, stamp.payload <+: payload) ↔ IsWellFormed payload) ∧
    (∀ payload, ofPayload? payload = none ↔ ¬ IsWellFormed payload) ∧
    (∀ payload, ofPayload? (payload.take payloadLength) = ofPayload? payload) ∧
    ∀ peer stamp rest, Sighting.stamp? ⟨peer, stamp.payload ++ rest⟩ = some stamp := by
  refine ⟨fun _ _ => ofPayload?_eq_some_iff, fun payload => ⟨?_, fun h => ?_⟩,
    fun payload => ⟨fun hnone hformed => ?_, fun hformed => ?_⟩, ofPayload?_take,
    fun _ => ofPayload?_append⟩
  · rintro ⟨stamp, hbegins, -⟩
    exact isWellFormed_of_isPrefix hbegins
  · obtain ⟨stamp, hbegins⟩ := exists_isPrefix h
    exact ⟨stamp, hbegins, fun other hother => eq_of_isPrefix hother hbegins⟩
  · obtain ⟨stamp, hbegins⟩ := exists_isPrefix hformed
    rw [ofPayload?_eq_some_iff.mpr hbegins] at hnone
    cases hnone
  · rcases hread : ofPayload? payload with _ | stamp
    · rfl
    · exact (hformed (isWellFormed_of_isPrefix (isPrefix_of_ofPayload? hread))).elim

end Nearby.Stamp
