import Mathlib.Data.List.Nodup
import Nearby.Characteristics

/-!
# Built-in and derived identifiers

The fixed fields of an advertisement have identifiers of version 4, and an identifier derived from a
key is one of version 5. So a derived identifier is never a built-in one, whatever the digest. That
two keys do not get the same identifier is another matter: it rests on the digest and stands as the
assumption `TellsApart`.
-/

namespace Nearby

/-! ## The version of an identifier -/

/-- The high digit of a byte that was marked with a five is a five. -/
theorem toNat_markVersion (b : UInt8) : ((b &&& 0x0F) ||| 0x50).toNat / 16 = 5 := by
  have hlow : (b &&& 0x0F).toNat < 2 ^ 4 := by
    rw [UInt8.toNat_and]
    exact Nat.and_lt_two_pow _ (by decide)
  have hmark : (0x50 : UInt8).toNat = 2 ^ 4 * 5 := rfl
  rw [UInt8.toNat_or, hmark, Nat.or_comm, ← Nat.two_pow_add_eq_or_of_lt hlow]
  omega

/-- A derived identifier is marked as version 5. -/
theorem Uuid.getD_markDerived {bytes : Bytes} (h : 6 < bytes.length) :
    (Uuid.markDerived bytes).getD 6 0 = (bytes[6] &&& 0x0F) ||| 0x50 := by
  rw [Uuid.markDerived, List.getD_eq_getElem?_getD, List.getElem?_modify_ne _ _ (by decide),
    List.getElem?_modify_eq, List.getElem?_eq_getElem h]
  rfl

/-- **A derived identifier is of version 5.** -/
theorem Uuid.version_derive (space : Uuid) (name : Bytes) : (Uuid.derive space name).version = 5 := by
  have hlength : 6 < ((Digest.Sha1.digest (space.bytes ++ name)).bytes.take 16).length := by
    simp [(Digest.Sha1.digest (space.bytes ++ name)).length_bytes]
  -- the version is the high digit of the seventh byte
  have hbyte : (Uuid.derive space name).byteAt 6 = _ := Uuid.getD_markDerived hlength
  rw [Uuid.version, hbyte]
  exact toNat_markVersion _

namespace Characteristics

/-- The identifiers of the fixed fields, ascending. -/
def builtIn : List Uuid :=
  [idUuid, interfaceNameUuid, addressesUuid, encryptionUuid, hashUuid, directoriesUuid]

theorem nodup_builtIn : builtIn.Nodup := by decide

/-- The built-in identifiers are of version 4. -/
theorem version_of_mem_builtIn : ∀ u ∈ builtIn, u.version = 4 := by decide

/-- No key has the identifier of a fixed field. -/
theorem attributeUuid_notMem_builtIn (key : String) : attributeUuid key ∉ builtIn := by
  intro h
  have h4 := version_of_mem_builtIn _ h
  rw [attributeUuid, Uuid.version_derive] at h4
  cases h4

/-! ## The keys of an advertisement on the air -/

/-- The keys that the identifiers of an advertisement are derived from. -/
def wireKeys (ad : Advertisement) : List String :=
  ad.attributes.keys ++ ad.attachments.keys.map wireKey

/-- The identifiers tell the keys apart: no two of them get the same one. -/
def TellsApart (keys : List String) : Prop :=
  ∀ k ∈ keys, ∀ j ∈ keys, attributeUuid k = attributeUuid j → k = j

instance (keys : List String) : Decidable (TellsApart keys) :=
  inferInstanceAs (Decidable (∀ k ∈ keys, ∀ j ∈ keys, attributeUuid k = attributeUuid j → k = j))

/-- True for the keys that read as those of attachments. -/
def IsMarked (key : String) : Prop := attachmentPrefix.toList.isPrefixOf key.toList = true

theorem toList_wireKey (key : String) : (wireKey key).toList = attachmentPrefix.toList ++ key.toList :=
  String.toList_append ..

theorem isMarked_wireKey (key : String) : IsMarked (wireKey key) := by
  rw [IsMarked, toList_wireKey, List.isPrefixOf_iff_prefix]
  exact List.prefix_append ..

/-- Different keys are different once they are marked. -/
theorem wireKey_injective {k j : String} (h : wireKey k = wireKey j) : k = j := by
  have := congrArg String.toList h
  rw [toList_wireKey, toList_wireKey] at this
  exact String.toList_inj.mp (List.append_cancel_left this)

end Characteristics

end Nearby
