import Nearby.Characteristics.Decode
import Nearby.Characteristics.Encode
import Nearby.Proofs.Characteristics.Identifiers
import Nearby.Proofs.PackedList
import Nearby.Proofs.Table
import Nearby.Proofs.Utf8

/-!
# Facts and how they are told

A characteristic tells one `Fact` about an advertisement. Here is the way back: the identifier and
the value under which a fact is told, and when it may be told at all (`Fact.IsTellable`). Whatever
may be told is read again (`readFact_of_isTellable`), and the order in which facts with different
identifiers are learnt does not matter (`learn_comm`).
-/

namespace Nearby.Characteristics

namespace Fact

/-- The identifier of the characteristic that tells a fact. -/
def uuid : Fact → Uuid
  | .id _ => idUuid
  | .interfaceName _ => interfaceNameUuid
  | .addresses _ => addressesUuid
  | .encryption _ => encryptionUuid
  | .hash _ => hashUuid
  | .directories _ => directoriesUuid
  | .attribute key _ => attributeUuid key
  | .attachment key _ => attachmentUuid key

/-- The value of the characteristic that tells a fact. -/
def value : Fact → Bytes
  | .id adId => adId.bytes
  | .interfaceName name => Utf8.encode name
  | .addresses texts => packTexts texts
  | .encryption e => packEncryption e
  | .hash adHash => adHash.bytes
  | .directories texts => packTexts texts
  | .attribute key text => joinKeyValue key (Utf8.encode text)
  | .attachment key bytes => joinKeyValue (wireKey key) bytes

/-- The characteristic that tells a fact. -/
def entry (f : Fact) : Uuid × Bytes := (f.uuid, f.value)

/-- True for a fact that an advertisement may have and that is not read back as another one: an
identifier and a name must say something, an algorithm must be known by its own code, and a key must
neither be mistaken for another kind of key nor hide the separator. -/
def IsSound : Fact → Prop
  | .id adId => adId.isZero = false
  | .interfaceName name => name ≠ ""
  | .addresses _ => True
  | .encryption e => Algorithm.ofCode e.algorithm.code = e.algorithm
  | .hash _ => True
  | .directories _ => True
  | .attribute key _ => keyReason? key = none ∧ ¬ IsMarked key
  | .attachment key _ => keyReason? key = none

/-- A sound fact that fits a characteristic. -/
def IsTellable (f : Fact) : Prop := f.IsSound ∧ f.value.length ≤ maxLength

end Fact

/-! ## Reading a fact -/

/-- A key may stand before a separator exactly if it is not empty and holds none. -/
theorem keyReason?_eq_none_iff {key : String} :
    keyReason? key = none ↔ key ≠ "" ∧ separator ∉ Utf8.encode key := by
  rw [keyReason?]
  split
  · rename_i h
    simp [String.isEmpty_iff.mp h]
  · rename_i h
    have hne : key ≠ "" := fun e => h (String.isEmpty_iff.mpr e)
    split
    · rename_i hs
      simp [List.contains_iff_mem.mp hs]
    · rename_i hs
      have hmem : separator ∉ Utf8.encode key := fun h => hs (List.contains_iff_mem.mpr h)
      simp [hne, hmem]

/-- Texts are read back as they were written. -/
theorem readTexts_map_encode (field : Field) (texts : List String) :
    readTexts field (texts.map Utf8.encode) = .ok texts := by
  induction texts with
  | nil => rfl
  | cons text rest ih =>
    have hhead : readText field (Utf8.encode text) = .ok text := by
      rw [readText, Utf8.decode_encode]
      rfl
    rw [List.map_cons, readTexts, hhead]
    simp only [ih]
    rfl

/-- A list is read back, if it was short enough to be written. -/
theorem readList_pack (field : Field) {items : List Bytes}
    (h : (PackedList.pack items).length ≤ maxLength) :
    readList field (PackedList.pack items) = .ok items := by
  rw [readList, PackedList.unpack_pack (Nat.lt_of_le_of_lt h (by decide))]
  rfl

/-- An encryption is read back, unless its code is that of another. -/
theorem readEncryption_packEncryption {e : Encryption}
    (hcode : Algorithm.ofCode e.algorithm.code = e.algorithm)
    (h : (packEncryption e).length ≤ maxLength) :
    readEncryption (packEncryption e) = .ok e := by
  have hkeys : (PackedList.pack e.keys).length ≤ maxLength := by
    rw [packEncryption, List.length_append] at h
    omega
  have hword : (UInt32.toUInt64 e.algorithm.code).toNat < UInt32.size := by
    rw [UInt32.toNat_toUInt64]
    exact UInt32.toNat_lt_size _
  rw [readEncryption, packEncryption, Varint.read?_encode]
  simp only [hword, if_true, readList_pack .encryption hkeys]
  rw [UInt32.toUInt32_toUInt64, hcode]
  rfl

/-- Bytes are cut at the first separator. -/
theorem splitKeyValue?_join {key : String} (h : separator ∉ Utf8.encode key) (value : Bytes) :
    splitKeyValue? (joinKeyValue key value) = some (Utf8.encode key, value) := by
  have hkey : ∀ b ∈ Utf8.encode key, (b != separator) = true := by
    intro b hb
    exact bne_iff_ne.mpr fun e => h (e ▸ hb)
  rw [splitKeyValue?, joinKeyValue, List.dropWhile_append_of_pos hkey,
    List.takeWhile_append_of_pos hkey]
  simp

/-- The mark of an attachment is taken off its key. -/
theorem attachmentKey?_wireKey (key : String) : attachmentKey? (wireKey key) = some key := by
  refine (if_pos (isMarked_wireKey key)).trans ?_
  rw [toList_wireKey, List.drop_left, String.ofList_toList]

theorem attachmentKey?_of_not_isMarked {key : String} (h : ¬ IsMarked key) :
    attachmentKey? key = none := if_neg h

theorem encode_wireKey (key : String) :
    Utf8.encode (wireKey key) = Utf8.encode attachmentPrefix ++ Utf8.encode key := by
  rw [Utf8.encode, toList_wireKey, List.flatMap_append]
  rfl

/-- The mark of an attachment holds no separator. -/
theorem separator_mem_wireKey {key : String} :
    separator ∈ Utf8.encode (wireKey key) ↔ separator ∈ Utf8.encode key := by
  rw [encode_wireKey, List.mem_append, or_iff_right (by decide)]

/-- An attribute is read back if its key has no separator and is not marked. -/
theorem readKeyValue_attribute {key : String} (hsep : separator ∉ Utf8.encode key)
    (hmark : ¬ IsMarked key) (text : String) :
    readKeyValue (joinKeyValue key (Utf8.encode text)) = .ok (.attribute key text) := by
  rw [readKeyValue, splitKeyValue?_join hsep]
  simp only [readText, Utf8.decode_encode, Except.mapError, attachmentKey?_of_not_isMarked hmark]
  rfl

/-- An attachment is read back if its key has no separator. -/
theorem readKeyValue_attachment {key : String} (hsep : separator ∉ Utf8.encode key)
    (bytes : Bytes) :
    readKeyValue (joinKeyValue (wireKey key) bytes) = .ok (.attachment key bytes) := by
  rw [readKeyValue, splitKeyValue?_join (mt separator_mem_wireKey.mp hsep)]
  simp only [readText, Utf8.decode_encode, Except.mapError, attachmentKey?_wireKey]

/-! Each built-in identifier has a reader of its own. -/

theorem readFact_idUuid (bytes : Bytes) :
    readFact idUuid bytes =
      match AdId.ofBytes? bytes with
      | some adId => .ok (.id adId)
      | none => .error ⟨.id, .wrongLength AdId.byteLength bytes.length⟩ := if_pos rfl

theorem readFact_interfaceNameUuid (bytes : Bytes) :
    readFact interfaceNameUuid bytes = (readText .interfaceName bytes).map .interfaceName := by
  rw [readFact, if_neg (by decide), if_pos rfl]

theorem readFact_addressesUuid (bytes : Bytes) :
    readFact addressesUuid bytes =
      (readList .addresses bytes >>= readTexts .addresses).map .addresses := by
  rw [readFact, if_neg (by decide), if_neg (by decide), if_pos rfl]

theorem readFact_encryptionUuid (bytes : Bytes) :
    readFact encryptionUuid bytes = (readEncryption bytes).map .encryption := by
  rw [readFact, if_neg (by decide), if_neg (by decide), if_neg (by decide), if_pos rfl]

theorem readFact_hashUuid (bytes : Bytes) :
    readFact hashUuid bytes =
      match AdHash.ofBytes? bytes with
      | some adHash => .ok (.hash adHash)
      | none => .error ⟨.hash, .wrongLength AdHash.byteLength bytes.length⟩ := by
  refine (if_neg (by decide)).trans ?_
  refine (if_neg (by decide)).trans ?_
  refine (if_neg (by decide)).trans ?_
  refine (if_neg (by decide)).trans ?_
  exact if_pos rfl

theorem readFact_directoriesUuid (bytes : Bytes) :
    readFact directoriesUuid bytes =
      (readList .directories bytes >>= readTexts .directories).map .directories := by
  rw [readFact, if_neg (by decide), if_neg (by decide), if_neg (by decide), if_neg (by decide),
    if_neg (by decide), if_pos rfl]

/-- A characteristic whose identifier is no built-in one holds a key and a value. -/
theorem readFact_of_notMem_builtIn {uuid : Uuid} (h : uuid ∉ builtIn) (bytes : Bytes) :
    readFact uuid bytes = readKeyValue bytes := by
  simp only [builtIn, List.mem_cons, List.not_mem_nil, or_false, not_or] at h
  obtain ⟨h1, h2, h3, h4, h5, h6⟩ := h
  rw [readFact, if_neg h1, if_neg h2, if_neg h3, if_neg h4, if_neg h5, if_neg h6]

/-- **What may be told is read again.** -/
theorem readFact_of_isTellable {f : Fact} (h : f.IsTellable) : readFact f.uuid f.value = .ok f := by
  obtain ⟨hsound, hlength⟩ := h
  cases f with
  | id adId =>
    rw [Fact.uuid, readFact_idUuid, Fact.value, AdId.ofBytes?, AdId.bytes, Octets.ofBytes?_bytes]
    rfl
  | interfaceName name =>
    rw [Fact.uuid, readFact_interfaceNameUuid, Fact.value, readText, Utf8.decode_encode]
    rfl
  | addresses texts =>
    rw [Fact.uuid, readFact_addressesUuid, Fact.value, packTexts, readList_pack _ hlength]
    exact congrArg (Except.map Fact.addresses) (readTexts_map_encode _ texts)
  | encryption e =>
    rw [Fact.uuid, readFact_encryptionUuid, Fact.value, readEncryption_packEncryption hsound hlength]
    rfl
  | hash adHash =>
    rw [Fact.uuid, readFact_hashUuid, Fact.value, AdHash.ofBytes?, AdHash.bytes,
      Octets.ofBytes?_bytes]
    rfl
  | directories texts =>
    rw [Fact.uuid, readFact_directoriesUuid, Fact.value, packTexts, readList_pack _ hlength]
    exact congrArg (Except.map Fact.directories) (readTexts_map_encode _ texts)
  | «attribute» key text =>
    obtain ⟨hkey, hmark⟩ := hsound
    rw [Fact.uuid, readFact_of_notMem_builtIn (attributeUuid_notMem_builtIn key), Fact.value]
    exact readKeyValue_attribute (keyReason?_eq_none_iff.mp hkey).2 hmark text
  | attachment key bytes =>
    rw [Fact.uuid, attachmentUuid,
      readFact_of_notMem_builtIn (attributeUuid_notMem_builtIn (wireKey key)), Fact.value]
    exact readKeyValue_attachment (keyReason?_eq_none_iff.mp hsound).2 bytes

/-! ## Learning facts -/

/-- **Facts under different identifiers may be learnt in any order**: they are about different
fields, or about different keys of one table. -/
theorem learn_comm {f g : Fact} (h : f.uuid ≠ g.uuid) (ad : Advertisement) :
    learn (learn ad f) g = learn (learn ad g) f := by
  cases f <;> cases g
  -- two facts of the same kind differ in their keys, where they have any
  case «attribute».«attribute» k v j w =>
    have hkey : k ≠ j := fun e => h (congrArg attributeUuid e)
    exact congrArg (fun t => { ad with attributes := t }) (Table.insert_comm ad.attributes hkey v w)
  case attachment.attachment k v j w =>
    have hkey : k ≠ j := fun e => h (congrArg attachmentUuid e)
    exact congrArg (fun t => { ad with attachments := t })
      (Table.insert_comm ad.attachments hkey v w)
  case id.id | interfaceName.interfaceName | addresses.addresses | encryption.encryption
      | hash.hash | directories.directories =>
    exact absurd rfl h
  all_goals rfl

end Nearby.Characteristics
