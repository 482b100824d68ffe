import Nearby.Proofs.Characteristics.Normal

/-!
# An advertisement that is not in order is not encoded

Decoding is lenient, encoding is not. It goes through the fields of an advertisement in a fixed order
(`checkedFields`) and asks something of each of them (`Field.IsMet`): names and keys must be there, a
key must be cut off where it ends, an algorithm must come back as itself, and what is told must fit a
characteristic. The first field that falls short is the one reported.

`Field.part?` is the part that a field is encoded as, so that the parts follow the fields
(`parts_eq`), and a field is in order exactly if its part can be encoded (`isMet_iff`). That makes
encoding a walk through the fields (`encodeParts_filterMap`), and all there is to say about its outcome
follows (`encode_checks_every_field`).
-/

namespace Nearby.Characteristics

/-! ## The fields and what is asked of them -/

/-- The fields of an advertisement, in the order in which they are checked. -/
def checkedFields (ad : Advertisement) : List Field :=
  [.id, .interfaceName, .addresses, .encryption, .hash, .directories]
    ++ ad.attributes.keys.map .attribute ++ ad.attachments.keys.map .attachment

/-- True for a key that is there and can be cut off at the equals sign behind it. -/
def IsKey (key : String) : Prop := key ≠ "" ∧ '=' ∉ key.toList

/-- What is asked of a field of an advertisement. Nothing is asked of one that is not there. -/
def Field.IsMet (ad : Advertisement) : Field → Prop
  | .id => ∃ byte ∈ ad.id.bytes, byte ≠ 0
  | .interfaceName =>
    1 ≤ (Utf8.encode ad.interfaceName).length ∧ (Utf8.encode ad.interfaceName).length ≤ 512
  | .addresses => (packTexts ad.addresses).length ≤ 512
  | .encryption => ∀ e, ad.encryption = some e →
    e.algorithm ≠ .other Algorithm.test.code ∧ e.algorithm ≠ .other Algorithm.ibe.code ∧
      (packEncryption e).length ≤ 512
  | .hash => True
  | .directories => (packTexts ad.directories).length ≤ 512
  | .attributes => True
  | .attribute key => ∀ text, ad.attributes.get? key = some text →
    IsKey key ∧ ¬ "__".toList <+: key.toList ∧
      (Utf8.encode key).length + 1 + (Utf8.encode text).length ≤ 512
  | .attachment key => ∀ value, ad.attachments.get? key = some value →
    IsKey key ∧ (Utf8.encode key).length + 3 + value.length ≤ 512

/-! ## Facts that may be told, in plain words -/

/-- A key is one that the encoder accepts. -/
theorem isKey_iff {key : String} : IsKey key ↔ keyReason? key = none := by
  rw [keyReason?_eq_none_iff, IsKey]
  exact and_congr_right fun _ => not_congr (Utf8.ascii_mem_encode_iff (by decide)).symm

theorem isMarked_iff {key : String} : IsMarked key ↔ "__".toList <+: key.toList :=
  List.isPrefixOf_iff_prefix

/-- A separator stands between a key and its value. -/
theorem length_joinKeyValue (key : String) (value : Bytes) :
    (joinKeyValue key value).length = (Utf8.encode key).length + 1 + value.length := by
  rw [joinKeyValue, List.length_append, List.length_cons]
  omega

/-- An algorithm comes back as itself unless it is known by the code of another one. -/
theorem ofCode_code_eq_iff {algorithm : Algorithm} :
    Algorithm.ofCode algorithm.code = algorithm ↔
      algorithm ≠ .other Algorithm.test.code ∧ algorithm ≠ .other Algorithm.ibe.code := by
  cases algorithm with
  | test => simp [Algorithm.code, Algorithm.ofCode]
  | ibe => simp [Algorithm.code, Algorithm.ofCode]
  | other code =>
    simp only [Algorithm.code, Algorithm.ofCode, ne_eq, Algorithm.other.injEq]
    by_cases htest : code = 1
    · simp [htest]
    by_cases hibe : code = 2
    · simp [hibe]
    · simp [htest, hibe]

theorem isTellable_id_iff {adId : AdId} :
    Fact.IsTellable (.id adId) ↔ ∃ byte ∈ adId.bytes, byte ≠ 0 := by
  have hlength : (Fact.id adId).value.length ≤ maxLength := by
    rw [Fact.value, AdId.bytes, adId.octets.length_bytes]
    decide
  rw [Fact.IsTellable, and_iff_left hlength, Fact.IsSound, AdId.isZero, Octets.isZero, AdId.bytes]
  simp

theorem isTellable_interfaceName_iff {name : String} :
    Fact.IsTellable (.interfaceName name) ↔
      1 ≤ (Utf8.encode name).length ∧ (Utf8.encode name).length ≤ 512 := by
  refine and_congr_left' ?_
  rw [Fact.IsSound, Nat.one_le_iff_ne_zero, ne_eq, ne_eq, List.length_eq_zero_iff,
    Utf8.encode_eq_nil_iff]

theorem isTellable_encryption_iff {e : Encryption} :
    Fact.IsTellable (.encryption e) ↔
      e.algorithm ≠ .other Algorithm.test.code ∧ e.algorithm ≠ .other Algorithm.ibe.code ∧
        (packEncryption e).length ≤ 512 := by
  rw [← and_assoc, ← ofCode_code_eq_iff]
  rfl

theorem isTellable_hash (adHash : AdHash) : Fact.IsTellable (.hash adHash) := by
  refine ⟨trivial, ?_⟩
  rw [Fact.value, AdHash.bytes, adHash.octets.length_bytes]
  decide

theorem isTellable_attribute_iff {key text : String} :
    Fact.IsTellable (.attribute key text) ↔
      IsKey key ∧ ¬ "__".toList <+: key.toList ∧
        (Utf8.encode key).length + 1 + (Utf8.encode text).length ≤ 512 := by
  rw [← and_assoc, isKey_iff, ← isMarked_iff, ← length_joinKeyValue]
  rfl

/-- The mark of an attachment takes two bytes. -/
theorem isTellable_attachment_iff {key : String} {value : Bytes} :
    Fact.IsTellable (.attachment key value) ↔
      IsKey key ∧ (Utf8.encode key).length + 3 + value.length ≤ 512 := by
  have hmark : (Utf8.encode attachmentPrefix).length = 2 := by decide
  have hlength : (joinKeyValue (wireKey key) value).length =
      (Utf8.encode key).length + 3 + value.length := by
    rw [length_joinKeyValue, encode_wireKey, List.length_append, hmark]
    omega
  rw [isKey_iff, ← hlength]
  rfl

/-! ## The part of a field -/

/-- The part that a field is encoded as, if the field is there. -/
def Field.part? (ad : Advertisement) : Field → Option Part
  | .id => some (idPart ad)
  | .interfaceName => some (interfaceNamePart ad)
  | .addresses => addressesPart? ad
  | .encryption => ad.encryption.map encryptionPart
  | .hash => some (hashPart ad)
  | .directories => directoriesPart? ad
  | .attributes => none
  | .attribute key => (ad.attributes.get? key).map (attributePart key)
  | .attachment key => (ad.attachments.get? key).map (attachmentPart key)

theorem filterMap_cons_eq {α β : Type} (f : α → Option β) (a : α) (l : List α) :
    (a :: l).filterMap f = (f a).toList ++ l.filterMap f := by
  rw [List.filterMap_cons]
  rcases f a with _ | b
  · rfl
  · rfl

/-- **The parts are those of the fields**, in the same order. -/
theorem parts_eq (ad : Advertisement) :
    parts ad = (checkedFields ad).filterMap (Field.part? ad) := by
  have hattributes : (ad.attributes.keys.map Field.attribute).filterMap (Field.part? ad) =
      ad.attributes.entries.map fun e => attributePart e.1 e.2 := by
    rw [List.filterMap_map]
    exact Table.filterMap_keys ad.attributes attributePart
  have hattachments : (ad.attachments.keys.map Field.attachment).filterMap (Field.part? ad) =
      ad.attachments.entries.map fun e => attachmentPart e.1 e.2 := by
    rw [List.filterMap_map]
    exact Table.filterMap_keys ad.attachments attachmentPart
  rw [checkedFields, List.filterMap_append, List.filterMap_append, hattributes, hattachments, parts]
  simp [filterMap_cons_eq, Field.part?]

section Field

variable {ad : Advertisement} {field : Field}

/-- A part of an advertisement is about its field. -/
theorem field_of_part? {part : Part} (h : field.part? ad = some part) : part.field = field := by
  cases field with
  | id | interfaceName | hash =>
    obtain rfl := Option.some.inj h
    rfl
  | «attributes» => cases h
  | addresses | directories =>
    obtain ⟨-, hpart⟩ := Option.ite_none_left_eq_some.mp h
    obtain rfl := Option.some.inj hpart
    rfl
  | encryption | «attribute» key | attachment key =>
    obtain ⟨_, -, rfl⟩ := Option.map_eq_some_iff.mp h
    rfl

/-- A part that tells a fact can be encoded exactly if the fact may be told. -/
theorem Part.Tells.exists_entry_iff {part : Part} {f : Fact} (h : part.Tells f) :
    (∃ entry, part.entry = .ok entry) ↔ f.IsTellable := by
  constructor
  · rintro ⟨entry, hentry⟩
    exact ((h entry).mp hentry).2
  · exact fun hf => ⟨_, (h _).mpr ⟨rfl, hf⟩⟩

/-- A list, which is left out if it is empty, can be encoded exactly if it is short enough. -/
theorem length_packTexts_le_iff {part : Part} {f : Fact} {texts : List String} (h : part.Tells f)
    (hvalue : f.value = packTexts texts) (hsound : f.IsSound) :
    (packTexts texts).length ≤ 512 ↔
      ∀ p, (if texts.isEmpty then none else some part) = some p → ∃ entry, p.entry = .ok entry := by
  cases texts with
  | nil => simp [packTexts, PackedList.pack]
  | cons text rest =>
    have hpart := h.exists_entry_iff
    rw [Fact.IsTellable, and_iff_right hsound, hvalue] at hpart
    refine hpart.symm.trans ?_
    simp

/-- **A field is in order exactly if its part can be encoded.** -/
theorem isMet_iff :
    field.IsMet ad ↔ ∀ part, field.part? ad = some part → ∃ entry, part.entry = .ok entry := by
  cases field with
  | id =>
    rw [Field.IsMet, ← isTellable_id_iff, ← (idPart_tells ad).exists_entry_iff]
    simp [Field.part?]
  | interfaceName =>
    rw [Field.IsMet, ← isTellable_interfaceName_iff,
      ← (interfaceNamePart_tells ad).exists_entry_iff]
    simp [Field.part?]
  | addresses =>
    apply length_packTexts_le_iff (f := .addresses ad.addresses)
    · exact Part.tells_of_ok rfl rfl trivial
    · rfl
    · trivial
  | encryption =>
    simp only [Field.IsMet, ← isTellable_encryption_iff, ← (encryptionPart_tells _).exists_entry_iff]
    simp [Field.part?]
  | hash =>
    have htell : (hashPart ad).Tells (.hash ad.hash) := Part.tells_of_ok rfl rfl trivial
    have hhash := htell.exists_entry_iff.mpr (isTellable_hash ad.hash)
    simpa [Field.IsMet, Field.part?] using hhash
  | directories =>
    apply length_packTexts_le_iff (f := .directories ad.directories)
    · exact Part.tells_of_ok rfl rfl trivial
    · rfl
    · trivial
  | «attributes» => simp [Field.IsMet, Field.part?]
  | «attribute» key =>
    simp only [Field.IsMet, ← isTellable_attribute_iff,
      ← (attributePart_tells _ _).exists_entry_iff]
    simp [Field.part?]
  | attachment key =>
    simp only [Field.IsMet, ← isTellable_attachment_iff,
      ← (attachmentPart_tells _ _).exists_entry_iff]
    simp [Field.part?]

/-- Fields that need no check are met. -/
theorem isMet_of_notMem_checkedFields (h : field ∉ checkedFields ad) : field.IsMet ad := by
  cases field with
  | id | interfaceName | addresses | encryption | hash | directories => simp [checkedFields] at h
  | «attributes» => trivial
  | «attribute» key =>
    intro text htext
    have hkey : key ∈ ad.attributes.keys := Table.mem_keys.mpr ⟨text, htext⟩
    simp [checkedFields, hkey] at h
  | attachment key =>
    intro value hvalue
    have hkey : key ∈ ad.attachments.keys := Table.mem_keys.mpr ⟨value, hvalue⟩
    simp [checkedFields, hkey] at h

end Field

/-! ## From field to field -/

/-- The error of a part names its field. -/
theorem field_of_entry_eq_error {part : Part} {e : EncodeError} (h : part.entry = .error e) :
    e.field = part.field := by
  rw [Part.entry] at h
  split at h
  · obtain rfl := Except.error.inj h
    rfl
  split at h
  · cases h
  · obtain rfl := Except.error.inj h
    rfl

/-- True for a fault with the first of some fields that is not in order. -/
def EncodeError.IsFirst (ad : Advertisement) (fields : List Field) (e : EncodeError) : Prop :=
  ∃ before after, fields = before ++ e.field :: after ∧ ¬ e.field.IsMet ad ∧
    ∀ field ∈ before, field.IsMet ad

section Walk

variable {ad : Advertisement} {field : Field}

/-- An error is the first if all fields before it are met. -/
theorem EncodeError.IsFirst.cons {fields : List Field} {e : EncodeError} (hmet : field.IsMet ad)
    (h : e.IsFirst ad fields) : e.IsFirst ad (field :: fields) := by
  obtain ⟨before, after, rfl, hfault, hbefore⟩ := h
  exact ⟨field :: before, after, rfl, hfault, List.forall_mem_cons.mpr ⟨hmet, hbefore⟩⟩

/-- After a field that is in order it is up to the others whether there is a fault. -/
theorem encodeParts_cons_of_isMet (hmet : field.IsMet ad) (fields : List Field) :
    ∃ entries, encodeParts ((field :: fields).filterMap (Field.part? ad)) =
      (encodeParts (fields.filterMap (Field.part? ad))).map (entries ++ ·) := by
  rcases hpart : field.part? ad with _ | part
  · refine ⟨[], ?_⟩
    rw [List.filterMap_cons_none hpart]
    rcases encodeParts (fields.filterMap (Field.part? ad)) with e | entries
    · rfl
    · rfl
  · obtain ⟨entry, hentry⟩ := isMet_iff.mp hmet part hpart
    refine ⟨[entry], ?_⟩
    rw [List.filterMap_cons_some hpart, encodeParts, hentry]
    rfl

/-- A field that is not in order is reported, whatever comes after it. -/
theorem encodeParts_cons_of_not_isMet (hmet : ¬ field.IsMet ad) (fields : List Field) :
    ∃ e, encodeParts ((field :: fields).filterMap (Field.part? ad)) = .error e ∧
      e.field = field := by
  rw [isMet_iff] at hmet
  obtain ⟨part, himp⟩ := Classical.not_forall.mp hmet
  obtain ⟨hpart, hnone⟩ := Classical.not_imp.mp himp
  rcases hentry : part.entry with e | entry
  · refine ⟨e, ?_, (field_of_entry_eq_error hentry).trans (field_of_part? hpart)⟩
    rw [List.filterMap_cons_some hpart, encodeParts, hentry]
  · exact absurd ⟨entry, hentry⟩ hnone

/-- **Fields are encoded one after the other, up to the first that is not in order.** -/
theorem encodeParts_filterMap (ad : Advertisement) (fields : List Field) :
    (∃ entries, encodeParts (fields.filterMap (Field.part? ad)) = .ok entries ∧
      ∀ field ∈ fields, field.IsMet ad) ∨
    ∃ e, encodeParts (fields.filterMap (Field.part? ad)) = .error e ∧ e.IsFirst ad fields := by
  induction fields with
  | nil => exact .inl ⟨[], rfl, fun _ h => absurd h List.not_mem_nil⟩
  | cons field rest ih =>
    by_cases hmet : field.IsMet ad
    · obtain ⟨told, htold⟩ := encodeParts_cons_of_isMet hmet rest
      rw [htold]
      obtain ⟨entries, hentries, hrest⟩ | ⟨e, he, hfirst⟩ := ih
      · rw [hentries]
        exact .inl ⟨_, rfl, List.forall_mem_cons.mpr ⟨hmet, hrest⟩⟩
      · rw [he]
        exact .inr ⟨e, rfl, hfirst.cons hmet⟩
    · obtain ⟨e, he, rfl⟩ := encodeParts_cons_of_not_isMet hmet rest
      exact .inr ⟨e, he, [], rest, rfl, hmet, fun _ h => absurd h List.not_mem_nil⟩

end Walk

/-! ## What can be encoded -/

section Encode

variable {ad : Advertisement}

/-- **The encoder writes all fields, or stops at the first that is not met.** -/
theorem encode_cases (ad : Advertisement) :
    (∃ m, encode ad = .ok m ∧ ∀ field ∈ checkedFields ad, field.IsMet ad) ∨
    ∃ e, encode ad = .error e ∧ e.IsFirst ad (checkedFields ad) := by
  rw [encode, parts_eq]
  obtain ⟨entries, hentries, hmet⟩ | ⟨e, he, hfirst⟩ := encodeParts_filterMap ad (checkedFields ad)
  · rw [hentries]
    exact .inl ⟨_, rfl, hmet⟩
  · rw [he]
    exact .inr ⟨e, rfl, hfirst⟩

theorem exists_encode_iff : (∃ m, encode ad = .ok m) ↔ ∀ field : Field, field.IsMet ad := by
  obtain ⟨m, hm, hmet⟩ | ⟨e, he, -, -, -, hfault, -⟩ := encode_cases ad
  · refine iff_of_true ⟨m, hm⟩ fun field => ?_
    by_cases hfield : field ∈ checkedFields ad
    · exact hmet field hfield
    · exact isMet_of_notMem_checkedFields hfield
  · refine iff_of_false ?_ fun hmet => hfault (hmet e.field)
    rintro ⟨m, hm⟩
    cases he.symm.trans hm

theorem isFirst_of_encode {e : EncodeError} (h : encode ad = .error e) :
    e.IsFirst ad (checkedFields ad) := by
  obtain ⟨m, hm, -⟩ | ⟨first, hfirst, hisFirst⟩ := encode_cases ad
  · cases hm.symm.trans h
  · obtain rfl := Except.error.inj (hfirst.symm.trans h)
    exact hisFirst

/-- What the encoder accepts fits into its bounds. -/
theorem length_le_of_encode {m : Characteristics} (h : encode ad = .ok m) :
    ∀ value ∈ m.values, value.length ≤ 512 := by
  obtain ⟨rfl, htell⟩ := encode_eq_ok_iff.mp h
  intro value hvalue
  obtain ⟨e, he, rfl⟩ := List.mem_map.mp hvalue
  obtain ⟨f, hf, rfl⟩ := List.mem_map.mp (Table.of_mem_ofList he)
  exact (htell f hf).2

end Encode

/-- **An advertisement is encoded exactly if every field of it is in order.** Then every value fits a
characteristic and, as far as the digest tells the keys apart, there is one characteristic for each
fact and no other. Otherwise the fault that is reported is with the first field that is not in
order. -/
theorem encode_checks_every_field (ad : Advertisement) :
    ((∃ m, encode ad = .ok m) ↔ ∀ field : Field, field.IsMet ad) ∧
      (∀ m, encode ad = .ok m →
        (∀ value ∈ m.values, value.length ≤ 512) ∧
          (TellsApart (wireKeys ad) → m.entries.Perm ((facts ad).map Fact.entry))) ∧
      ∀ e, encode ad = .error e → e.IsFirst ad (checkedFields ad) := by
  refine ⟨exists_encode_iff, fun m hm => ?_, fun e he => isFirst_of_encode he⟩
  exact ⟨length_le_of_encode hm, perm_of_encode hm⟩

/-- A room that has lost its name, with a key that cannot be cut off. -/
def nameless : Advertisement := { room with interfaceName := "" }.setAttribute "a=b" ""

theorem encode_checks_every_field_room :
    (∀ field : Field, field.IsMet room) ∧
      (∃ m, encode room = .ok m ∧ m.entries.Perm ((facts room).map Fact.entry)) ∧
      ∃ e, encode nameless = .error e ∧ e.field = .interfaceName ∧
        e.IsFirst nameless (checkedFields nameless) := by
  obtain ⟨hroom, hok, -⟩ := encode_checks_every_field room
  obtain ⟨-, -, hfirst⟩ := encode_checks_every_field nameless
  have hexists : ∃ m, encode room = .ok m := by
    rcases hm : encode room with e | m
    · have hok : (encode room).toBool = true := by decide +kernel
      rw [hm] at hok
      cases hok
    · exact ⟨m, rfl⟩
  obtain ⟨m, hm⟩ := hexists
  have hapart : TellsApart (wireKeys room) := by decide +kernel
  exact ⟨hroom.mp ⟨m, hm⟩, ⟨m, hm, (hok m hm).2 hapart⟩, _, rfl, rfl, hfirst _ rfl⟩

end Nearby.Characteristics
