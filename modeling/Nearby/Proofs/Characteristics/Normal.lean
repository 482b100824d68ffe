import Nearby.Proofs.Characteristics.Gaps

/-!
# What was read from a stranger can be told again

Characteristics may come from anybody. Lengths may be written in more bytes than they need, keys may
stand under any identifier, the same key under two of them, and some of it makes no sense at all. What
is read from them is in order all the same: every fact of it was read from one characteristic
(`of_isTrueOf_decode`), and a fact that was read is told in no more bytes than it was read from
(`isTellable_of_readFact`). So it may be told again, unless it lacks what any advertisement must have,
and is then read as the same (`encode_decode`).
-/

namespace Nearby.Characteristics

/-! ## Reading leaves nothing over -/

theorem exists_of_map_eq_ok {ε α β : Type} {f : α → β} {x : Except ε α} {b : β}
    (h : x.map f = .ok b) : ∃ a, x = .ok a ∧ f a = b := by
  rcases x with e | a
  · cases h
  · exact ⟨a, rfl, Except.ok.inj h⟩

theorem of_mapError_eq_ok {ε ε' α : Type} {f : ε → ε'} {x : Except ε α} {a : α}
    (h : x.mapError f = .ok a) : x = .ok a := by
  rcases x with e | b
  · cases h
  · exact congrArg Except.ok (Except.ok.inj h)

theorem exists_of_bind_eq_ok {ε α β : Type} {f : α → Except ε β} {x : Except ε α} {b : β}
    (h : (x >>= f) = .ok b) : ∃ a, x = .ok a ∧ f a = .ok b := by
  rcases x with e | a
  · cases h
  · exact ⟨a, rfl, h⟩

variable {field : Field} {bytes : Bytes}

/-- A text that was read is written as it was. -/
theorem encode_of_readText {text : String} (h : readText field bytes = .ok text) :
    Utf8.encode text = bytes := Utf8.encode_of_decode (of_mapError_eq_ok h)

theorem map_encode_of_readTexts {items : List Bytes} {texts : List String}
    (h : readTexts field items = .ok texts) : texts.map Utf8.encode = items := by
  induction items generalizing texts with
  | nil =>
    obtain rfl := Except.ok.inj h
    rfl
  | cons item rest ih =>
    rw [readTexts] at h
    rcases hitem : readText field item with e | text
    · simp only [hitem] at h
      cases h
    simp only [hitem] at h
    obtain ⟨others, hrest, rfl⟩ := exists_of_map_eq_ok h
    rw [List.map_cons, encode_of_readText hitem, ih hrest]

/-- A list of texts is told in no more bytes than it was read from. -/
theorem length_packTexts_le {texts : List String}
    (h : (readList field bytes >>= readTexts field) = .ok texts) :
    (packTexts texts).length ≤ bytes.length := by
  obtain ⟨items, hitems, htexts⟩ := exists_of_bind_eq_ok h
  rw [packTexts, map_encode_of_readTexts htexts]
  exact PackedList.length_pack_le_of_unpack (of_mapError_eq_ok hitems)

/-- Encryption metadata is told in no more bytes than it was read from. The algorithm is known by its
own code, for it was found by that. -/
theorem of_readEncryption {e : Encryption} (h : readEncryption bytes = .ok e) :
    (packEncryption e).length ≤ bytes.length ∧ Algorithm.ofCode e.algorithm.code = e.algorithm := by
  rw [readEncryption] at h
  rcases hread : Varint.read? bytes with _ | ⟨code, rest⟩
  · simp only [hread] at h
    cases h
  simp only [hread] at h
  by_cases hword : code.toNat < UInt32.size
  · rw [if_pos hword] at h
    obtain ⟨keys, hkeys, rfl⟩ := exists_of_map_eq_ok h
    have hcode : (Algorithm.ofCode code.toUInt32).code.toUInt64 = code := by
      rw [Algorithm.code_ofCode, ← UInt64.toNat_inj, UInt32.toNat_toUInt64, UInt64.toNat_toUInt32]
      exact Nat.mod_eq_of_lt hword
    have hlength := Varint.length_encode_le_of_read? hread
    have hrest := PackedList.length_pack_le_of_unpack (of_mapError_eq_ok hkeys)
    have hpacked : packEncryption ⟨.ofCode code.toUInt32, keys⟩ =
        Varint.encode code ++ PackedList.pack keys := by
      rw [packEncryption, hcode]
    refine ⟨?_, by rw [Algorithm.code_ofCode]⟩
    rw [hpacked, List.length_append]
    omega
  · rw [if_neg hword] at h
    cases h

/-- Bytes are cut into a key without separator and what is behind the separator. -/
theorem of_splitKeyValue? {key value : Bytes} (h : splitKeyValue? bytes = some (key, value)) :
    bytes = key ++ separator :: value ∧ separator ∉ key := by
  rw [splitKeyValue?] at h
  rcases hrest : bytes.dropWhile (· != separator) with _ | ⟨byte, rest⟩
  · rw [hrest] at h
    cases h
  rw [hrest] at h
  obtain ⟨rfl, rfl⟩ := Prod.mk.inj (Option.some.inj h)
  have hbyte : byte = separator := by
    have hnot := List.head?_dropWhile_not (· != separator) bytes
    rw [hrest] at hnot
    simpa using hnot
  constructor
  · subst hbyte
    rw [← hrest, List.takeWhile_append_dropWhile]
  · intro hmem
    have htaken := List.all_eq_true.mp (List.all_takeWhile (p := (· != separator))) separator hmem
    exact bne_iff_ne.mp htaken rfl

/-- What is marked is the key of an attachment. -/
theorem attachmentKey?_of_isMarked {key : String} (h : IsMarked key) :
    attachmentKey? key =
      some (String.ofList (key.toList.drop attachmentPrefix.toList.length)) := if_pos h

/-- The mark is put back as it was taken off. -/
theorem wireKey_of_attachmentKey? {key name : String} (h : attachmentKey? key = some name) :
    wireKey name = key := by
  by_cases hmark : IsMarked key
  · obtain rfl := Option.some.inj ((attachmentKey?_of_isMarked hmark).symm.trans h)
    obtain ⟨rest, hrest⟩ := List.isPrefixOf_iff_prefix.mp hmark
    rw [← String.toList_inj, toList_wireKey, String.toList_ofList, ← hrest, List.drop_left]
  · rw [attachmentKey?_of_not_isMarked hmark] at h
    cases h

theorem not_isMarked_of_attachmentKey? {key : String} (h : attachmentKey? key = none) :
    ¬ IsMarked key := by
  intro hmark
  rw [attachmentKey?_of_isMarked hmark] at h
  cases h

/-! ## Facts that were read -/

/-- True for a fact that gives a name where a name is needed: an identifier is not zero, an interface
name and a key are not empty. -/
def Fact.IsNamed : Fact → Prop
  | .id adId => adId.isZero = false
  | .interfaceName name => name ≠ ""
  | .attribute key _ => key ≠ ""
  | .attachment key _ => key ≠ ""
  | _ => True

/-- **What a key and a value are read as**: an attachment if the key is marked, an attribute
otherwise. -/
theorem readKeyValue_eq_ok_iff {f : Fact} :
    readKeyValue bytes = .ok f ↔
      (∃ key text, f = .attribute key text ∧ bytes = joinKeyValue key (Utf8.encode text) ∧
        separator ∉ Utf8.encode key ∧ ¬ IsMarked key) ∨
      ∃ name value, f = .attachment name value ∧ bytes = joinKeyValue (wireKey name) value ∧
        separator ∉ Utf8.encode (wireKey name) := by
  constructor
  · intro h
    rw [readKeyValue] at h
    rcases hsplit : splitKeyValue? bytes with _ | ⟨key, value⟩
    · simp [hsplit] at h
    obtain ⟨rfl, hseparator⟩ := of_splitKeyValue? hsplit
    simp only [hsplit] at h
    rcases hkey : readText .attributes key with e | name
    · simp [hkey] at h
    obtain rfl := encode_of_readText hkey
    simp only [hkey] at h
    rcases hmark : attachmentKey? name with _ | inner
    · simp only [hmark] at h
      obtain ⟨text, htext, rfl⟩ := exists_of_map_eq_ok h
      obtain rfl := encode_of_readText htext
      exact .inl ⟨name, text, rfl, rfl, hseparator, not_isMarked_of_attachmentKey? hmark⟩
    · simp only [hmark] at h
      obtain rfl := Except.ok.inj h
      obtain rfl := wireKey_of_attachmentKey? hmark
      exact .inr ⟨inner, value, rfl, rfl, hseparator⟩
  · rintro (⟨key, text, rfl, rfl, hseparator, hmark⟩ | ⟨name, value, rfl, rfl, hseparator⟩)
    · exact readKeyValue_attribute hseparator hmark text
    · exact readKeyValue_attachment (mt separator_mem_wireKey.mpr hseparator) value

/-- A key and its value are told as they were read, and the key that was found is one that may be
told. -/
theorem of_readKeyValue {f : Fact} (h : readKeyValue bytes = .ok f) :
    f.value = bytes ∧ (f.IsNamed → f.IsSound) := by
  obtain ⟨key, text, rfl, rfl, hseparator, hmark⟩ | ⟨name, value, rfl, rfl, hseparator⟩ :=
    readKeyValue_eq_ok_iff.mp h
  · exact ⟨rfl, fun hnamed => ⟨keyReason?_eq_none_iff.mpr ⟨hnamed, hseparator⟩, hmark⟩⟩
  · have hname : separator ∉ Utf8.encode name := mt separator_mem_wireKey.mpr hseparator
    exact ⟨rfl, fun hnamed => keyReason?_eq_none_iff.mpr ⟨hnamed, hname⟩⟩

/-- **A fact that was read may be told**, if it names what it has to name: it takes no more bytes than
it was read from. -/
theorem isTellable_of_readFact {uuid : Uuid} {f : Fact} (h : readFact uuid bytes = .ok f)
    (hlength : bytes.length ≤ maxLength) (hnamed : f.IsNamed) : f.IsTellable := by
  rw [readFact] at h
  -- each characteristic has a form of its own, in the order in which the decoder looks for them
  split at h
  · rcases hid : AdId.ofBytes? bytes with _ | adId
    · simp only [hid] at h
      cases h
    simp only [hid] at h
    obtain rfl := Except.ok.inj h
    exact ⟨hnamed, by rw [Fact.value, AdId.bytes, adId.octets.length_bytes]; decide⟩
  split at h
  · obtain ⟨name, hname, rfl⟩ := exists_of_map_eq_ok h
    exact ⟨hnamed, by rwa [Fact.value, encode_of_readText hname]⟩
  split at h
  · obtain ⟨texts, htexts, rfl⟩ := exists_of_map_eq_ok h
    exact ⟨trivial, Nat.le_trans (length_packTexts_le htexts) hlength⟩
  split at h
  · obtain ⟨e, he, rfl⟩ := exists_of_map_eq_ok h
    obtain ⟨hpacked, hcode⟩ := of_readEncryption he
    exact ⟨hcode, Nat.le_trans hpacked hlength⟩
  split at h
  · rcases hhash : AdHash.ofBytes? bytes with _ | adHash
    · simp only [hhash] at h
      cases h
    simp only [hhash] at h
    obtain rfl := Except.ok.inj h
    exact ⟨trivial, by rw [Fact.value, AdHash.bytes, adHash.octets.length_bytes]; decide⟩
  split at h
  · obtain ⟨texts, htexts, rfl⟩ := exists_of_map_eq_ok h
    exact ⟨trivial, Nat.le_trans (length_packTexts_le htexts) hlength⟩
  · obtain ⟨hvalue, hsound⟩ := of_readKeyValue h
    exact ⟨hsound hnamed, by rwa [hvalue]⟩

/-! ## Facts that were learnt -/

/-- A fact is one of those an advertisement has. -/
def Fact.IsTrueOf (ad : Advertisement) : Fact → Prop
  | .id adId => adId = ad.id
  | .interfaceName name => name = ad.interfaceName
  | .addresses texts => ad.addresses ≠ [] ∧ texts = ad.addresses
  | .encryption e => ad.encryption = some e
  | .hash adHash => adHash = ad.hash
  | .directories texts => ad.directories ≠ [] ∧ texts = ad.directories
  | .attribute key text => ad.attributes.get? key = some text
  | .attachment key value => ad.attachments.get? key = some value

/-- The facts of an advertisement are those that are true of it. -/
theorem mem_facts_iff {ad : Advertisement} {f : Fact} : f ∈ facts ad ↔ f.IsTrueOf ad := by
  cases f with
  | «attribute» key text =>
    rw [Fact.IsTrueOf, Table.get?_eq_some_iff]
    simp [facts, fixedFacts, attributeFacts, attachmentFacts]
  | attachment key value =>
    rw [Fact.IsTrueOf, Table.get?_eq_some_iff]
    simp [facts, fixedFacts, attributeFacts, attachmentFacts]
  | _ => simp [facts, fixedFacts, attributeFacts, attachmentFacts, Fact.IsTrueOf]

/-- What is true after a fact was learnt was true before, or is that fact. -/
theorem isTrueOf_learn {ad : Advertisement} {f g : Fact} (h : g.IsTrueOf (learn ad f)) :
    g = f ∨ g.IsTrueOf ad := by
  cases f <;> cases g
  -- two facts of one kind are the same, or they are about different keys
  case id.id | interfaceName.interfaceName | hash.hash => exact .inl (congrArg _ h)
  case addresses.addresses | directories.directories => exact .inl (congrArg _ h.2)
  case encryption.encryption => exact .inl (congrArg _ (Option.some.inj h).symm)
  case «attribute».«attribute» k v j w =>
    have hfound : (ad.attributes.insert k v).get? j = some w := h
    rw [Table.get?_insert] at hfound
    by_cases hkey : j = k
    · rw [if_pos hkey] at hfound
      rw [hkey, Option.some.inj hfound]
      exact .inl rfl
    · rw [if_neg hkey] at hfound
      exact .inr hfound
  case attachment.attachment k v j w =>
    have hfound : (ad.attachments.insert k v).get? j = some w := h
    rw [Table.get?_insert] at hfound
    by_cases hkey : j = k
    · rw [if_pos hkey] at hfound
      rw [hkey, Option.some.inj hfound]
      exact .inl rfl
    · rw [if_neg hkey] at hfound
      exact .inr hfound
  all_goals exact .inr h

/-- What is true of a blank advertisement and kept by every fact that is read is true of what is
decoded. -/
theorem decode_induction {P : Advertisement → Prop} {m : Characteristics} (hblank : P .blank)
    (hlearn : ∀ ad entry f, entry ∈ m.entries → readFact entry.1 entry.2 = .ok f → P ad →
      P (learn ad f)) : P (decode m).ad := by
  have hfold : ∀ (entries : List (Uuid × Bytes)) (d : Decoded), (∀ e ∈ entries, e ∈ m.entries) →
      P d.ad → P (entries.foldl Decoded.add d).ad := by
    intro entries
    induction entries with
    | nil => exact fun d _ hd => hd
    | cons entry rest ih =>
      intro d hentries hd
      obtain ⟨hentry, hrest⟩ := List.forall_mem_cons.mp hentries
      refine ih (d.add entry) hrest ?_
      rw [Decoded.add]
      rcases hread : readFact entry.1 entry.2 with e | f
      · exact hd
      · exact hlearn d.ad entry f hentry hread hd
  exact hfold m.entries ⟨.blank, []⟩ (fun _ h => h) hblank

/-- **What is decoded was read**: whatever it has that a blank advertisement has not was told by one
of the characteristics. -/
theorem of_isTrueOf_decode {m : Characteristics} {f : Fact} (h : f.IsTrueOf (decode m).ad) :
    f.IsTrueOf .blank ∨ ∃ entry ∈ m.entries, readFact entry.1 entry.2 = .ok f := by
  refine decode_induction (m := m)
    (P := fun ad => f.IsTrueOf ad → f.IsTrueOf .blank ∨
      ∃ entry ∈ m.entries, readFact entry.1 entry.2 = .ok f) Or.inl ?_ h
  intro ad entry g hentry hread ih hg
  rcases isTrueOf_learn hg with rfl | hbefore
  · exact .inr ⟨entry, hentry, hread⟩
  · exact ih hbefore

/-- Decoding reports nothing as withdrawn. -/
theorem lost_decode (m : Characteristics) : (decode m).ad.lost = false := by
  refine decode_induction (P := fun ad => ad.lost = false) rfl ?_
  intro ad entry f _ _ hkept
  cases f <;> exact hkept

/-! ## Telling again what was read -/

/-- A fact about an advertisement names what it has to name, if the advertisement does. -/
theorem isNamed_of_isTrueOf {ad : Advertisement} {f : Fact} (h : f.IsTrueOf ad)
    (hid : ad.id.isZero = false) (hname : ad.interfaceName ≠ "")
    (hattributes : "" ∉ ad.attributes.keys) (hattachments : "" ∉ ad.attachments.keys) :
    f.IsNamed := by
  cases f with
  | id adId =>
    obtain rfl : adId = ad.id := h
    exact hid
  | interfaceName name =>
    obtain rfl : name = ad.interfaceName := h
    exact hname
  | «attribute» key text =>
    rintro rfl
    exact hattributes (Table.mem_keys.mpr ⟨text, h⟩)
  | attachment key value =>
    rintro rfl
    exact hattachments (Table.mem_keys.mpr ⟨value, h⟩)
  | _ => trivial

/-- What a blank advertisement has may be told, if it is named, and that is its hash. -/
theorem isTellable_of_isTrueOf_blank {f : Fact} (h : f.IsTrueOf .blank) (hnamed : f.IsNamed) :
    f.IsTellable := by
  cases f with
  | id adId =>
    obtain rfl : adId = default := h
    cases hnamed
  | interfaceName name => exact absurd h hnamed
  | hash adHash =>
    obtain rfl : adHash = default := h
    exact ⟨trivial, by decide⟩
  | addresses texts => exact absurd rfl h.1
  | directories texts => exact absurd rfl h.1
  | encryption e => cases h
  | «attribute» key text => cases h
  | attachment key value => cases h

/-- **What was read can be told again, and is then read as the same.** The characteristics may come
from anybody, as long as each of them fits; what they tell is of use if it has an identifier, a name
and no empty key. -/
theorem encode_decode {m : Characteristics} (hlength : ∀ value ∈ m.values, value.length ≤ maxLength)
    (hid : (decode m).ad.id.isZero = false) (hname : (decode m).ad.interfaceName ≠ "")
    (hattributes : "" ∉ (decode m).ad.attributes.keys)
    (hattachments : "" ∉ (decode m).ad.attachments.keys)
    (hapart : TellsApart (wireKeys (decode m).ad)) :
    ∃ again, encode (decode m).ad = .ok again ∧ decode again = ⟨(decode m).ad, []⟩ := by
  have htell : ∀ f ∈ facts (decode m).ad, f.IsTellable := by
    intro f hf
    have htrue : f.IsTrueOf (decode m).ad := mem_facts_iff.mp hf
    have hnamed := isNamed_of_isTrueOf htrue hid hname hattributes hattachments
    rcases of_isTrueOf_decode htrue with hblank | ⟨entry, hentry, hread⟩
    · exact isTellable_of_isTrueOf_blank hblank hnamed
    · exact isTellable_of_readFact hread (hlength _ (List.mem_map_of_mem hentry)) hnamed
  have hencode := encode_eq_ok_iff.mpr ⟨rfl, htell⟩
  exact ⟨_, hencode, decode_eq_of_told hencode hapart (lost_decode m)⟩

/-- Characteristics from a stranger: the length of an address takes three bytes, a key stands under two
identifiers that are not derived from it, an attachment under one that is another's, and one
characteristic makes no sense. -/
def foreign : Characteristics :=
  .ofList [(idUuid, List.replicate 16 7), (interfaceNameUuid, Utf8.encode "room"),
    (addressesUuid, [0x82, 0x80, 0x00] ++ Utf8.encode "up"), (.ofNat 1, Utf8.encode "door=blue"),
    (.ofNat 2, Utf8.encode "door=a=b"), (attributeUuid "door", Utf8.encode "__icon=" ++ [0xFF]),
    (.ofNat 3, Utf8.encode "no key")]

theorem encode_decode_foreign :
    (decode foreign).ad.addresses = ["up"] ∧ (decode foreign).skipped.length = 1 ∧
      ∃ again, encode (decode foreign).ad = .ok again ∧ decode again = ⟨(decode foreign).ad, []⟩ := by
  have hlength : ∀ value ∈ foreign.values, value.length ≤ maxLength := by decide +kernel
  have hname : (decode foreign).ad.interfaceName ≠ "" := by decide +kernel
  have hattributes : "" ∉ (decode foreign).ad.attributes.keys := by decide +kernel
  have hattachments : "" ∉ (decode foreign).ad.attachments.keys := by decide +kernel
  have hapart : TellsApart (wireKeys (decode foreign).ad) := by decide +kernel
  exact ⟨by decide +kernel, by decide +kernel,
    encode_decode hlength (by decide +kernel) hname hattributes hattachments hapart⟩

end Nearby.Characteristics
