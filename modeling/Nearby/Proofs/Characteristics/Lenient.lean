import Nearby.Proofs.Characteristics.Fields
import Nearby.Proofs.Latest

/-!
# Bad characteristics spoil nothing but themselves

A characteristic is malformed if decoding it on its own fails (`isMalformed`); what it has to look like
depends on its identifier (`IsWellFormed`). Decoding takes the characteristics one after the other, and
a malformed one adds its note and leaves the advertisement as it is. So the advertisement is the one
that the others tell, and the notes are those on the malformed ones, by ascending identifier
(`decode_skips_malformed`).

What the others tell can be read off them one by one: a built-in field stands under its own identifier,
and of the other characteristics the last one that holds a key has its value (`IsReadFrom`).
-/

namespace Nearby.Characteristics

/-! ## Malformed characteristics -/

/-- A characteristic on its own. -/
def alone (entry : Uuid × Bytes) : Characteristics := Table.ofList [entry]

/-- True for a characteristic that cannot be decoded on its own. -/
def isMalformed (uuid : Uuid) (value : Bytes) : Bool :=
  !(decode (alone (uuid, value))).skipped.isEmpty

/-- The characteristics that make sense. -/
def wellFormed (m : Characteristics) : Characteristics :=
  m.filter fun uuid value => !isMalformed uuid value

/-- The characteristics that make no sense. -/
def malformed (m : Characteristics) : Characteristics := m.filter isMalformed

/-- True for the bytes of a text. -/
def IsText (bytes : Bytes) : Prop := ∃ text, Utf8.encode text = bytes

/-- True for a packed list of texts. -/
def IsTextList (bytes : Bytes) : Prop :=
  ∃ items, PackedList.unpack bytes = .ok items ∧ ∀ item ∈ items, IsText item

/-- True for the code of an algorithm, of 32 bits, followed by a packed list. -/
def IsEncryption (bytes : Bytes) : Prop :=
  ∃ code rest keys, Varint.read? bytes = some (code, rest) ∧ code.toNat < UInt32.size ∧
    PackedList.unpack rest = .ok keys

/-- True for a key and a value with a separator between them. The value of an attribute is text. -/
def IsKeyValue (bytes : Bytes) : Prop :=
  ∃ key value, bytes = joinKeyValue key value ∧ separator ∉ Utf8.encode key ∧
    (IsMarked key ∨ IsText value)

/-- What a characteristic has to hold. -/
def IsWellFormed (uuid : Uuid) (value : Bytes) : Prop :=
  if uuid = idUuid then value.length = AdId.byteLength
  else if uuid = interfaceNameUuid then IsText value
  else if uuid = addressesUuid then IsTextList value
  else if uuid = encryptionUuid then IsEncryption value
  else if uuid = hashUuid then value.length = AdHash.byteLength
  else if uuid = directoriesUuid then IsTextList value
  else IsKeyValue value

section Reading

variable {field : Field} {bytes : Bytes}

theorem exists_map_eq_ok_iff {ε α β : Type} {f : α → β} {x : Except ε α} :
    (∃ b, x.map f = .ok b) ↔ ∃ a, x = .ok a := by
  constructor
  · rintro ⟨b, hb⟩
    obtain ⟨a, ha, -⟩ := exists_of_map_eq_ok hb
    exact ⟨a, ha⟩
  · rintro ⟨a, rfl⟩
    exact ⟨f a, rfl⟩

theorem readText_eq_ok_iff {text : String} :
    readText field bytes = .ok text ↔ Utf8.encode text = bytes := by
  constructor
  · exact encode_of_readText
  · rintro rfl
    rw [readText, Utf8.decode_encode]
    rfl

/-- Texts can be read if all of them can. -/
theorem exists_readTexts_iff {items : List Bytes} :
    (∃ texts, readTexts field items = .ok texts) ↔ ∀ item ∈ items, IsText item := by
  constructor
  · rintro ⟨texts, htexts⟩
    obtain rfl := map_encode_of_readTexts htexts
    simp [IsText]
  · intro h
    obtain ⟨texts, rfl⟩ : ∃ texts : List String, texts.map Utf8.encode = items := by
      induction items with
      | nil => exact ⟨[], rfl⟩
      | cons item rest ih =>
        obtain ⟨⟨text, rfl⟩, hrest⟩ := List.forall_mem_cons.mp h
        obtain ⟨texts, rfl⟩ := ih hrest
        exact ⟨text :: texts, rfl⟩
    exact ⟨texts, readTexts_map_encode field texts⟩

theorem readList_eq_ok_iff {items : List Bytes} :
    readList field bytes = .ok items ↔ PackedList.unpack bytes = .ok items := by
  constructor
  · exact of_mapError_eq_ok
  · intro h
    rw [readList, h]
    rfl

theorem exists_readTextList_iff :
    (∃ texts, (readList field bytes >>= readTexts field) = .ok texts) ↔ IsTextList bytes := by
  constructor
  · rintro ⟨texts, h⟩
    obtain ⟨items, hitems, htexts⟩ := exists_of_bind_eq_ok h
    exact ⟨items, readList_eq_ok_iff.mp hitems, exists_readTexts_iff.mp ⟨texts, htexts⟩⟩
  · rintro ⟨items, hitems, htexts⟩
    rw [readList_eq_ok_iff.mpr hitems]
    exact exists_readTexts_iff.mpr htexts

/-- An encryption can be read if it is well formed. -/
theorem exists_readEncryption_iff : (∃ e, readEncryption bytes = .ok e) ↔ IsEncryption bytes := by
  rw [readEncryption, IsEncryption]
  rcases hread : Varint.read? bytes with _ | ⟨code, rest⟩
  · simp
  by_cases hword : code.toNat < UInt32.size
  · simp [hword, exists_map_eq_ok_iff, readList_eq_ok_iff]
  · simp [hword]

theorem exists_readKeyValue_iff : (∃ f, readKeyValue bytes = .ok f) ↔ IsKeyValue bytes := by
  simp only [readKeyValue_eq_ok_iff]
  constructor
  · rintro ⟨f, ⟨key, text, -, rfl, hseparator, -⟩ | ⟨name, value, -, rfl, hseparator⟩⟩
    · exact ⟨key, _, rfl, hseparator, .inr ⟨text, rfl⟩⟩
    · exact ⟨_, value, rfl, hseparator, .inl (isMarked_wireKey name)⟩
  · rintro ⟨key, value, rfl, hseparator, htext⟩
    by_cases hmark : IsMarked key
    · have hkey := wireKey_of_attachmentKey? (attachmentKey?_of_isMarked hmark)
      rw [← hkey] at hseparator ⊢
      exact ⟨_, .inr ⟨_, value, rfl, rfl, hseparator⟩⟩
    · obtain ⟨text, rfl⟩ := htext.resolve_left hmark
      exact ⟨_, .inl ⟨key, text, rfl, rfl, hseparator, hmark⟩⟩

theorem isSome_ofBytes?_iff {n : Nat} :
    (Octets.ofBytes? bytes : Option (Octets n)).isSome = true ↔ bytes.length = n := by
  rw [Octets.ofBytes?]
  split
  · simp [*]
  · simp [*]

theorem exists_readFact_idUuid_iff :
    (∃ f, readFact idUuid bytes = .ok f) ↔ bytes.length = AdId.byteLength := by
  have hlength : (AdId.ofBytes? bytes).isSome = true ↔ bytes.length = AdId.byteLength := by
    rw [AdId.ofBytes?, Option.isSome_map, isSome_ofBytes?_iff]
    rfl
  rw [readFact_idUuid, ← hlength]
  rcases AdId.ofBytes? bytes with _ | adId
  · simp
  · simp

theorem exists_readFact_hashUuid_iff :
    (∃ f, readFact hashUuid bytes = .ok f) ↔ bytes.length = AdHash.byteLength := by
  have hlength : (AdHash.ofBytes? bytes).isSome = true ↔ bytes.length = AdHash.byteLength := by
    rw [AdHash.ofBytes?, Option.isSome_map, isSome_ofBytes?_iff]
    rfl
  rw [readFact_hashUuid, ← hlength]
  rcases AdHash.ofBytes? bytes with _ | adHash
  · simp
  · simp

/-- **A characteristic can be read exactly if it holds what it has to.** -/
theorem exists_readFact_iff {uuid : Uuid} :
    (∃ f, readFact uuid bytes = .ok f) ↔ IsWellFormed uuid bytes := by
  by_cases hmem : uuid ∈ builtIn
  · simp only [builtIn, List.mem_cons, List.not_mem_nil, or_false] at hmem
    rcases hmem with rfl | rfl | rfl | rfl | rfl | rfl
    · exact exists_readFact_idUuid_iff
    · simp only [readFact_interfaceNameUuid, exists_map_eq_ok_iff, readText_eq_ok_iff]
      rfl
    · simp only [readFact_addressesUuid, exists_map_eq_ok_iff, exists_readTextList_iff]
      rfl
    · simp only [readFact_encryptionUuid, exists_map_eq_ok_iff, exists_readEncryption_iff]
      rfl
    · exact exists_readFact_hashUuid_iff
    · simp only [readFact_directoriesUuid, exists_map_eq_ok_iff, exists_readTextList_iff]
      rfl
  · rw [readFact_of_notMem_builtIn hmem, exists_readKeyValue_iff]
    simp only [builtIn, List.mem_cons, List.not_mem_nil, or_false, not_or] at hmem
    obtain ⟨h1, h2, h3, h4, h5, h6⟩ := hmem
    rw [IsWellFormed, if_neg h1, if_neg h2, if_neg h3, if_neg h4, if_neg h5, if_neg h6]

end Reading

/-! ## One characteristic after the other -/

/-- A characteristic on its own is decoded in one step. -/
theorem decode_alone (entry : Uuid × Bytes) :
    decode (alone entry) = (⟨.blank, []⟩ : Decoded).add entry := rfl

/-- What is malformed is what is not well formed. -/
theorem isMalformed_iff {uuid : Uuid} {value : Bytes} :
    isMalformed uuid value = true ↔ ¬ IsWellFormed uuid value := by
  rw [← exists_readFact_iff, isMalformed, decode_alone, Decoded.add]
  rcases readFact uuid value with e | f
  · simp
  · simp

/-- A malformed characteristic has one note on it, a well-formed one none. -/
theorem uuids_skipped_alone (entry : Uuid × Bytes) :
    (decode (alone entry)).skipped.map Skipped.uuid =
      if isMalformed entry.1 entry.2 then [entry.1] else [] := by
  rw [isMalformed, decode_alone, Decoded.add]
  rcases readFact entry.1 entry.2 with e | f
  · rfl
  · rfl

/-- An entry is skipped by itself, whatever was read before. -/
theorem skipped_add (d : Decoded) (entry : Uuid × Bytes) :
    (d.add entry).skipped = d.skipped ++ (decode (alone entry)).skipped := by
  rw [decode_alone, Decoded.add, Decoded.add]
  rcases readFact entry.1 entry.2 with e | f
  · rfl
  · exact (List.append_nil _).symm

/-- A malformed characteristic leaves the advertisement as it is. -/
theorem ad_add_of_isMalformed (d : Decoded) {entry : Uuid × Bytes}
    (h : isMalformed entry.1 entry.2 = true) : (d.add entry).ad = d.ad := by
  rw [isMalformed_iff, ← exists_readFact_iff] at h
  rw [Decoded.add]
  rcases hread : readFact entry.1 entry.2 with e | f
  · rfl
  · exact absurd ⟨f, hread⟩ h

/-- What was skipped before has no part in the advertisement. -/
theorem ad_add_congr {d d' : Decoded} (h : d.ad = d'.ad) (entry : Uuid × Bytes) :
    (d.add entry).ad = (d'.add entry).ad := by
  rw [Decoded.add, Decoded.add]
  rcases readFact entry.1 entry.2 with e | f
  · exact h
  · exact congrArg (learn · f) h

theorem skipped_foldl_add (entries : List (Uuid × Bytes)) (d : Decoded) :
    (entries.foldl Decoded.add d).skipped =
      d.skipped ++ entries.flatMap fun entry => (decode (alone entry)).skipped := by
  induction entries generalizing d with
  | nil => exact (List.append_nil _).symm
  | cons entry rest ih =>
    rw [List.foldl_cons, ih, skipped_add, List.flatMap_cons, List.append_assoc]

/-- What is skipped does not bear on the advertisement. -/
theorem ad_foldl_add (entries : List (Uuid × Bytes)) {d d' : Decoded} (h : d.ad = d'.ad) :
    (entries.foldl Decoded.add d).ad =
      ((entries.filter fun entry => !isMalformed entry.1 entry.2).foldl Decoded.add d').ad := by
  induction entries generalizing d d' with
  | nil => exact h
  | cons entry rest ih =>
    rcases hbad : isMalformed entry.1 entry.2 with _ | _
    · rw [List.filter_cons_of_pos (by simp [hbad])]
      exact ih (ad_add_congr h entry)
    · rw [List.filter_cons_of_neg (by simp [hbad])]
      exact ih ((ad_add_of_isMalformed d hbad).trans h)

/-- The warnings of a map are those of its entries, in order. -/
theorem skipped_decode (m : Characteristics) :
    (decode m).skipped = m.entries.flatMap fun entry => (decode (alone entry)).skipped :=
  skipped_foldl_add m.entries _

/-- Notes are made on the malformed characteristics, one each, in the order of their identifiers. -/
theorem uuids_skipped_decode (m : Characteristics) :
    (decode m).skipped.map Skipped.uuid = m.malformed.keys := by
  have huuids : ∀ entries : List (Uuid × Bytes),
      (entries.flatMap fun entry => (decode (alone entry)).skipped).map Skipped.uuid =
        (entries.filter fun entry => isMalformed entry.1 entry.2).map (·.1) := by
    intro entries
    induction entries with
    | nil => rfl
    | cons entry rest ih =>
      rw [List.flatMap_cons, List.map_append, uuids_skipped_alone, ih]
      rcases hbad : isMalformed entry.1 entry.2 with _ | _
      · simp [hbad]
      · simp [hbad]
  rw [skipped_decode, huuids]
  rfl

/-- What is well formed is not skipped. -/
theorem skipped_decode_wellFormed (m : Characteristics) : (decode m.wellFormed).skipped = [] := by
  have hnone : m.wellFormed.malformed.keys = [] := by
    simp [Table.keys, malformed, wellFormed, Table.filter, List.filter_filter]
  rw [← uuids_skipped_decode] at hnone
  exact List.map_eq_nil_iff.mp hnone

/-! ## What the others tell -/

/-- A characteristic with another identifier than the built-in ones holds a key and a value. -/
def Holds (m : Characteristics) (uuid : Uuid) (key : String) (value : Bytes) : Prop :=
  uuid ∉ builtIn ∧ m.get? uuid = some (joinKeyValue key value) ∧ separator ∉ Utf8.encode key

/-- An advertisement is read from characteristics: each built-in field from the characteristic under
its identifier, which leaves it blank if it is missing or malformed, and attributes and attachments from
the others, of which the last one with a key counts. A key that is marked is one of an attachment, and
an attribute must be text. -/
structure IsReadFrom (m : Characteristics) (ad : Advertisement) : Prop where
  id : ad.id = ((m.get? idUuid).bind AdId.ofBytes?).getD default
  interfaceName : ad.interfaceName =
    ((m.get? interfaceNameUuid).bind fun v => (readText .interfaceName v).toOption).getD ""
  addresses : ad.addresses = ((m.get? addressesUuid).bind fun v =>
    (readList .addresses v >>= readTexts .addresses).toOption).getD []
  encryption : ad.encryption = (m.get? encryptionUuid).bind fun v => (readEncryption v).toOption
  hash : ad.hash = ((m.get? hashUuid).bind AdHash.ofBytes?).getD default
  directories : ad.directories = ((m.get? directoriesUuid).bind fun v =>
    (readList .directories v >>= readTexts .directories).toOption).getD []
  attributes : ∀ key text, ad.attributes.get? key = some text ↔
    ¬ IsMarked key ∧ ∃ uuid, m.Holds uuid key (Utf8.encode text) ∧
      ∀ later other, m.Holds later key (Utf8.encode other) → compare later uuid ≠ .gt
  attachments : ∀ name value, ad.attachments.get? name = some value ↔
    ∃ uuid, m.Holds uuid (wireKey name) value ∧
      ∀ later other, m.Holds later (wireKey name) other → compare later uuid ≠ .gt
  lost : ad.lost = false

/-- A field that is told as it is under a built-in identifier. -/
theorem field_decode_of_read {α : Type} {own : Uuid} {read : Bytes → Except DecodeError α}
    {told : α → Fact} (hread : ∀ bytes, readFact own bytes = (read bytes).map told)
    {get : Advertisement → α} (htold : ∀ ad a, get (learn ad (told a)) = a)
    (hget : ∀ ad f, f.builtIn? ≠ some own → get (learn ad f) = get ad) (m : Characteristics) :
    get (decode m).ad = ((m.get? own).bind fun v => (read v).toOption).getD (get .blank) := by
  apply field_decode get _ _ hget m
  intro d bytes
  rw [Decoded.add, hread]
  rcases read bytes with e | a
  · rfl
  · exact htold d.ad a

/-- **Each field is decoded from its own characteristic**, and is empty without it. -/
theorem interfaceName_decode (m : Characteristics) : (decode m).ad.interfaceName =
    ((m.get? interfaceNameUuid).bind fun v => (readText .interfaceName v).toOption).getD "" := by
  apply field_decode_of_read readFact_interfaceNameUuid fun _ _ => rfl
  intro ad f hf
  cases f with
  | interfaceName name => exact absurd rfl hf
  | _ => rfl

theorem addresses_decode (m : Characteristics) : (decode m).ad.addresses =
    ((m.get? addressesUuid).bind fun v =>
      (readList .addresses v >>= readTexts .addresses).toOption).getD [] := by
  apply field_decode_of_read readFact_addressesUuid fun _ _ => rfl
  intro ad f hf
  cases f with
  | addresses texts => exact absurd rfl hf
  | _ => rfl

theorem directories_decode (m : Characteristics) : (decode m).ad.directories =
    ((m.get? directoriesUuid).bind fun v =>
      (readList .directories v >>= readTexts .directories).toOption).getD [] := by
  apply field_decode_of_read readFact_directoriesUuid fun _ _ => rfl
  intro ad f hf
  cases f with
  | directories texts => exact absurd rfl hf
  | _ => rfl

theorem encryption_decode (m : Characteristics) :
    (decode m).ad.encryption = (m.get? encryptionUuid).bind fun v => (readEncryption v).toOption := by
  have h : (decode m).ad.encryption = ((m.get? encryptionUuid).bind fun v =>
      (readEncryption v).toOption.map some).getD none := by
    apply field_decode Advertisement.encryption
    · intro d bytes
      rw [Decoded.add, readFact_encryptionUuid]
      rcases readEncryption bytes with e | e
      · rfl
      · rfl
    · intro ad f hf
      cases f with
      | encryption e => exact absurd rfl hf
      | _ => rfl
  rw [h]
  rcases m.get? encryptionUuid with _ | v
  · rfl
  · rcases hread : readEncryption v with e | e
    · simp [hread, Except.toOption]
    · simp [hread, Except.toOption]

theorem hash_decode (m : Characteristics) :
    (decode m).ad.hash = ((m.get? hashUuid).bind AdHash.ofBytes?).getD default := by
  apply field_decode Advertisement.hash AdHash.ofBytes?
  · intro d bytes
    rw [Decoded.add, readFact_hashUuid]
    rcases AdHash.ofBytes? bytes with _ | adHash
    · rfl
    · rfl
  · intro ad f hf
    cases f with
    | hash adHash => exact absurd rfl hf
    | _ => rfl

/-! ## Attributes and attachments -/

/-- What several facts may be about is told by the last of them. -/
theorem get_decode {β : Type} {get : Advertisement → Option β} {tell : Fact → Option β}
    (hlearn : ∀ ad f, get (learn ad f) = (tell f).or (get ad)) (hblank : get .blank = none)
    (m : Characteristics) :
    get (decode m).ad =
      lastSome (fun entry => (readFact entry.1 entry.2).toOption.bind tell) m.entries := by
  have hfold : ∀ (entries : List (Uuid × Bytes)) (d : Decoded),
      get (entries.foldl Decoded.add d).ad =
        (lastSome (fun entry => (readFact entry.1 entry.2).toOption.bind tell) entries).or
          (get d.ad) := by
    intro entries
    induction entries with
    | nil => exact fun _ => rfl
    | cons entry rest ih =>
      intro d
      rw [List.foldl_cons, ih, lastSome_cons, Option.or_assoc, Decoded.add]
      rcases readFact entry.1 entry.2 with e | f
      · rfl
      · exact congrArg _ (hlearn d.ad f)
  have h := hfold m.entries ⟨.blank, []⟩
  rw [hblank, Option.or_none] at h
  exact h

/-- In a table the last word is the one under the greatest key. -/
theorem lastSome_entries_eq_some_iff {κ ν β : Type} [Ord κ] [Std.TransOrd κ] [Std.LawfulEqOrd κ]
    {t : Table κ ν} {f : κ × ν → Option β} {b : β} :
    lastSome f t.entries = some b ↔
      ∃ k v, t.get? k = some v ∧ f (k, v) = some b ∧
        ∀ j w c, t.get? j = some w → f (j, w) = some c → compare j k ≠ .gt := by
  simp only [Table.get?_eq_some_iff]
  constructor
  · intro h
    obtain ⟨before, ⟨k, v⟩, behind, hentries, hb, hbehind⟩ := lastSome_eq_some_iff.mp h
    refine ⟨k, v, by simp [hentries], hb, fun j w c hj hc => ?_⟩
    -- entries are in ascending order, so the last is the one with the greatest key
    have hascending := t.ascending
    rw [hentries, List.pairwise_append] at hascending
    rw [hentries, List.mem_append, List.mem_cons] at hj
    rcases hj with hj | hj | hj
    · have hlt : compare j k = .lt := hascending.2.2 _ hj _ List.mem_cons_self
      simp [hlt]
    · obtain rfl : j = k := congrArg Prod.fst hj
      simp [Std.ReflOrd.compare_self]
    · cases (hbehind _ hj).symm.trans hc
  · rintro ⟨k, v, hk, hb, hlast⟩
    obtain ⟨before, behind, hentries⟩ := List.append_of_mem hk
    refine lastSome_eq_some_iff.mpr ⟨before, (k, v), behind, hentries, hb, fun y hy => ?_⟩
    rcases hc : f y with _ | c
    · rfl
    · have hascending := t.ascending
      rw [hentries, List.pairwise_append, List.pairwise_cons] at hascending
      have hgt : compare y.1 k = .gt := Std.OrientedCmp.gt_iff_lt.mpr (hascending.2.1.1 y hy)
      exact absurd hgt (hlast y.1 y.2 c (by simp [hentries, hy]) hc)

/-- **Of several characteristics that hold a key the last one counts**, if what they tell about the
key, under a condition `P` on it, is what they hold with it. -/
theorem get_decode_iff {β : Type} (get : Advertisement → Option β) {tell : Fact → Option β}
    {told : β → Fact} {raw : β → Bytes} {key : String} {P : Prop}
    (htell : ∀ f b, tell f = some b ↔ f = told b)
    (hlearn : ∀ ad f, get (learn ad f) = (tell f).or (get ad)) (hblank : get .blank = none)
    (hread : ∀ uuid bytes b, readFact uuid bytes = .ok (told b) ↔
      P ∧ uuid ∉ builtIn ∧ bytes = joinKeyValue key (raw b) ∧ separator ∉ Utf8.encode key)
    {m : Characteristics} {b : β} :
    get (decode m).ad = some b ↔
      P ∧ ∃ uuid, m.Holds uuid key (raw b) ∧
        ∀ later other, m.Holds later key (raw other) → compare later uuid ≠ .gt := by
  have hfact : ∀ uuid bytes c, (readFact uuid bytes).toOption.bind tell = some c ↔
      readFact uuid bytes = .ok (told c) := by
    intro uuid bytes c
    rcases readFact uuid bytes with e | f
    · simp [Except.toOption]
    · simpa [Except.toOption] using htell f c
  rw [get_decode hlearn hblank, lastSome_entries_eq_some_iff]
  simp only [hfact, hread, Holds]
  constructor
  · rintro ⟨uuid, bytes, hget, ⟨hP, hown, rfl, hseparator⟩, hlast⟩
    refine ⟨hP, uuid, ⟨hown, hget, hseparator⟩, fun later other hlater => ?_⟩
    exact hlast later _ other hlater.2.1 ⟨hP, hlater.1, rfl, hlater.2.2⟩
  · rintro ⟨hP, uuid, ⟨hown, hget, hseparator⟩, hlast⟩
    refine ⟨uuid, _, hget, ⟨hP, hown, rfl, hseparator⟩, ?_⟩
    rintro later bytes other hlater ⟨-, hfree, rfl, hcut⟩
    exact hlast later other ⟨hfree, hlater, hcut⟩

/-- The text that a fact gives the attribute with a key. -/
def Fact.textOf? (key : String) : Fact → Option String
  | .attribute k text => if key = k then some text else none
  | _ => none

/-- The bytes that a fact gives the attachment with a name. -/
def Fact.bytesOf? (name : String) : Fact → Option Bytes
  | .attachment k bytes => if name = k then some bytes else none
  | _ => none

theorem textOf?_eq_some_iff (key : String) (f : Fact) (text : String) :
    f.textOf? key = some text ↔ f = .attribute key text := by
  cases f <;> simp [Fact.textOf?, eq_comm]

theorem bytesOf?_eq_some_iff (name : String) (f : Fact) (bytes : Bytes) :
    f.bytesOf? name = some bytes ↔ f = .attachment name bytes := by
  cases f <;> simp [Fact.bytesOf?, eq_comm]

/-- An attribute is learnt under its key. -/
theorem get?_attributes_learn (key : String) (ad : Advertisement) (f : Fact) :
    (learn ad f).attributes.get? key = (f.textOf? key).or (ad.attributes.get? key) := by
  cases f with
  | «attribute» k text =>
    refine (Table.get?_insert ad.attributes k key text).trans ?_
    by_cases h : key = k
    · simp [Fact.textOf?, h]
    · simp [Fact.textOf?, h]
  | _ => rfl

theorem get?_attachments_learn (name : String) (ad : Advertisement) (f : Fact) :
    (learn ad f).attachments.get? name = (f.bytesOf? name).or (ad.attachments.get? name) := by
  cases f with
  | attachment k bytes =>
    refine (Table.get?_insert ad.attachments k name bytes).trans ?_
    by_cases h : name = k
    · simp [Fact.bytesOf?, h]
    · simp [Fact.bytesOf?, h]
  | _ => rfl

/-- Attributes and attachments are read from keys and values, and from nothing else. -/
theorem readFact_eq_ok_iff_of_builtIn?_eq_none {uuid : Uuid} {bytes : Bytes} {f : Fact}
    (hf : f.builtIn? = none) :
    readFact uuid bytes = .ok f ↔ uuid ∉ builtIn ∧ readKeyValue bytes = .ok f := by
  by_cases hmem : uuid ∈ builtIn
  · refine iff_of_false (fun h => ?_) fun h => h.1 hmem
    have hown := builtIn?_of_readFact h
    rw [if_pos hmem, hf] at hown
    cases hown
  · rw [readFact_of_notMem_builtIn hmem, and_iff_right hmem]

/-- An attribute is read from what is written of it, and from nothing else. -/
theorem readFact_eq_attribute_iff {uuid : Uuid} {bytes : Bytes} {key text : String} :
    readFact uuid bytes = .ok (.attribute key text) ↔
      ¬ IsMarked key ∧ uuid ∉ builtIn ∧ bytes = joinKeyValue key (Utf8.encode text) ∧
        separator ∉ Utf8.encode key := by
  rw [readFact_eq_ok_iff_of_builtIn?_eq_none rfl, readKeyValue_eq_ok_iff]
  constructor
  · rintro ⟨hown, ⟨_, _, ⟨rfl, rfl⟩, hbytes, hseparator, hmark⟩ | ⟨_, _, hf, -⟩⟩
    · exact ⟨hmark, hown, hbytes, hseparator⟩
    · cases hf
  · rintro ⟨hmark, hown, hbytes, hseparator⟩
    exact ⟨hown, .inl ⟨key, text, rfl, hbytes, hseparator, hmark⟩⟩

/-- So is an attachment, whose key is marked. -/
theorem readFact_eq_attachment_iff {uuid : Uuid} {bytes value : Bytes} {name : String} :
    readFact uuid bytes = .ok (.attachment name value) ↔
      uuid ∉ builtIn ∧ bytes = joinKeyValue (wireKey name) value ∧
        separator ∉ Utf8.encode (wireKey name) := by
  rw [readFact_eq_ok_iff_of_builtIn?_eq_none rfl, readKeyValue_eq_ok_iff]
  simp

/-- An attribute is the text behind its key, in the last of the characteristics that hold the key. -/
theorem attributes_decode (m : Characteristics) (key text : String) :
    (decode m).ad.attributes.get? key = some text ↔
      ¬ IsMarked key ∧ ∃ uuid, m.Holds uuid key (Utf8.encode text) ∧
        ∀ later other, m.Holds later key (Utf8.encode other) → compare later uuid ≠ .gt := by
  apply get_decode_iff (fun ad => ad.attributes.get? key)
  · exact textOf?_eq_some_iff key
  · exact get?_attributes_learn key
  · rfl
  · exact fun _ _ _ => readFact_eq_attribute_iff

/-- An attachment is what stands behind its marked key, in the last of the characteristics that hold
the key. -/
theorem attachments_decode (m : Characteristics) (name : String) (value : Bytes) :
    (decode m).ad.attachments.get? name = some value ↔
      ∃ uuid, m.Holds uuid (wireKey name) value ∧
        ∀ later other, m.Holds later (wireKey name) other → compare later uuid ≠ .gt := by
  rw [← true_and (∃ uuid, _)]
  apply get_decode_iff (fun ad => ad.attachments.get? name)
  · exact bytesOf?_eq_some_iff name
  · exact get?_attachments_learn name
  · rfl
  · intro uuid bytes value
    rw [readFact_eq_attachment_iff, true_and]

/-- **What is decoded is what can be read.** -/
theorem isReadFrom_decode (m : Characteristics) : m.IsReadFrom (decode m).ad where
  id := id_decode m
  interfaceName := interfaceName_decode m
  addresses := addresses_decode m
  encryption := encryption_decode m
  hash := hash_decode m
  directories := directories_decode m
  attributes := attributes_decode m
  attachments := attachments_decode m
  lost := lost_decode m

/-- **Bad characteristics are skipped, and spoil nothing but themselves.** Leaving out the malformed
ones changes nothing but that nothing is noted then; one note is made on each of them, the one that is
made if it is all there is; and what is decoded can be read off the characteristics one by one. -/
theorem decode_skips_malformed (m : Characteristics) :
    (∀ uuid value, isMalformed uuid value = true ↔ ¬ IsWellFormed uuid value) ∧
      (decode m).ad = (decode m.wellFormed).ad ∧ (decode m.wellFormed).skipped = [] ∧
      (decode m).skipped.map Skipped.uuid = m.malformed.keys ∧
      (decode m).skipped = m.entries.flatMap (fun entry => (decode (alone entry)).skipped) ∧
      m.IsReadFrom (decode m).ad := by
  refine ⟨fun _ _ => isMalformed_iff, ad_foldl_add m.entries rfl, skipped_decode_wellFormed m,
    uuids_skipped_decode m, skipped_decode m, isReadFrom_decode m⟩

end Nearby.Characteristics
