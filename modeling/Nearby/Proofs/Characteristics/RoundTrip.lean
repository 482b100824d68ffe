import Mathlib.Data.List.Forall2
import Nearby.Proofs.Characteristics.Fact

/-!
# An advertisement can be read back from its characteristics

An advertisement is a list of `facts`, and encoding tells each of them (`encode_eq_ok_iff`). The
characteristics then lie in a table, ascending by identifier, which is not the order of the facts;
since their identifiers differ, decoding may take them in the order of the facts all the same, and
learning these gives the advertisement (`foldl_learn_facts`).
-/

namespace Nearby.Characteristics

/-! ## The facts of an advertisement -/

/-- The facts about the fixed fields, as far as an advertisement has them. -/
def fixedFacts (ad : Advertisement) : List Fact :=
  [.id ad.id, .interfaceName ad.interfaceName]
    ++ (if ad.addresses.isEmpty then [] else [.addresses ad.addresses])
    ++ (ad.encryption.map Fact.encryption).toList
    ++ [.hash ad.hash]
    ++ (if ad.directories.isEmpty then [] else [.directories ad.directories])

/-- The facts about the attributes. -/
def attributeFacts (ad : Advertisement) : List Fact :=
  ad.attributes.entries.map fun e => .attribute e.1 e.2

/-- The facts about the attachments. -/
def attachmentFacts (ad : Advertisement) : List Fact :=
  ad.attachments.entries.map fun e => .attachment e.1 e.2

/-- Everything there is to tell about an advertisement. -/
def facts (ad : Advertisement) : List Fact :=
  fixedFacts ad ++ attributeFacts ad ++ attachmentFacts ad

/-! ## Telling the facts -/

/-- A part tells a fact: it can be encoded exactly if the fact may be told, and then as its
characteristic. -/
def Part.Tells (part : Part) (f : Fact) : Prop :=
  ∀ entry, part.entry = .ok entry ↔ entry = f.entry ∧ f.IsTellable

/-- A part that is written tells its fact. -/
theorem Part.tells_of_ok {part : Part} {f : Fact} (huuid : part.uuid = f.uuid)
    (hvalue : part.value = .ok f.value) (hsound : f.IsSound) : part.Tells f := by
  intro entry
  rw [Part.entry, hvalue]
  by_cases hlength : f.value.length ≤ maxLength
  · simp [hlength, huuid, Fact.entry, Fact.IsTellable, hsound, eq_comm]
  · simp [hlength, Fact.IsTellable]

/-- A part that cannot be written is about a fact that may not be told. -/
theorem Part.tells_of_error {part : Part} {f : Fact} {reason : EncodeReason}
    (hvalue : part.value = .error reason) (hsound : ¬ f.IsSound) : part.Tells f := by
  intro entry
  rw [Part.entry, hvalue]
  simp [Fact.IsTellable, hsound]

theorem idPart_tells (ad : Advertisement) : (idPart ad).Tells (.id ad.id) := by
  by_cases h : ad.id.isZero = true
  · refine Part.tells_of_error (if_pos h) fun hsound => ?_
    rw [Fact.IsSound, h] at hsound
    cases hsound
  · exact Part.tells_of_ok rfl (if_neg h) (Bool.eq_false_iff.mpr h)

theorem interfaceNamePart_tells (ad : Advertisement) :
    (interfaceNamePart ad).Tells (.interfaceName ad.interfaceName) := by
  by_cases h : ad.interfaceName.isEmpty = true
  · exact Part.tells_of_error (if_pos h) fun hsound => hsound (String.isEmpty_iff.mp h)
  · exact Part.tells_of_ok rfl (if_neg h) fun e => h (String.isEmpty_iff.mpr e)

theorem encryptionPart_tells (e : Encryption) : (encryptionPart e).Tells (.encryption e) := by
  by_cases h : Algorithm.ofCode e.algorithm.code = e.algorithm
  · exact Part.tells_of_ok rfl (if_pos h) h
  · exact Part.tells_of_error (if_neg h) h

theorem attributePart_tells (key value : String) :
    (attributePart key value).Tells (.attribute key value) := by
  rcases hkey : keyReason? key with _ | reason
  · by_cases hmark : IsMarked key
    · have hvalue : (attributePart key value).value = .error .reservedPrefix := by
        simp only [attributePart, hkey]
        exact if_pos hmark
      exact Part.tells_of_error hvalue fun hsound => hsound.2 hmark
    · refine Part.tells_of_ok rfl ?_ ⟨hkey, hmark⟩
      simp only [attributePart, hkey]
      exact if_neg hmark
  · refine Part.tells_of_error (by simp only [attributePart, hkey]; rfl) fun hsound => ?_
    rw [hsound.1] at hkey
    cases hkey

theorem attachmentPart_tells (key : String) (value : Bytes) :
    (attachmentPart key value).Tells (.attachment key value) := by
  rcases hkey : keyReason? key with _ | reason
  · exact Part.tells_of_ok rfl (by simp only [attachmentPart, hkey]; rfl) hkey
  · refine Part.tells_of_error (by simp only [attachmentPart, hkey]; rfl) fun hsound => ?_
    rw [hsound] at hkey
    cases hkey

/-- A list is told unless it is empty. -/
theorem tells_ite {part : Part} {f : Fact} (h : part.Tells f) (empty : Bool) :
    List.Forall₂ Part.Tells (if empty then none else some part).toList
      (if empty then [] else [f]) := by
  cases empty with
  | true => exact .nil
  | false => exact .cons h .nil

/-- **The parts of an advertisement tell its facts**, one each. -/
theorem parts_tell (ad : Advertisement) : List.Forall₂ Part.Tells (parts ad) (facts ad) := by
  have hhash : (hashPart ad).Tells (.hash ad.hash) := Part.tells_of_ok rfl rfl trivial
  have haddresses : List.Forall₂ Part.Tells (addressesPart? ad).toList
      (if ad.addresses.isEmpty then [] else [.addresses ad.addresses]) := by
    refine tells_ite ?_ _
    exact Part.tells_of_ok rfl rfl trivial
  have hdirectories : List.Forall₂ Part.Tells (directoriesPart? ad).toList
      (if ad.directories.isEmpty then [] else [.directories ad.directories]) := by
    refine tells_ite ?_ _
    exact Part.tells_of_ok rfl rfl trivial
  have hencryption : List.Forall₂ Part.Tells (ad.encryption.map encryptionPart).toList
      (ad.encryption.map Fact.encryption).toList := by
    cases ad.encryption with
    | none => exact .nil
    | some e => exact .cons (encryptionPart_tells e) .nil
  have hattributes : List.Forall₂ Part.Tells
      (ad.attributes.entries.map fun e => attributePart e.1 e.2) (attributeFacts ad) := by
    rw [attributeFacts, List.forall₂_map_left_iff, List.forall₂_map_right_iff]
    exact List.forall₂_same.mpr fun e _ => attributePart_tells e.1 e.2
  have hattachments : List.Forall₂ Part.Tells
      (ad.attachments.entries.map fun e => attachmentPart e.1 e.2) (attachmentFacts ad) := by
    rw [attachmentFacts, List.forall₂_map_left_iff, List.forall₂_map_right_iff]
    exact List.forall₂_same.mpr fun e _ => attachmentPart_tells e.1 e.2
  have hnames : List.Forall₂ Part.Tells [idPart ad, interfaceNamePart ad]
      [.id ad.id, .interfaceName ad.interfaceName] :=
    .cons (idPart_tells ad) (.cons (interfaceNamePart_tells ad) .nil)
  exact List.rel_append (List.rel_append (List.rel_append (List.rel_append (List.rel_append
    (List.rel_append hnames haddresses) hencryption) (.cons hhash .nil)) hdirectories) hattributes)
    hattachments

/-- Parts are encoded exactly if all of their facts may be told. -/
theorem encodeParts_eq_ok_iff {ps : List Part} {fs : List Fact} (h : List.Forall₂ Part.Tells ps fs)
    (entries : List (Uuid × Bytes)) :
    encodeParts ps = .ok entries ↔ entries = fs.map Fact.entry ∧ ∀ f ∈ fs, f.IsTellable := by
  induction h generalizing entries with
  | nil => simp [encodeParts, eq_comm]
  | @cons part f ps fs hpart hrest ih =>
    rw [encodeParts]
    rcases hentry : part.entry with e | entry
    · have hf : ¬ f.IsTellable := by
        intro hf
        rw [(hpart _).mpr ⟨rfl, hf⟩] at hentry
        cases hentry
      simp [hf]
    · obtain ⟨rfl, hf⟩ := (hpart entry).mp hentry
      rcases htail : encodeParts ps with e | tail
      · have hfs : ¬ ∀ g ∈ fs, g.IsTellable := by
          intro hfs
          rw [(ih _).mpr ⟨rfl, hfs⟩] at htail
          cases htail
        simp [Except.map, hf, hfs]
      · obtain ⟨rfl, hfs⟩ := (ih tail).mp htail
        have hall : ∀ g ∈ f :: fs, g.IsTellable := List.forall_mem_cons.mpr ⟨hf, hfs⟩
        exact ⟨fun h => ⟨(Except.ok.inj h).symm, hall⟩, fun h => congrArg Except.ok h.1.symm⟩

/-- **What encoding gives**: a table of the characteristics that tell the facts, if each of them may
be told. -/
theorem encode_eq_ok_iff {ad : Advertisement} {m : Characteristics} :
    encode ad = .ok m ↔
      m = Table.ofList ((facts ad).map Fact.entry) ∧ ∀ f ∈ facts ad, f.IsTellable := by
  have h := encodeParts_eq_ok_iff (parts_tell ad)
  rw [encode]
  rcases hparts : encodeParts (parts ad) with e | entries
  · have hfs : ¬ ∀ f ∈ facts ad, f.IsTellable := by
      intro hfs
      rw [(h _).mpr ⟨rfl, hfs⟩] at hparts
      cases hparts
    simp [Except.map, hfs]
  · obtain ⟨rfl, hfs⟩ := (h entries).mp hparts
    exact ⟨fun h => ⟨(Except.ok.inj h).symm, hfs⟩, fun h => congrArg Except.ok h.1.symm⟩

/-! ## Different identifiers -/

/-- Attributes are written under what their keys derive. -/
theorem uuids_attributeFacts (ad : Advertisement) :
    (attributeFacts ad).map Fact.uuid = ad.attributes.keys.map attributeUuid := by
  rw [attributeFacts, Table.keys, List.map_map, List.map_map]
  rfl

/-- Attachments are written under what their marked keys derive. -/
theorem uuids_attachmentFacts (ad : Advertisement) :
    (attachmentFacts ad).map Fact.uuid = (ad.attachments.keys.map wireKey).map attributeUuid := by
  rw [attachmentFacts, Table.keys, List.map_map, List.map_map, List.map_map]
  rfl

theorem uuids_ite (f : Fact) (empty : Bool) :
    ((if empty then [] else [f]).map Fact.uuid).Sublist [f.uuid] := by
  cases empty with
  | true => exact List.nil_sublist _
  | false => exact .refl _

/-- All else is written under the built-in identifiers, each once at most. -/
theorem uuids_fixedFacts (ad : Advertisement) :
    ((fixedFacts ad).map Fact.uuid).Sublist builtIn := by
  have hencryption : ((ad.encryption.map Fact.encryption).toList.map Fact.uuid).Sublist
      [encryptionUuid] := by
    cases ad.encryption with
    | none => exact List.nil_sublist _
    | some e => exact .refl _
  rw [fixedFacts, List.map_append, List.map_append, List.map_append, List.map_append]
  exact ((((List.Sublist.refl [idUuid, interfaceNameUuid]).append
    (uuids_ite (.addresses ad.addresses) _)).append hencryption).append (.refl [hashUuid])).append
      (uuids_ite (.directories ad.directories) _)

/-- The keys of what may be told differ from each other: those of attributes carry no mark. -/
theorem nodup_wireKeys {ad : Advertisement} (h : ∀ f ∈ facts ad, f.IsTellable) :
    (wireKeys ad).Nodup := by
  have hattachments : (ad.attachments.keys.map wireKey).Nodup :=
    ad.attachments.nodup_keys.map fun _ _ => wireKey_injective
  refine List.nodup_append.mpr ⟨ad.attributes.nodup_keys, hattachments, ?_⟩
  rintro key hkey _ hmarked rfl
  -- an attribute whose key carries the mark would have been refused
  obtain ⟨j, -, rfl⟩ := List.mem_map.mp hmarked
  obtain ⟨e, he, hej⟩ := List.mem_map.mp hkey
  have hmem : Fact.attribute e.1 e.2 ∈ facts ad :=
    List.mem_append_left _ (List.mem_append_right _ (List.mem_map.mpr ⟨e, he, rfl⟩))
  have hsound := (h _ hmem).1
  exact hsound.2 (hej ▸ isMarked_wireKey j)

/-- **The facts of an advertisement have different identifiers**, as far as the digest tells its
keys apart. -/
theorem nodup_uuids {ad : Advertisement} (h : ∀ f ∈ facts ad, f.IsTellable)
    (hapart : TellsApart (wireKeys ad)) : ((facts ad).map Fact.uuid).Nodup := by
  have hderived : ((wireKeys ad).map attributeUuid).Nodup :=
    (nodup_wireKeys h).map_on hapart
  rw [facts, List.append_assoc, List.map_append, List.map_append, uuids_attributeFacts,
    uuids_attachmentFacts, ← List.map_append]
  -- fixed and derived identifiers are of different versions
  refine List.nodup_append.mpr ⟨(uuids_fixedFacts ad).nodup nodup_builtIn, hderived, ?_⟩
  rintro u hu _ hv rfl
  obtain ⟨key, -, rfl⟩ := List.mem_map.mp hv
  exact attributeUuid_notMem_builtIn key ((uuids_fixedFacts ad).subset hu)

/-- **The characteristics are those that tell the facts**, one for each, as far as the digest tells
the keys apart. -/
theorem perm_of_encode {ad : Advertisement} {m : Characteristics} (hencode : encode ad = .ok m)
    (hapart : TellsApart (wireKeys ad)) : m.entries.Perm ((facts ad).map Fact.entry) := by
  obtain ⟨rfl, htell⟩ := encode_eq_ok_iff.mp hencode
  apply Table.perm_ofList
  rw [List.map_map]
  exact nodup_uuids htell hapart

/-! ## Learning the facts -/

/-- Attributes are learnt one after the other. -/
theorem foldl_learn_attributes (l : List (String × String)) (ad : Advertisement) :
    (l.map fun e => Fact.attribute e.1 e.2).foldl learn ad =
      { ad with attributes := l.foldl (fun t e => t.insert e.1 e.2) ad.attributes } := by
  induction l generalizing ad with
  | nil => rfl
  | cons e rest ih => exact ih (learn ad (.attribute e.1 e.2))

theorem foldl_learn_attachments (l : List (String × Bytes)) (ad : Advertisement) :
    (l.map fun e => Fact.attachment e.1 e.2).foldl learn ad =
      { ad with attachments := l.foldl (fun t e => t.insert e.1 e.2) ad.attachments } := by
  induction l generalizing ad with
  | nil => rfl
  | cons e rest ih => exact ih (learn ad (.attachment e.1 e.2))

/-- An empty list need not be told where the field is empty anyway. -/
theorem foldl_learn_ite {f : List String → Fact} {ad : Advertisement} (h : learn ad (f []) = ad)
    (texts : List String) :
    (if texts.isEmpty then [] else [f texts]).foldl learn ad = learn ad (f texts) := by
  cases texts with
  | nil => exact h.symm
  | cons text rest => rfl

/-- What is not told is blank. -/
theorem foldl_learn_fixedFacts (ad : Advertisement) :
    (fixedFacts ad).foldl learn .blank =
      { ad with attributes := ∅, attachments := ∅, lost := false } := by
  have hencryption : ∀ a : Advertisement, a.encryption = none →
      (ad.encryption.map Fact.encryption).toList.foldl learn a =
        { a with encryption := ad.encryption } := by
    intro a ha
    cases ad.encryption with
    | none =>
      cases a
      cases ha
      rfl
    | some e => rfl
  rw [fixedFacts, List.foldl_append, List.foldl_append, List.foldl_append, List.foldl_append,
    foldl_learn_ite (f := .addresses) rfl, hencryption _ rfl, foldl_learn_ite (f := .directories) rfl]
  rfl

/-- **An advertisement is what its facts say.** -/
theorem foldl_learn_facts {ad : Advertisement} (h : ad.lost = false) :
    (facts ad).foldl learn .blank = ad := by
  have hattributes := Table.ofList_entries ad.attributes
  have hattachments := Table.ofList_entries ad.attachments
  rw [Table.ofList] at hattributes hattachments
  rw [facts, List.foldl_append, List.foldl_append, foldl_learn_fixedFacts, attributeFacts,
    foldl_learn_attributes, attachmentFacts, foldl_learn_attachments]
  change { ad with
    attributes := ad.attributes.entries.foldl (fun t e => t.insert e.1 e.2) Table.empty
    attachments := ad.attachments.entries.foldl (fun t e => t.insert e.1 e.2) Table.empty
    lost := false } = ad
  rw [hattributes, hattachments, ← h]

/-- What a fact is written as has it learnt. -/
theorem add_entry {f : Fact} (h : f.IsTellable) (d : Decoded) :
    d.add f.entry = { d with ad := learn d.ad f } := by
  rw [Decoded.add, Fact.entry, readFact_of_isTellable h]

theorem foldl_add_entries (fs : List Fact) (h : ∀ f ∈ fs, f.IsTellable) (d : Decoded) :
    (fs.map Fact.entry).foldl Decoded.add d = { d with ad := fs.foldl learn d.ad } := by
  induction fs generalizing d with
  | nil => rfl
  | cons f rest ih =>
    rw [List.map_cons, List.foldl_cons, add_entry (h f List.mem_cons_self),
      ih fun g hg => h g (List.mem_cons_of_mem _ hg)]
    rfl

/-! ## The round trip -/

/-- **An advertisement can be read back from its characteristics**, with nothing skipped, as long as
the identifiers tell its keys apart. -/
theorem decode_of_encode_eq_ok {ad : Advertisement} {m : Characteristics}
    (hlost : ad.lost = false) (hapart : TellsApart (wireKeys ad)) (h : encode ad = .ok m) :
    decode m = ⟨ad, []⟩ := by
  obtain ⟨rfl, htell⟩ := encode_eq_ok_iff.mp h
  have hnodup := nodup_uuids htell hapart
  have hkeys : (((facts ad).map Fact.entry).map (·.1)).Nodup := by
    rw [List.map_map]
    exact hnodup
  -- characteristics with different identifiers may be taken into account in any order
  have hcomm : ∀ x ∈ (facts ad).map Fact.entry, ∀ y ∈ (facts ad).map Fact.entry, ∀ d : Decoded,
      (d.add x).add y = (d.add y).add x := by
    intro x hx y hy d
    obtain ⟨f, hf, rfl⟩ := List.mem_map.mp hx
    obtain ⟨g, hg, rfl⟩ := List.mem_map.mp hy
    by_cases huuid : f.uuid = g.uuid
    · rw [List.inj_on_of_nodup_map hnodup hf hg huuid]
    · rw [add_entry (htell f hf), add_entry (htell g hg), add_entry (htell g hg),
        add_entry (htell f hf)]
      exact congrArg (fun a => { d with ad := a }) (learn_comm huuid d.ad)
  have hperm := Table.perm_ofList hkeys
  rw [decode, hperm.foldl_eq' (fun x hx y hy d =>
      hcomm x (hperm.mem_iff.mp hx) y (hperm.mem_iff.mp hy) d),
    foldl_add_entries _ htell, foldl_learn_facts hlost]

/-- A room with a field of each kind: an empty address, an attribute key that starts like a mark, a
value with a separator, an attachment key that looks marked, an algorithm known by its code alone. -/
def room : Advertisement :=
  ((((Advertisement.new ⟨.ofNat 1⟩ "room").addAddress "").setAttribute "_expr" "a=b").setAttachment
    "__icon" [0x00, separator, 0xFF]).setEncryption (.other 7) [[1, 2], []]

theorem decode_of_encode_room :
    room.lost = false ∧ TellsApart (wireKeys room) ∧
      ∃ m, encode room = .ok m ∧ decode m = ⟨room, []⟩ := by
  have hapart : TellsApart (wireKeys room) := by decide +kernel
  have hok : (encode room).toBool = true := by decide +kernel
  rcases hm : encode room with e | m
  · rw [hm] at hok
    cases hok
  · exact ⟨rfl, hapart, m, rfl, decode_of_encode_eq_ok rfl hapart hm⟩

end Nearby.Characteristics
