import Nearby.Advertisement.Content
import Nearby.Proofs.Table
import Nearby.Proofs.Utf8

/-!
# The content hash covers the content

The bytes under the content hash can be parsed in one way only, so two advertisements give the same
bytes exactly if they agree in every field that is content (`content_eq_iff`).

Most of this holds field by field: a field behind its length, or a list behind its count, shows where
it ends (`IsDelimited`), and fields that do so can be taken off the front one after the other. The
encryption is the exception. No encryption is written as the code zero, and so begins a scheme with
that code; only the directories behind it tell the two apart (`encryption_and_directories`).
-/

namespace Nearby.Advertisement

/-! ## Bytes that show where they end -/

section Delimited

variable {α β : Type}

/-- What is written shows where it ends, for values that fit: byte strings that begin with written
values are equal only if the values are equal and so is what follows them. -/
def IsDelimited (write : α → Bytes) (Fits : α → Prop) : Prop :=
  ∀ ⦃a b : α⦄ ⦃s t : Bytes⦄, Fits a → Fits b → write a ++ s = write b ++ t → a = b ∧ s = t

/-- What tells things apart leaves them delimited. -/
theorem IsDelimited.comp {write : α → Bytes} {Fits : α → Prop} (h : IsDelimited write Fits)
    {f : β → α} (hf : ∀ {x y : β}, f x = f y → x = y) :
    IsDelimited (fun x => write (f x)) fun x => Fits (f x) := by
  intro x y s t hx hy heq
  obtain ⟨hxy, hst⟩ := h hx hy heq
  exact ⟨hf hxy, hst⟩

/-- Two delimited parts in a row are delimited. -/
theorem IsDelimited.pair {write : α → Bytes} {Fits : α → Prop} (h : IsDelimited write Fits)
    {write' : β → Bytes} {Fits' : β → Prop} (h' : IsDelimited write' Fits') :
    IsDelimited (fun e : α × β => write e.1 ++ write' e.2) fun e => Fits e.1 ∧ Fits' e.2 := by
  intro d e s t hd he heq
  rw [List.append_assoc, List.append_assoc] at heq
  obtain ⟨hfst, heq⟩ := h hd.1 he.1 heq
  obtain ⟨hsnd, hst⟩ := h' hd.2 he.2 heq
  exact ⟨Prod.ext hfst hsnd, hst⟩

/-- Delimited items can be counted off as soon as it is known how many there are. -/
theorem IsDelimited.flatMap {item : α → Bytes} {Fits : α → Prop} (h : IsDelimited item Fits) :
    ∀ {as bs : List α} {s t : Bytes}, as.length = bs.length → (∀ a ∈ as, Fits a) →
      (∀ b ∈ bs, Fits b) → as.flatMap item ++ s = bs.flatMap item ++ t → as = bs ∧ s = t := by
  intro as
  induction as with
  | nil =>
    intro bs s t hlength _ _ heq
    obtain rfl := List.eq_nil_of_length_eq_zero hlength.symm
    exact ⟨rfl, heq⟩
  | cons a as ih =>
    intro bs s t hlength has hbs heq
    obtain ⟨b, bs, rfl⟩ := List.exists_cons_of_length_eq_add_one hlength.symm
    rw [List.flatMap_cons, List.flatMap_cons, List.append_assoc, List.append_assoc] at heq
    obtain ⟨rfl, hrest⟩ := h (has a List.mem_cons_self) (hbs b List.mem_cons_self) heq
    obtain ⟨rfl, hst⟩ := ih (Nat.succ.inj hlength) (fun a ha => has a (List.mem_cons_of_mem _ ha))
      (fun b hb => hbs b (List.mem_cons_of_mem _ hb)) hrest
    exact ⟨rfl, hst⟩

end Delimited

/-- Numbers of a fixed width show where they end. -/
theorem isDelimited_bigEndian (n : Nat) : IsDelimited (bigEndian n) (· < byteStringCount n) := by
  intro a b s t ha hb heq
  obtain ⟨hab, hst⟩ := List.append_inj heq (by simp)
  have hread := congrArg ofBigEndian hab
  rw [ofBigEndian_bigEndian n a ha, ofBigEndian_bigEndian n b hb] at hread
  exact ⟨hread, hst⟩

/-- A length in front delimits bytes. -/
theorem isDelimited_frame : IsDelimited frame (·.length < UInt64.size) := by
  intro a b s t ha hb heq
  rw [frame, frame, List.append_assoc, List.append_assoc] at heq
  obtain ⟨hlength, heq⟩ := isDelimited_bigEndian 8 ha hb heq
  exact List.append_inj heq hlength

theorem isDelimited_frameText :
    IsDelimited frameText fun text => (Utf8.encode text).length < UInt64.size :=
  isDelimited_frame.comp Utf8.encode_injective

/-- A count in front delimits a list of delimited items. -/
theorem IsDelimited.frameList {α : Type} {item : α → Bytes} {Fits : α → Prop}
    (h : IsDelimited item Fits) :
    IsDelimited (frameList item) fun as => as.length < UInt64.size ∧ ∀ a ∈ as, Fits a := by
  intro as bs s t has hbs heq
  rw [Advertisement.frameList, Advertisement.frameList, List.append_assoc, List.append_assoc] at heq
  obtain ⟨hlength, heq⟩ := isDelimited_bigEndian 8 has.1 hbs.1 heq
  exact h.flatMap hlength has.2 hbs.2 heq

/-! ## Encryption and directories -/

/-- Every length of an advertisement is one that eight bytes spell. -/
structure Fits (ad : Advertisement) : Prop where
  interfaceName : (Utf8.encode ad.interfaceName).length < UInt64.size
  addresses : ad.addresses.length < UInt64.size ∧
    ∀ address ∈ ad.addresses, (Utf8.encode address).length < UInt64.size
  attributes : ad.attributes.entries.length < UInt64.size ∧ ∀ e ∈ ad.attributes.entries,
    (Utf8.encode e.1).length < UInt64.size ∧ (Utf8.encode e.2).length < UInt64.size
  attachments : ad.attachments.entries.length < UInt64.size ∧ ∀ e ∈ ad.attachments.entries,
    (Utf8.encode e.1).length < UInt64.size ∧ e.2.length < UInt64.size
  keys : ∀ e ∈ ad.encryption, e.keys.length < UInt64.size ∧ ∀ key ∈ e.keys, key.length < UInt64.size
  directories : ad.directories.length < UInt64.size ∧
    ∀ directory ∈ ad.directories, (Utf8.encode directory).length < UInt64.size

/-- Encrypted alike: not at all, or for the same keys by schemes of one code. -/
def EncryptedAlike : Option Encryption → Option Encryption → Prop
  | none, none => True
  | some e, some f => e.algorithm.code = f.algorithm.code ∧ e.keys = f.keys
  | _, _ => False

/-- The hash does not tell encryptions apart that are alike. -/
theorem EncryptedAlike.encryptionContent_eq {e f : Option Encryption} (h : EncryptedAlike e f) :
    encryptionContent e = encryptionContent f := by
  cases e <;> cases f
  · rfl
  · exact h.elim
  · exact h.elim
  · rw [encryptionContent, encryptionContent, h.1, h.2]

/-- The code of an algorithm fits into four bytes. -/
theorem code_lt (e : Encryption) : e.algorithm.code.toNat < byteStringCount 4 :=
  e.algorithm.code.toNat_lt

/-- What follows the missing encryption is too short to be the keys of a scheme with code zero and
the directories behind them: the directories would have to be the keys, with nothing left. -/
theorem not_directories_eq_keys_and_directories {ds ds' : List String} {keys : List Bytes}
    (hds : ds.length < UInt64.size ∧ ∀ d ∈ ds, (Utf8.encode d).length < UInt64.size)
    (hkeys : keys.length < UInt64.size ∧ ∀ key ∈ keys, key.length < UInt64.size) :
    frameList frameText ds ≠ frameList frame keys ++ frameList frameText ds' := by
  intro heq
  have hbytes : frameList frameText ds = frameList frame (ds.map Utf8.encode) := by
    rw [frameList, frameList, List.length_map, List.flatMap_map]
    rfl
  have hfit : (ds.map Utf8.encode).length < UInt64.size ∧
      ∀ bytes ∈ ds.map Utf8.encode, bytes.length < UInt64.size := by
    rw [List.length_map]
    exact ⟨hds.1, List.forall_mem_map.mpr hds.2⟩
  rw [hbytes, ← List.append_nil (frameList frame _)] at heq
  obtain ⟨-, hnil⟩ := isDelimited_frame.frameList hfit hkeys heq
  have hlength := congrArg List.length hnil
  rw [frameList, List.length_append, length_bigEndian, List.length_nil] at hlength
  omega

/-- The end of the content tells the encryption and the directories. -/
theorem encryption_and_directories {a b : Advertisement} (ha : a.Fits) (hb : b.Fits)
    (heq : encryptionContent a.encryption ++ frameList frameText a.directories =
      encryptionContent b.encryption ++ frameList frameText b.directories) :
    EncryptedAlike a.encryption b.encryption ∧ a.directories = b.directories := by
  have hdirectories {s t : Bytes}
      (h : frameList frameText a.directories ++ s = frameList frameText b.directories ++ t) :
      a.directories = b.directories :=
    (isDelimited_frameText.frameList ha.directories hb.directories h).1
  have hcode := isDelimited_bigEndian 4
  cases hae : a.encryption with
  | none =>
    cases hbe : b.encryption with
    | none =>
      rw [hae, hbe] at heq
      obtain heq := List.append_cancel_left heq
      exact ⟨trivial, hdirectories (congrArg (· ++ []) heq)⟩
    -- the codes may agree, but then there are keys where the directories should be
    | some f =>
      rw [hae, hbe, encryptionContent, encryptionContent, List.append_assoc] at heq
      obtain ⟨-, heq⟩ := hcode (by decide) (code_lt f) heq
      exact absurd heq (not_directories_eq_keys_and_directories ha.directories (hb.keys f hbe))
  | some e =>
    cases hbe : b.encryption with
    | none =>
      rw [hae, hbe, encryptionContent, encryptionContent, List.append_assoc] at heq
      obtain ⟨-, heq⟩ := hcode (code_lt e) (by decide) heq
      exact absurd heq.symm (not_directories_eq_keys_and_directories hb.directories (ha.keys e hae))
    | some f =>
      rw [hae, hbe, encryptionContent, encryptionContent, List.append_assoc,
        List.append_assoc] at heq
      obtain ⟨hsame, heq⟩ := hcode (code_lt e) (code_lt f) heq
      obtain ⟨hkeys, heq⟩ := isDelimited_frame.frameList (ha.keys e hae) (hb.keys f hbe) heq
      exact ⟨⟨UInt32.toNat_inj.mp hsame, hkeys⟩, hdirectories (congrArg (· ++ []) heq)⟩

/-! ## The content as a whole -/

/-- Equal in every field that is content. -/
structure SameContent (a b : Advertisement) : Prop where
  id : a.id = b.id
  interfaceName : a.interfaceName = b.interfaceName
  addresses : a.addresses = b.addresses
  attributes : a.attributes = b.attributes
  attachments : a.attachments = b.attachments
  encryption : EncryptedAlike a.encryption b.encryption
  directories : a.directories = b.directories

/-- Nor does it tell advertisements apart of the same content. -/
theorem SameContent.content_eq {a b : Advertisement} (h : SameContent a b) :
    a.content = b.content := by
  rw [content, content, h.id, h.interfaceName, h.addresses, h.attributes, h.attachments,
    h.encryption.encryptionContent_eq, h.directories]

/-- The content is parsed field by field, from the front. -/
theorem sameContent_of_content_eq {a b : Advertisement} (ha : a.Fits) (hb : b.Fits)
    (heq : a.content = b.content) : SameContent a b := by
  simp only [content, List.append_assoc] at heq
  have hidFits (ad : Advertisement) : ad.id.bytes.length < UInt64.size := by
    rw [AdId.bytes, ad.id.octets.length_bytes]
    decide
  obtain ⟨hid, heq⟩ := isDelimited_frame (hidFits a) (hidFits b) heq
  obtain ⟨hname, heq⟩ := isDelimited_frameText ha.interfaceName hb.interfaceName heq
  obtain ⟨haddresses, heq⟩ := isDelimited_frameText.frameList ha.addresses hb.addresses heq
  obtain ⟨hattributes, heq⟩ := (isDelimited_frameText.pair isDelimited_frameText).frameList
    ha.attributes hb.attributes heq
  obtain ⟨hattachments, heq⟩ := (isDelimited_frameText.pair isDelimited_frame).frameList
    ha.attachments hb.attachments heq
  obtain ⟨hencryption, hdirectories⟩ := encryption_and_directories ha hb heq
  refine ⟨?_, hname, haddresses, Table.ext_entries hattributes, Table.ext_entries hattachments,
    hencryption, hdirectories⟩
  cases hi : a.id; cases hj : b.id
  rw [hi, hj] at hid
  exact congrArg AdId.mk (Octets.ext hid)

/-! ## The order of insertion -/

/-- Sets attributes, one after the other. -/
def setAttributes (ad : Advertisement) (settings : List (String × String)) : Advertisement :=
  settings.foldl (fun ad e => ad.setAttribute e.1 e.2) ad

/-- Sets attachments, one after the other. -/
def setAttachments (ad : Advertisement) (settings : List (String × Bytes)) : Advertisement :=
  settings.foldl (fun ad e => ad.setAttachment e.1 e.2) ad

/-- Settings of different keys may be made in any order, if any two of them may change places. -/
theorem foldl_set_eq_of_perm {ν : Type} {set : Advertisement → String × ν → Advertisement}
    (hcomm : ∀ d e : String × ν, d.1 ≠ e.1 → ∀ ad, set (set ad d) e = set (set ad e) d)
    {l l' : List (String × ν)} (hperm : l.Perm l') (hkeys : (l.map (·.1)).Nodup)
    (ad : Advertisement) : l.foldl set ad = l'.foldl set ad := by
  refine hperm.foldl_eq' (fun d hd e he ad => ?_) ad
  by_cases hkey : d.1 = e.1
  · obtain rfl := List.inj_on_of_nodup_map hkeys hd he hkey
    rfl
  · exact hcomm d e hkey ad

/-- The order in which attributes are set does not matter, as each key has one. -/
theorem setAttributes_eq_of_perm {l l' : List (String × String)} (hperm : l.Perm l')
    (hkeys : (l.map (·.1)).Nodup) (ad : Advertisement) :
    ad.setAttributes l = ad.setAttributes l' :=
  foldl_set_eq_of_perm (fun d e hne ad => by
    simp only [setAttribute, Table.insert_comm ad.attributes hne]) hperm hkeys ad

theorem setAttachments_eq_of_perm {l l' : List (String × Bytes)} (hperm : l.Perm l')
    (hkeys : (l.map (·.1)).Nodup) (ad : Advertisement) :
    ad.setAttachments l = ad.setAttachments l' :=
  foldl_set_eq_of_perm (fun d e hne ad => by
    simp only [setAttachment, Table.insert_comm ad.attachments hne]) hperm hkeys ad

/-- **The content tells every field that is content, and nothing else.** The hash, the `lost` flag
and the order in which the entries of a table were inserted are no content. -/
theorem content_eq_iff {a b : Advertisement} (ha : a.Fits) (hb : b.Fits) :
    (a.content = b.content ↔ SameContent a b) ∧
      (∀ hash lost, ({ a with hash, lost } : Advertisement).content = a.content) ∧
      (∀ l l' : List (String × String), l.Perm l' → (l.map (·.1)).Nodup →
        (a.setAttributes l).content = (a.setAttributes l').content) ∧
      ∀ l l' : List (String × Bytes), l.Perm l' → (l.map (·.1)).Nodup →
        (a.setAttachments l).content = (a.setAttachments l').content := by
  refine ⟨⟨sameContent_of_content_eq ha hb, SameContent.content_eq⟩, fun _ _ => rfl, ?_, ?_⟩
  · intro l l' hperm hkeys
    rw [setAttributes_eq_of_perm hperm hkeys]
  · intro l l' hperm hkeys
    rw [setAttachments_eq_of_perm hperm hkeys]

/-- An advertisement that is not encrypted, with a directory. -/
def unencrypted : Advertisement := (new (⟨.ofNat 1⟩) "room").addDirectory "hall"

/-- An advertisement with the name of that directory as a key of a scheme with code zero. Its content
begins with all of the other's. -/
def encryptedByZero : Advertisement :=
  (new (⟨.ofNat 1⟩) "room").setEncryption (.other 0) [Utf8.encode "hall"]

theorem fits_unencrypted : unencrypted.Fits where
  interfaceName := by decide
  addresses := by decide
  attributes := by decide
  attachments := by decide
  keys := by simp [unencrypted, new, blank, addDirectory]
  directories := by decide

theorem fits_encryptedByZero : encryptedByZero.Fits where
  interfaceName := by decide
  addresses := by decide
  attributes := by decide
  attachments := by decide
  keys := by
    rintro e he
    obtain rfl : _ = e := Option.some.inj he
    decide
  directories := by decide

theorem content_ne_of_encrypted :
    unencrypted.content <+: encryptedByZero.content ∧
      unencrypted.content ≠ encryptedByZero.content := by
  refine ⟨by decide, fun heq => ?_⟩
  have hsame := (content_eq_iff fits_unencrypted fits_encryptedByZero).1.mp heq
  exact hsame.encryption

end Nearby.Advertisement
