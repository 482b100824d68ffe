import Nearby.Characteristics
import Nearby.PackedList

/-!
# From an advertisement to characteristics

`encode` refuses an advertisement that a peer could not read back: one without identifier or name,
with a key that is empty, holds the separator or pretends to be an attachment's, with an algorithm
code that names another algorithm, or with a part that is too long. `parts` lists the parts in the
order in which they are checked, so the first fault in that list is the one reported.
-/

namespace Nearby.Characteristics

/-- Why a field cannot be encoded. -/
inductive EncodeReason
  | zeroId
  | emptyName
  | emptyKey
  /-- The key holds the byte that ends keys. -/
  | separatorInKey
  /-- The key of an attribute starts like that of an attachment. -/
  | reservedPrefix
  /-- The code of an unknown algorithm is that of a known one. -/
  | namedAlgorithm (code : UInt32)
  | tooLong (length : Nat)
  deriving DecidableEq, Repr

/-- The reason in words. -/
def EncodeReason.message : EncodeReason → String
  | .zeroId => "must not be zero"
  | .emptyName => "must not be empty"
  | .emptyKey => "key must not be empty"
  | .separatorInKey => "key must not contain `=`"
  | .reservedPrefix => s!"key must not start with reserved prefix `{attachmentPrefix}`"
  | .namedAlgorithm code => s!"algorithm code {code} belongs to a named algorithm"
  | .tooLong length => s!"encoded value is {length} bytes (max: {maxLength})"

/-- The first field that cannot be encoded, and why. -/
structure EncodeError where
  field : Field
  reason : EncodeReason
  deriving DecidableEq, Repr

/-- The fault in words. -/
def EncodeError.message (e : EncodeError) : String :=
  s!"cannot encode field `{e.field.name}`: {e.reason.message}"

/-- A part of an advertisement on its way to a characteristic. -/
structure Part where
  field : Field
  uuid : Uuid
  value : Except EncodeReason Bytes

/-- The characteristic of a part, if its value is sound and short enough. -/
def Part.entry (part : Part) : Except EncodeError (Uuid × Bytes) :=
  match part.value with
  | .error reason => .error ⟨part.field, reason⟩
  | .ok value =>
    if value.length ≤ maxLength then .ok (part.uuid, value)
    else .error ⟨part.field, .tooLong value.length⟩

/-- Key and value with the separator between them. -/
def joinKeyValue (key : String) (value : Bytes) : Bytes := Utf8.encode key ++ separator :: value

/-- Packs a list of texts. -/
def packTexts (texts : List String) : Bytes := PackedList.pack (texts.map Utf8.encode)

/-- Packs encryption metadata: the code of the algorithm, then the keys. -/
def packEncryption (e : Encryption) : Bytes :=
  Varint.encode e.algorithm.code.toUInt64 ++ PackedList.pack e.keys

/-- Why a key cannot stand before a separator. -/
def keyReason? (key : String) : Option EncodeReason :=
  if key.isEmpty then some .emptyKey
  else if (Utf8.encode key).contains separator then some .separatorInKey
  else none

/-- The identifier, which must not be zero: a service without identifier is no advertisement. -/
def idPart (ad : Advertisement) : Part :=
  ⟨.id, idUuid, if ad.id.isZero then .error .zeroId else .ok ad.id.bytes⟩

/-- The interface name, which must not be empty. -/
def interfaceNamePart (ad : Advertisement) : Part :=
  ⟨.interfaceName, interfaceNameUuid,
    if ad.interfaceName.isEmpty then .error .emptyName else .ok (Utf8.encode ad.interfaceName)⟩

/-- The addresses, if there are any. -/
def addressesPart? (ad : Advertisement) : Option Part :=
  if ad.addresses.isEmpty then none else some ⟨.addresses, addressesUuid, .ok (packTexts ad.addresses)⟩

/-- Encryption metadata. An algorithm known by its code alone must not carry the code of a named
one, or it would come back as that one. -/
def encryptionPart (e : Encryption) : Part :=
  ⟨.encryption, encryptionUuid,
    if Algorithm.ofCode e.algorithm.code = e.algorithm then .ok (packEncryption e)
    else .error (.namedAlgorithm e.algorithm.code)⟩

/-- The content hash. -/
def hashPart (ad : Advertisement) : Part := ⟨.hash, hashUuid, .ok ad.hash.bytes⟩

/-- The directory servers, if there are any. -/
def directoriesPart? (ad : Advertisement) : Option Part :=
  if ad.directories.isEmpty then none
  else some ⟨.directories, directoriesUuid, .ok (packTexts ad.directories)⟩

/-- An attribute. -/
def attributePart (key value : String) : Part :=
  ⟨.attribute key, attributeUuid key,
    match keyReason? key with
    | some reason => .error reason
    | none =>
      if attachmentPrefix.toList.isPrefixOf key.toList then .error .reservedPrefix
      else .ok (joinKeyValue key (Utf8.encode value))⟩

/-- An attachment. -/
def attachmentPart (key : String) (value : Bytes) : Part :=
  ⟨.attachment key, attachmentUuid key,
    match keyReason? key with
    | some reason => .error reason
    | none => .ok (joinKeyValue (wireKey key) value)⟩

/-- The parts of an advertisement, in the order in which they are checked. -/
def parts (ad : Advertisement) : List Part :=
  [idPart ad, interfaceNamePart ad]
    ++ (addressesPart? ad).toList
    ++ (ad.encryption.map encryptionPart).toList
    ++ [hashPart ad]
    ++ (directoriesPart? ad).toList
    ++ ad.attributes.entries.map (fun e => attributePart e.1 e.2)
    ++ ad.attachments.entries.map (fun e => attachmentPart e.1 e.2)

/-- The entries of a list of parts, or the first fault among them. -/
def encodeParts : List Part → Except EncodeError (List (Uuid × Bytes))
  | [] => .ok []
  | part :: rest =>
    match part.entry with
    | .error e => .error e
    | .ok entry => (encodeParts rest).map (entry :: ·)

/-- The characteristics of an advertisement. The `lost` flag is never among them. -/
def encode (ad : Advertisement) : Except EncodeError Characteristics :=
  (encodeParts (parts ad)).map Table.ofList

end Nearby.Characteristics
