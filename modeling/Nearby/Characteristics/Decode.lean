import Nearby.Characteristics
import Nearby.PackedList

/-!
# From characteristics to an advertisement

Characteristics come from unknown peers, so decoding is lenient: a characteristic that makes no
sense is skipped, with a note of what is wrong with it, and the others still count. `readFact` reads
one characteristic by itself; `decode` gathers what the characteristics tell, by ascending
identifier, so that of two attributes with the same key the later one stands.
-/

namespace Nearby.Characteristics

/-- Why a characteristic cannot be decoded. -/
inductive DecodeReason
  | wrongLength (expected actual : Nat)
  | notText (fault : Utf8.Fault)
  | notList (fault : PackedList.Fault)
  | missingSeparator
  | missingAlgorithm
  | algorithmOutOfRange
  | invalidHex
  deriving DecidableEq, Repr

/-- The reason in words. -/
def DecodeReason.message : DecodeReason → String
  | .wrongLength expected actual => s!"expected {expected} bytes, got {actual}"
  | .notText fault => fault.message
  | .notList fault => fault.message
  | .missingSeparator => "missing `=` separator"
  | .missingAlgorithm => "missing algorithm"
  | .algorithmOutOfRange => "algorithm code out of range"
  | .invalidHex => "invalid hex"

/-- A field that cannot be decoded, and why. -/
structure DecodeError where
  field : Field
  reason : DecodeReason
  deriving DecidableEq, Repr

/-- The fault in words. -/
def DecodeError.message (e : DecodeError) : String :=
  s!"cannot decode field `{e.field.name}`: {e.reason.message}"

/-- What a single characteristic tells about an advertisement. -/
inductive Fact
  | id (id : AdId)
  | interfaceName (name : String)
  | addresses (addresses : List String)
  | encryption (encryption : Encryption)
  | hash (hash : AdHash)
  | directories (directories : List String)
  | attribute (key value : String)
  | attachment (key : String) (value : Bytes)
  deriving DecidableEq

/-- Reads text for a field. -/
def readText (field : Field) (bytes : Bytes) : Except DecodeError String :=
  (Utf8.decode bytes).mapError fun fault => ⟨field, .notText fault⟩

/-- Reads a list of texts, or the first fault among them. -/
def readTexts (field : Field) : List Bytes → Except DecodeError (List String)
  | [] => .ok []
  | item :: rest =>
    match readText field item with
    | .error e => .error e
    | .ok text => (readTexts field rest).map (text :: ·)

/-- Reads a packed list for a field. -/
def readList (field : Field) (bytes : Bytes) : Except DecodeError (List Bytes) :=
  (PackedList.unpack bytes).mapError fun fault => ⟨field, .notList fault⟩

/-- Reads encryption metadata. -/
def readEncryption (bytes : Bytes) : Except DecodeError Encryption :=
  match Varint.read? bytes with
  | none => .error ⟨.encryption, .missingAlgorithm⟩
  | some (code, rest) =>
    if code.toNat < UInt32.size then
      (readList .encryption rest).map fun keys => ⟨.ofCode code.toUInt32, keys⟩
    else .error ⟨.encryption, .algorithmOutOfRange⟩

/-- The bytes before the first separator and those behind it. -/
def splitKeyValue? (bytes : Bytes) : Option (Bytes × Bytes) :=
  match bytes.dropWhile (· != separator) with
  | [] => none
  | _ :: value => some (bytes.takeWhile (· != separator), value)

/-- The key of an attachment behind its mark. -/
def attachmentKey? (key : String) : Option String :=
  let mark := attachmentPrefix.toList
  if mark.isPrefixOf key.toList then some (String.ofList (key.toList.drop mark.length)) else none

/-- Reads an attribute or attachment. -/
def readKeyValue (bytes : Bytes) : Except DecodeError Fact :=
  match splitKeyValue? bytes with
  | none => .error ⟨.attributes, .missingSeparator⟩
  | some (key, value) =>
    match readText .attributes key with
    | .error e => .error e
    | .ok key =>
      match attachmentKey? key with
      | some name => .ok (.attachment name value)
      | none => (readText .attributes value).map (.attribute key)

/-- Reads one characteristic. -/
def readFact (uuid : Uuid) (value : Bytes) : Except DecodeError Fact :=
  if uuid = idUuid then
    match AdId.ofBytes? value with
    | some id => .ok (.id id)
    | none => .error ⟨.id, .wrongLength AdId.byteLength value.length⟩
  else if uuid = interfaceNameUuid then
    (readText .interfaceName value).map .interfaceName
  else if uuid = addressesUuid then
    (readList .addresses value >>= readTexts .addresses).map .addresses
  else if uuid = encryptionUuid then
    (readEncryption value).map .encryption
  else if uuid = hashUuid then
    match AdHash.ofBytes? value with
    | some hash => .ok (.hash hash)
    | none => .error ⟨.hash, .wrongLength AdHash.byteLength value.length⟩
  else if uuid = directoriesUuid then
    (readList .directories value >>= readTexts .directories).map .directories
  else readKeyValue value

/-- Adds a fact to what is known of an advertisement. -/
def learn (ad : Advertisement) : Fact → Advertisement
  | .id id => { ad with id }
  | .interfaceName interfaceName => { ad with interfaceName }
  | .addresses addresses => { ad with addresses }
  | .encryption encryption => { ad with encryption := some encryption }
  | .hash hash => { ad with hash }
  | .directories directories => { ad with directories }
  | .attribute key value => ad.setAttribute key value
  | .attachment key value => ad.setAttachment key value

/-- A characteristic that was skipped. -/
structure Skipped where
  uuid : Uuid
  error : DecodeError
  deriving DecidableEq

/-- The note on a skipped characteristic. -/
def Skipped.message (s : Skipped) : String :=
  s!"Skipping characteristic {s.uuid.text}: {s.error.message}"

/-- What decoding gives: an advertisement and the characteristics left out of it, by ascending
identifier. -/
structure Decoded where
  ad : Advertisement
  skipped : List Skipped
  deriving DecidableEq

/-- Takes one more characteristic into account. -/
def Decoded.add (d : Decoded) (entry : Uuid × Bytes) : Decoded :=
  match readFact entry.1 entry.2 with
  | .ok fact => { d with ad := learn d.ad fact }
  | .error error => { d with skipped := d.skipped ++ [⟨entry.1, error⟩] }

/-- Decodes characteristics, leaving out those that make no sense. -/
def decode (characteristics : Characteristics) : Decoded :=
  characteristics.entries.foldl Decoded.add ⟨.blank, []⟩

end Nearby.Characteristics

namespace Nearby.AdId

open Characteristics (DecodeError)

/-- The text form: 32 lower-case digits. -/
def text (id : AdId) : String := Hex.encode id.bytes

/-- Reads the text form, in digits of either case and with or without a leading `0x`. -/
def ofText (text : String) : Except DecodeError AdId :=
  let digits := match text.toList with
    | '0' :: 'x' :: rest => rest
    | other => other
  match Hex.ofDigits? digits with
  | none => .error ⟨.id, .invalidHex⟩
  | some bytes =>
    match ofBytes? bytes with
    | some id => .ok id
    | none => .error ⟨.id, .wrongLength byteLength bytes.length⟩

end Nearby.AdId

namespace Nearby.AdHash

/-- The text form: sixteen lower-case digits. -/
def text (hash : AdHash) : String := Hex.encode hash.bytes

end Nearby.AdHash
