import Nearby.Advertisement
import Nearby.Stamp
import Nearby.Uuid

/-!
# Characteristics

An advertisement is served as one GATT service. Each of its parts is a characteristic of that
service: a value of at most 512 bytes under an identifier. The built-in fields have fixed
identifiers; an attribute or attachment has one derived from its key, and its value spells
`key=value`. Attachments share the key space of attributes behind the prefix `__`.
-/

namespace Nearby

/-- The characteristics of a service: the value under each identifier. -/
abbrev Characteristics := Table Uuid Bytes

namespace Characteristics

/-! ### Identifiers -/

/-- Holds the identifier of the advertisement. -/
def idUuid : Uuid := .ofNat 0x3dd1d5a8_0001_4b2d_a4cc_1d6e3b5f0a01

/-- Holds the interface name. -/
def interfaceNameUuid : Uuid := .ofNat 0x3dd1d5a8_0002_4b2d_a4cc_1d6e3b5f0a01

/-- Holds the packed addresses. -/
def addressesUuid : Uuid := .ofNat 0x3dd1d5a8_0003_4b2d_a4cc_1d6e3b5f0a01

/-- Holds the packed encryption metadata. -/
def encryptionUuid : Uuid := .ofNat 0x3dd1d5a8_0004_4b2d_a4cc_1d6e3b5f0a01

/-- Holds the content hash. -/
def hashUuid : Uuid := .ofNat 0x3dd1d5a8_0005_4b2d_a4cc_1d6e3b5f0a01

/-- Holds the packed addresses of the directory servers. -/
def directoriesUuid : Uuid := .ofNat 0x3dd1d5a8_0006_4b2d_a4cc_1d6e3b5f0a01

/-- The namespace of the identifiers that are derived from keys. -/
def keyNamespace : Uuid := .ofNat 0x3dd1d5a8_00ff_4b2d_a4cc_1d6e3b5f0a01

/-- Marks the key of an attachment on the air. -/
def attachmentPrefix : String := "__"

/-- The most bytes a characteristic may hold. -/
def maxLength : Nat := 512

/-- The byte between key and value, an equals sign. -/
def separator : UInt8 := 0x3D

/-- The key of an attachment on the air. -/
def wireKey (key : String) : String := attachmentPrefix ++ key

/-- The identifier of the characteristic with an attribute. -/
def attributeUuid (key : String) : Uuid := .derive keyNamespace (Utf8.encode key)

/-- The identifier of the characteristic with an attachment. -/
def attachmentUuid (key : String) : Uuid := attributeUuid (wireKey key)

/-! ### Fields, as faults name them -/

/-- A part of an advertisement. -/
inductive Field
  | id
  | interfaceName
  | addresses
  | encryption
  | hash
  | directories
  /-- Attributes and attachments, before the key is known. -/
  | attributes
  | attribute (key : String)
  | attachment (key : String)
  deriving DecidableEq, Repr

/-- The name of a field. -/
def Field.name : Field → String
  | .id => "id"
  | .interfaceName => "interface_name"
  | .addresses => "addresses"
  | .encryption => "encryption"
  | .hash => "hash"
  | .directories => "dir_addrs"
  | .attributes => "attributes"
  | .attribute key => s!"attributes[{key}]"
  | .attachment key => s!"attachments[{key}]"

end Characteristics

end Nearby
