import Nearby.Octets
import Nearby.Table

/-!
# Advertisements

An advertisement is what an application publishes and what others learn about its device: a named
entity with addresses, attributes and attachments. Two advertisements with the same identifier and
content hash count as the same one (`Advertisement.key`); one that is withdrawn is reported with
`lost` set.
-/

namespace Nearby

/-- The identifier of an advertisement, kept across updates of the same entity. -/
structure AdId where
  octets : Octets 16
  deriving DecidableEq, Inhabited

/-- A digest over the content of an advertisement. -/
structure AdHash where
  octets : Octets 8
  deriving DecidableEq, Inhabited

namespace AdId

/-- The length of an identifier in bytes. -/
def byteLength : Nat := 16

instance : Ord AdId := ⟨fun a b => compare a.octets b.octets⟩

instance : Std.TransOrd AdId := transOrd_of_key AdId.octets fun _ _ => rfl

instance : Std.LawfulEqOrd AdId :=
  lawfulEqOrd_of_key AdId.octets (fun _ _ => rfl) fun a b h => by cases a; cases b; cases h; rfl

/-- The bytes of an identifier. -/
def bytes (id : AdId) : Bytes := id.octets.bytes

/-- Reads an identifier, which must have exactly sixteen bytes. -/
def ofBytes? (bytes : Bytes) : Option AdId := (Octets.ofBytes? bytes).map AdId.mk

/-- True if every byte is zero. No advertisement is published under this identifier. -/
def isZero (id : AdId) : Bool := id.octets.isZero

end AdId

namespace AdHash

/-- The length of a hash in bytes. -/
def byteLength : Nat := 8

instance : Ord AdHash := ⟨fun a b => compare a.octets b.octets⟩

instance : Std.TransOrd AdHash := transOrd_of_key AdHash.octets fun _ _ => rfl

instance : Std.LawfulEqOrd AdHash :=
  lawfulEqOrd_of_key AdHash.octets (fun _ _ => rfl) fun a b h => by cases a; cases b; cases h; rfl

/-- The bytes of a hash. -/
def bytes (hash : AdHash) : Bytes := hash.octets.bytes

/-- Reads a hash, which must have exactly eight bytes. -/
def ofBytes? (bytes : Bytes) : Option AdHash := (Octets.ofBytes? bytes).map AdHash.mk

/-- True if every byte is zero, which stands for "not yet computed". -/
def isZero (hash : AdHash) : Bool := hash.octets.isZero

end AdHash

/-- The scheme that encrypts the content of an advertisement. -/
inductive Algorithm
  /-- A scheme for tests. -/
  | test
  /-- Identity-based encryption. -/
  | ibe
  /-- A scheme known by its code alone. -/
  | other (code : UInt32)
  deriving DecidableEq, Repr, Inhabited

namespace Algorithm

/-- The code of a scheme on the air. -/
def code : Algorithm → UInt32
  | .test => 1
  | .ibe => 2
  | .other code => code

/-- The scheme with a code. -/
def ofCode (code : UInt32) : Algorithm :=
  if code = 1 then .test else if code = 2 then .ibe else .other code

theorem code_ofCode (code : UInt32) : (ofCode code).code = code := by
  unfold ofCode
  split
  · simp_all [Algorithm.code]
  · split <;> simp_all [Algorithm.code]

end Algorithm

/-- How the content of an advertisement is encrypted. -/
structure Encryption where
  algorithm : Algorithm
  keys : List Bytes
  deriving DecidableEq, Repr, Inhabited

/-- A named entity that a device advertises. -/
structure Advertisement where
  id : AdId
  /-- The name that subscribers filter on. -/
  interfaceName : String
  /-- Where the entity can be reached. -/
  addresses : List String
  attributes : Table String String
  attachments : Table String Bytes
  encryption : Option Encryption
  /-- The servers that hold the whole advertisement. -/
  directories : List String
  hash : AdHash
  /-- Set only where the advertisement is reported as withdrawn. -/
  lost : Bool
  deriving DecidableEq, Inhabited

namespace Advertisement

/-- The advertisement without any content. -/
def blank : Advertisement := ⟨default, "", [], ∅, ∅, none, [], default, false⟩

/-- An advertisement with an identifier and a name, and nothing else. -/
def new (id : AdId) (interfaceName : String) : Advertisement :=
  { blank with id, interfaceName }

/-- Adds an address behind the others. -/
def addAddress (ad : Advertisement) (address : String) : Advertisement :=
  { ad with addresses := ad.addresses ++ [address] }

/-- Sets an attribute. -/
def setAttribute (ad : Advertisement) (key value : String) : Advertisement :=
  { ad with attributes := ad.attributes.insert key value }

/-- Sets an attachment. -/
def setAttachment (ad : Advertisement) (key : String) (value : Bytes) : Advertisement :=
  { ad with attachments := ad.attachments.insert key value }

/-- Sets how the content is encrypted. -/
def setEncryption (ad : Advertisement) (algorithm : Algorithm) (keys : List Bytes) :
    Advertisement :=
  { ad with encryption := some ⟨algorithm, keys⟩ }

/-- Adds a directory server behind the others. -/
def addDirectory (ad : Advertisement) (address : String) : Advertisement :=
  { ad with directories := ad.directories ++ [address] }

/-- What tells advertisements apart when two sets of them are compared. -/
def key (ad : Advertisement) : AdId × AdHash := (ad.id, ad.hash)

/-- The advertisement, reported as withdrawn. -/
def asLost (ad : Advertisement) : Advertisement := { ad with lost := true }

/-- True if the advertisement has the wanted name; the empty name wants them all. -/
def isWanted (ad : Advertisement) (wanted : String) : Bool :=
  wanted.isEmpty || ad.interfaceName == wanted

end Advertisement

end Nearby
