import Nearby.Advertisement
import Nearby.Digest.Sha256
import Nearby.Text.Utf8

/-!
# The content of an advertisement as bytes

The content hash is a digest over a byte string that spells out every field: each text or byte
string follows its length, and each list or table follows its count, so bytes cannot move from one
field to the next unnoticed. The hash and the `lost` flag are no content.
-/

namespace Nearby.Advertisement

/-- A byte string behind its length. -/
def frame (bytes : Bytes) : Bytes := bigEndian 8 bytes.length ++ bytes

/-- A text behind its length. -/
def frameText (text : String) : Bytes := frame (Utf8.encode text)

/-- A list behind its count. -/
def frameList {α : Type} (item : α → Bytes) (items : List α) : Bytes :=
  bigEndian 8 items.length ++ items.flatMap item

/-- The encryption field; no encryption is written as the code zero. -/
def encryptionContent : Option Encryption → Bytes
  | none => bigEndian 4 0
  | some e => bigEndian 4 e.algorithm.code.toNat ++ frameList frame e.keys

/-- The content of an advertisement. -/
def content (ad : Advertisement) : Bytes :=
  frame ad.id.bytes
    ++ frameText ad.interfaceName
    ++ frameList frameText ad.addresses
    ++ frameList (fun e => frameText e.1 ++ frameText e.2) ad.attributes.entries
    ++ frameList (fun e => frameText e.1 ++ frame e.2) ad.attachments.entries
    ++ encryptionContent ad.encryption
    ++ frameList frameText ad.directories

/-- The content hash: the first eight bytes of the digest over the content. -/
def contentHash (ad : Advertisement) : AdHash :=
  ⟨(Digest.Sha256.digest ad.content).bytes.take 8, by
    simp [(Digest.Sha256.digest ad.content).length_bytes]⟩

/-- Sets the hash to the one of the present content. -/
def withContentHash (ad : Advertisement) : Advertisement := { ad with hash := ad.contentHash }

end Nearby.Advertisement
