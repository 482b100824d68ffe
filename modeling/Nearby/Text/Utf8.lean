import Nearby.Octets

/-!
# UTF-8 text

Text travels in UTF-8. Bytes from a peer need not be text, so reading says where they stop being
text: `Utf8.Fault` gives the length of the part read before, and how many bytes make up the first
ill-formed sequence, or that the input ends inside a sequence that was well-formed so far.
-/

namespace Nearby.Utf8

/-- Writes text in UTF-8. -/
def encode (text : String) : Bytes := text.toList.flatMap String.utf8EncodeChar

/-- Why the first sequence of a byte string is no character. -/
inductive Defect
  /-- The first `length` bytes start no character, whatever follows. -/
  | invalid (length : Nat)
  /-- The input ends inside a character. -/
  | incomplete
  deriving DecidableEq, Repr

/-- Where a byte string stops being text, and why. -/
structure Fault where
  /-- The number of bytes that are text. -/
  validUpTo : Nat
  defect : Defect
  deriving DecidableEq, Repr

/-- True for the bytes that continue a character. -/
def isContinuation (byte : UInt8) : Bool := 0x80 ≤ byte && byte ≤ 0xBF

/-- The second bytes that may follow a leading byte, as an inclusive range, together with the number
of bytes of the character; there is none for a byte that leads no longer character. -/
def follow? (lead : UInt8) : Option (Nat × UInt8 × UInt8) :=
  if 0xC2 ≤ lead && lead ≤ 0xDF then some (2, 0x80, 0xBF)
  else if lead == 0xE0 then some (3, 0xA0, 0xBF)
  else if lead == 0xED then some (3, 0x80, 0x9F)
  else if 0xE1 ≤ lead && lead ≤ 0xEF then some (3, 0x80, 0xBF)
  else if lead == 0xF0 then some (4, 0x90, 0xBF)
  else if 0xF1 ≤ lead && lead ≤ 0xF3 then some (4, 0x80, 0xBF)
  else if lead == 0xF4 then some (4, 0x80, 0x8F)
  else none

/-- The payload bits of a continuation byte. -/
def payload (byte : UInt8) : Nat := byte.toNat % 64

/-- Reads the first character of a non-empty byte string and the number of bytes it takes. -/
def first (lead : UInt8) (rest : Bytes) : Except Defect (Char × Nat) :=
  if lead < 0x80 then .ok (Char.ofNat lead.toNat, 1)
  else
    match follow? lead with
    | none => .error (.invalid 1)
    | some (length, low, high) =>
      match rest with
      | [] => .error .incomplete
      | second :: rest =>
        if second < low || high < second then .error (.invalid 1)
        else if length = 2 then .ok (Char.ofNat (lead.toNat % 32 * 64 + payload second), 2)
        else
          match rest with
          | [] => .error .incomplete
          | third :: rest =>
            if !isContinuation third then .error (.invalid 2)
            else if length = 3 then
              .ok (Char.ofNat ((lead.toNat % 16 * 64 + payload second) * 64 + payload third), 3)
            else
              match rest with
              | [] => .error .incomplete
              | fourth :: _ =>
                if !isContinuation fourth then .error (.invalid 3)
                else
                  .ok (Char.ofNat (((lead.toNat % 8 * 64 + payload second) * 64 + payload third) * 64
                    + payload fourth), 4)

/-- Reads characters, `start` bytes into the input; `fuel` bounds their number. -/
def readFrom : (fuel : Nat) → (start : Nat) → Bytes → Except Fault (List Char)
  | _, _, [] => .ok []
  | 0, _, _ :: _ => .ok []
  | fuel + 1, start, lead :: rest =>
    match first lead rest with
    | .error defect => .error ⟨start, defect⟩
    | .ok (c, length) => (readFrom fuel (start + length) ((lead :: rest).drop length)).map (c :: ·)

/-- Reads the characters of a byte string. Every character takes a byte, so there are no more
characters than bytes. -/
def decodeChars (bytes : Bytes) : Except Fault (List Char) := readFrom bytes.length 0 bytes

/-- Reads text. -/
def decode (bytes : Bytes) : Except Fault String := (decodeChars bytes).map String.ofList

/-- What is wrong, in words. -/
def Fault.message (fault : Fault) : String :=
  match fault.defect with
  | .invalid length => s!"invalid utf-8 sequence of {length} bytes from index {fault.validUpTo}"
  | .incomplete => s!"incomplete utf-8 byte sequence from index {fault.validUpTo}"

end Nearby.Utf8
