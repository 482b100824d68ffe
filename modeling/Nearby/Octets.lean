import Nearby.Order

/-!
# Byte strings

Everything that crosses the radio is a byte string. `Bytes` is a string of any length, `Octets n`
one of a fixed length. Numbers travel big-endian: `bigEndian` writes a number into a fixed count of
bytes, `ofBigEndian` reads it back. Nothing is lost as long as the number fits
(`ofBigEndian_bigEndian`), and every byte string is that of a number (`bigEndian_ofBigEndian`).
-/

namespace Nearby

/-- A byte string of any length. -/
abbrev Bytes := List UInt8

/-- The low `n` bytes of a number, most significant byte first. -/
def bigEndian : (n : Nat) → (value : Nat) → Bytes
  | 0, _ => []
  | n + 1, value => bigEndian n (value / 256) ++ [UInt8.ofNat value]

/-- The number a byte string spells, most significant byte first. -/
def ofBigEndian (bytes : Bytes) : Nat :=
  bytes.foldl (fun value byte => value * 256 + byte.toNat) 0

/-- The count of byte strings of length `n`: the numbers below it are those that `n` bytes spell. -/
def byteStringCount : (n : Nat) → Nat
  | 0 => 1
  | n + 1 => 256 * byteStringCount n

@[simp] theorem length_bigEndian (n value : Nat) : (bigEndian n value).length = n := by
  induction n generalizing value with
  | zero => rfl
  | succ n ih => simp [bigEndian, ih]

/-- A further byte scales what the bytes before it spell. -/
theorem ofBigEndian_append_singleton (bytes : Bytes) (byte : UInt8) :
    ofBigEndian (bytes ++ [byte]) = ofBigEndian bytes * 256 + byte.toNat := by
  simp [ofBigEndian]

/-- A number that fits into the bytes is read back from them. -/
theorem ofBigEndian_bigEndian (n value : Nat) (h : value < byteStringCount n) :
    ofBigEndian (bigEndian n value) = value := by
  induction n generalizing value with
  | zero =>
    have : value = 0 := by simpa [byteStringCount] using h
    simp [bigEndian, ofBigEndian, this]
  | succ n ih =>
    have hhigh : value / 256 < byteStringCount n := by
      rw [byteStringCount] at h
      omega
    have hlow : (UInt8.ofNat value).toNat = value % 256 := by simp
    rw [bigEndian, ofBigEndian_append_singleton, ih _ hhigh, hlow]
    omega

/-- A byte string that is not empty has a last byte. -/
theorem exists_append_singleton {n : Nat} {bytes : Bytes} (h : bytes.length = n + 1) :
    ∃ front byte, bytes = front ++ [byte] ∧ front.length = n := by
  have hne : bytes ≠ [] := by
    rintro rfl
    cases h
  refine ⟨bytes.dropLast, bytes.getLast hne, (List.dropLast_concat_getLast hne).symm, ?_⟩
  rw [List.length_dropLast, h, Nat.add_sub_cancel]

/-- So many bytes have room for so many numbers. -/
theorem ofBigEndian_lt {n : Nat} {bytes : Bytes} (h : bytes.length = n) :
    ofBigEndian bytes < byteStringCount n := by
  induction n generalizing bytes with
  | zero =>
    rw [List.eq_nil_of_length_eq_zero h]
    decide
  | succ n ih =>
    obtain ⟨front, byte, rfl, hlength⟩ := exists_append_singleton h
    have hfront := ih hlength
    have hbyte := byte.toNat_lt
    rw [ofBigEndian_append_singleton, byteStringCount]
    omega

/-- Every byte string is written from the number that it spells. -/
theorem bigEndian_ofBigEndian {n : Nat} {bytes : Bytes} (h : bytes.length = n) :
    bigEndian n (ofBigEndian bytes) = bytes := by
  induction n generalizing bytes with
  | zero => rw [List.eq_nil_of_length_eq_zero h, bigEndian]
  | succ n ih =>
    obtain ⟨front, byte, rfl, hlength⟩ := exists_append_singleton h
    have hbyte := byte.toNat_lt
    have hhigh : (ofBigEndian front * 256 + byte.toNat) / 256 = ofBigEndian front := by omega
    have hlow : UInt8.ofNat (ofBigEndian front * 256 + byte.toNat) = byte := by
      rw [← UInt8.toNat_inj, UInt8.toNat_ofNat']
      omega
    rw [ofBigEndian_append_singleton, bigEndian, hhigh, hlow, ih hlength]

/-! ### Byte strings of a fixed length -/

/-- A byte string of length `n`. -/
structure Octets (n : Nat) where
  bytes : Bytes
  length_bytes : bytes.length = n
  deriving DecidableEq

namespace Octets

variable {n : Nat}

/-- Byte strings of one length are equal as soon as their bytes are. -/
@[ext] theorem ext {a b : Octets n} (h : a.bytes = b.bytes) : a = b := by
  cases a; cases b; cases h; rfl

/-- The string of `n` zero bytes. -/
def zero : Octets n := ⟨List.replicate n 0, List.length_replicate⟩

instance : Inhabited (Octets n) := ⟨zero⟩

/-- Reads a byte string that must have exactly `n` bytes. -/
def ofBytes? (bytes : Bytes) : Option (Octets n) :=
  if h : bytes.length = n then some ⟨bytes, h⟩ else none

/-- The low `n` bytes of a number, most significant byte first. -/
def ofNat (value : Nat) : Octets n := ⟨bigEndian n value, length_bigEndian n value⟩

/-- True if every byte is zero. -/
def isZero (a : Octets n) : Bool := a.bytes.all (· == 0)

/-- A byte string of the right length is read back. -/
theorem ofBytes?_bytes (a : Octets n) : ofBytes? a.bytes = some a := by
  simp [ofBytes?, a.length_bytes]

/-! Byte strings of one length are ordered from the first byte on, as dictionaries order words. -/

instance : Ord (Octets n) := ⟨fun a b => compare a.bytes b.bytes⟩

instance : Std.TransOrd (Octets n) := transOrd_of_key Octets.bytes fun _ _ => rfl

instance : Std.LawfulEqOrd (Octets n) :=
  lawfulEqOrd_of_key Octets.bytes (fun _ _ => rfl) fun _ _ => Octets.ext

end Octets

end Nearby
