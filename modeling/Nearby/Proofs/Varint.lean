import Mathlib.Data.Nat.Digits.Defs
import Nearby.Varint

/-!
# Numerals

A numeral is a byte string of which every byte but the last announces another one (`IsNumeral`); it
spells a number in digits of seven bits (`number`). The reader takes the numeral at the front of its
bytes, if it has no more than ten of them, and keeps the low 64 bits of its number
(`read?_eq_some_iff`).

* The writer writes a numeral of its number, so what it wrote can be read back (`read?_encode`), and
  no other numeral of a number is shorter (`length_encode_le_of_read?`).
* The tenth byte of a numeral has room for one bit. A reader is exact on all bytes except on those with
  a numeral in front whose tenth byte holds more (`readsExactly_iff`).
-/

namespace Nearby.Varint

/-! ## Digits -/

/-- The low seven bits of a byte. -/
theorem toNat_and_low (byte : UInt8) : (byte &&& 0x7F).toNat = byte.toNat % 128 := by
  rw [UInt8.toNat_and]
  exact Nat.and_two_pow_sub_one_eq_mod byte.toNat 7

/-- A byte is continued if its highest bit is set. -/
theorem isContinued_iff (byte : UInt8) : isContinued byte = true ↔ 128 ≤ byte.toNat := by
  rw [isContinued, decide_eq_true_eq, UInt8.le_iff_toNat_le]
  rfl

theorem isContinued_eq_false_iff (byte : UInt8) : isContinued byte = false ↔ byte.toNat < 128 := by
  rw [Bool.eq_false_iff, ne_eq, isContinued_iff, Nat.not_le]

/-- A byte string spells a number: every byte but the last announces another one. -/
def IsNumeral (bytes : Bytes) : Prop :=
  ∃ front last, bytes = front ++ [last] ∧ (∀ byte ∈ front, isContinued byte = true) ∧
    isContinued last = false

/-- The number that a byte string spells: seven bits a byte, the least significant ones first. -/
def number (bytes : Bytes) : Nat := Nat.ofDigits 128 (bytes.map fun byte => (byte &&& 0x7F).toNat)

variable {byte : UInt8} {bytes rest : Bytes}

theorem not_isNumeral_nil : ¬ IsNumeral [] := by
  rintro ⟨front, last, h, -⟩
  cases front <;> cases h

/-- A continued byte goes on as a numeral does. -/
theorem isNumeral_cons_of_isContinued (h : isContinued byte = true) :
    IsNumeral (byte :: bytes) ↔ IsNumeral bytes := by
  constructor
  · rintro ⟨front, last, hbytes, hfront, hlast⟩
    cases front with
    | nil =>
      obtain ⟨rfl, -⟩ := List.cons.inj hbytes
      rw [h] at hlast
      cases hlast
    | cons _ front =>
      obtain ⟨rfl, rfl⟩ := List.cons.inj hbytes
      exact ⟨front, last, rfl, fun b hb => hfront b (List.mem_cons_of_mem _ hb), hlast⟩
  · rintro ⟨front, last, rfl, hfront, hlast⟩
    exact ⟨byte :: front, last, rfl, List.forall_mem_cons.mpr ⟨h, hfront⟩, hlast⟩

/-- Any other byte is the last of a numeral. -/
theorem isNumeral_cons_of_not_isContinued (h : isContinued byte = false) :
    IsNumeral (byte :: bytes) ↔ bytes = [] := by
  constructor
  · rintro ⟨front, last, hbytes, hfront, -⟩
    cases front with
    | nil => exact (List.cons.inj hbytes).2
    | cons _ front =>
      obtain ⟨rfl, -⟩ := List.cons.inj hbytes
      rw [hfront byte (List.mem_cons_self ..)] at h
      cases h
  · rintro rfl
    exact ⟨[], byte, rfl, fun _ hb => (List.not_mem_nil hb).elim, h⟩

/-- The first byte has the lowest seven digits. -/
theorem number_cons (byte : UInt8) (bytes : Bytes) :
    number (byte :: bytes) = byte.toNat % 128 + 128 * number bytes := by
  rw [number, List.map_cons, Nat.ofDigits_cons, toNat_and_low, number]

theorem number_singleton (byte : UInt8) : number [byte] = byte.toNat % 128 := number_cons byte []

/-- A number of one digit is a numeral by itself. -/
theorem digit_spells {n : Nat} (h : n < 128) :
    IsNumeral [UInt8.ofNat n] ∧ number [UInt8.ofNat n] = n := by
  have hbyte : (UInt8.ofNat n).toNat = n := UInt8.toNat_ofNat_of_lt' (by show _ < 256; omega)
  refine ⟨(isNumeral_cons_of_not_isContinued ?_).mpr rfl, ?_⟩
  · rwa [isContinued_eq_false_iff, hbyte]
  · rw [number_singleton, hbyte, Nat.mod_eq_of_lt h]

/-- The digits of what follows weigh more by seven for each byte before. -/
theorem number_append (front bytes : Bytes) :
    number (front ++ bytes) = number front + 2 ^ (7 * front.length) * number bytes := by
  rw [number, List.map_append, Nat.ofDigits_append, List.length_map, Nat.pow_mul]
  rfl

/-- Seven digits a byte bound the number. -/
theorem number_lt (bytes : Bytes) : number bytes < 2 ^ (7 * bytes.length) := by
  rw [number, Nat.pow_mul, ← List.length_map fun byte : UInt8 => (byte &&& 0x7F).toNat]
  refine Nat.ofDigits_lt_base_pow_length (by decide) fun digit hdigit => ?_
  obtain ⟨byte, -, rfl⟩ := List.mem_map.mp hdigit
  rw [toNat_and_low]
  exact Nat.mod_lt _ (by decide)

/-! ## What is read -/

/-- A digit is placed above the bits read so far. What has no room in the word falls off. -/
theorem toNat_or_digit {value shift : UInt64} (hshift : shift.toNat < 64)
    (hvalue : value.toNat < 2 ^ shift.toNat) (byte : UInt8) :
    (value ||| ((byte &&& 0x7F).toUInt64 <<< shift)).toNat =
      (value.toNat + byte.toNat % 128 * 2 ^ shift.toNat) % 2 ^ 64 := by
  -- the bits that stay, at their place
  have hroom : 2 ^ 64 = 2 ^ shift.toNat * 2 ^ (64 - shift.toNat) := by
    rw [← Nat.pow_add]
    congr 1
    omega
  have hdigit : ((byte &&& 0x7F).toUInt64 <<< shift).toNat =
      2 ^ shift.toNat * (byte.toNat % 128 % 2 ^ (64 - shift.toNat)) := by
    rw [UInt64.toNat_shiftLeft, UInt8.toNat_toUInt64, toNat_and_low, Nat.mod_eq_of_lt hshift,
      Nat.shiftLeft_eq, Nat.mul_comm (byte.toNat % 128), hroom, Nat.mul_mod_mul_left]
  rw [UInt64.toNat_or, hdigit, Nat.or_comm, ← Nat.two_pow_add_eq_or_of_lt hvalue]
  rw [Nat.mul_comm (byte.toNat % 128), hroom, Nat.add_comm value.toNat, Nat.mod_mul,
    Nat.mul_add_mod, Nat.mod_eq_of_lt hvalue, Nat.mul_add_div (Nat.two_pow_pos _),
    Nat.div_eq_of_lt hvalue, Nat.add_zero, Nat.add_comm]

/-- No numeral is in front of nothing, and none is there without fuel. -/
theorem not_exists_numeral {fuel : Nat} {P : Bytes → Prop} (h : fuel = 0 ∨ bytes = []) :
    ¬ ∃ taken, bytes = taken ++ rest ∧ taken.length ≤ fuel ∧ IsNumeral taken ∧ P taken := by
  rintro ⟨taken, rfl, htaken, hnumeral, -⟩
  have hnil : taken = [] := by
    rcases h with rfl | h
    · exact List.eq_nil_of_length_eq_zero (Nat.le_zero.mp htaken)
    · exact (List.append_eq_nil_iff.mp h).1
  exact not_isNumeral_nil (hnil ▸ hnumeral)

/-- A byte that announces another one comes before the rest of the numeral. -/
theorem exists_numeral_of_isContinued {fuel : Nat} {P : Bytes → Prop}
    (h : isContinued byte = true) :
    (∃ taken, byte :: bytes = taken ++ rest ∧ taken.length ≤ fuel + 1 ∧ IsNumeral taken ∧
        P taken) ↔
      ∃ taken, bytes = taken ++ rest ∧ taken.length ≤ fuel ∧ IsNumeral taken ∧
        P (byte :: taken) := by
  constructor
  · rintro ⟨taken, htaken, hlength, hnumeral, hP⟩
    cases taken with
    | nil => exact (not_isNumeral_nil hnumeral).elim
    | cons _ taken =>
      obtain ⟨rfl, rfl⟩ := List.cons.inj htaken
      exact ⟨taken, rfl, Nat.le_of_succ_le_succ hlength,
        (isNumeral_cons_of_isContinued h).mp hnumeral, hP⟩
  · rintro ⟨taken, rfl, hlength, hnumeral, hP⟩
    exact ⟨byte :: taken, rfl, Nat.succ_le_succ hlength,
      (isNumeral_cons_of_isContinued h).mpr hnumeral, hP⟩

/-- Any other byte is a numeral of its own. -/
theorem exists_numeral_of_not_isContinued {fuel : Nat} {P : Bytes → Prop}
    (h : isContinued byte = false) :
    (∃ taken, byte :: bytes = taken ++ rest ∧ taken.length ≤ fuel + 1 ∧ IsNumeral taken ∧
        P taken) ↔ P [byte] ∧ bytes = rest := by
  constructor
  · rintro ⟨taken, htaken, -, hnumeral, hP⟩
    cases taken with
    | nil => exact (not_isNumeral_nil hnumeral).elim
    | cons _ taken =>
      obtain ⟨rfl, hbytes⟩ := List.cons.inj htaken
      obtain rfl := (isNumeral_cons_of_not_isContinued h).mp hnumeral
      exact ⟨hP, hbytes⟩
  · rintro ⟨hP, rfl⟩
    exact ⟨[byte], rfl, Nat.succ_le_succ (Nat.zero_le fuel),
      (isNumeral_cons_of_not_isContinued h).mpr rfl, hP⟩

/-- **A reader takes the numeral in front.** It has taken `count` bytes, and what it read stands below
bit `7 * count`; what the numeral spells is added from there on, as far as the word goes. -/
theorem readGroups_eq_some_iff {fuel count : Nat} {shift value total : UInt64}
    (hcount : fuel + count = maxLength) (hshift : shift.toNat = 7 * count)
    (hvalue : value.toNat < 2 ^ (7 * count)) :
    readGroups fuel shift value bytes = some (total, rest) ↔
      ∃ taken, bytes = taken ++ rest ∧ taken.length ≤ fuel ∧ IsNumeral taken ∧
        total.toNat = (value.toNat + number taken * 2 ^ (7 * count)) % 2 ^ 64 := by
  have hmax : maxLength = 10 := rfl
  induction fuel generalizing count shift value bytes with
  | zero => exact ⟨nofun, fun h => (not_exists_numeral (.inl rfl) h).elim⟩
  | succ fuel ih =>
    cases bytes with
    | nil => exact ⟨nofun, fun h => (not_exists_numeral (.inr rfl) h).elim⟩
    | cons byte bytes =>
      have hread := toNat_or_digit (by omega) (hshift ▸ hvalue) byte
      rw [hshift] at hread
      rw [readGroups]
      rcases hcont : isContinued byte with _ | _
      · -- the last byte of the numeral
        rw [exists_numeral_of_not_isContinued hcont, number_singleton, ← hread, UInt64.toNat_inj]
        simp only [Bool.false_eq_true, if_false, Option.some.injEq, Prod.mk.injEq]
        rw [eq_comm (a := total)]
      · -- what follows counts from seven bits further up
        have hscale : 2 ^ (7 * (count + 1)) = 128 * 2 ^ (7 * count) := by
          rw [Nat.mul_add, Nat.pow_add, Nat.mul_comm]
        have hnext : (shift + 7).toNat = 7 * (count + 1) := by
          change (shift.toNat + 7) % 2 ^ 64 = 7 * (count + 1)
          omega
        have hbelow : (value ||| ((byte &&& 0x7F).toUInt64 <<< shift)).toNat <
            2 ^ (7 * (count + 1)) := by
          have hdigit : byte.toNat % 128 * 2 ^ (7 * count) ≤ 127 * 2 ^ (7 * count) :=
            Nat.mul_le_mul_right _ (by omega)
          rw [hread, hscale]
          exact Nat.lt_of_le_of_lt (Nat.mod_le ..) (by omega)
        have hsum (n : Nat) : value.toNat + (byte.toNat % 128 + 128 * n) * 2 ^ (7 * count) =
            value.toNat + byte.toNat % 128 * 2 ^ (7 * count) + n * 2 ^ (7 * (count + 1)) := by
          rw [hscale, Nat.add_mul, Nat.add_assoc, Nat.mul_comm 128 n, Nat.mul_assoc]
        have hleft : fuel + (count + 1) = maxLength := by omega
        simp only [if_true]
        refine (ih hleft hnext hbelow).trans ?_
        rw [exists_numeral_of_isContinued hcont]
        simp only [hread, number_cons, hsum, Nat.mod_add_mod]

/-- **What is read is the numeral in front**, if it has at most ten bytes, and of its number the low 64
bits. -/
theorem read?_eq_some_iff {value : UInt64} :
    read? bytes = some (value, rest) ↔
      ∃ taken, bytes = taken ++ rest ∧ taken.length ≤ maxLength ∧ IsNumeral taken ∧
        value.toNat = number taken % 2 ^ 64 := by
  have hstart : maxLength + 0 = maxLength := rfl
  rw [read?, readGroups_eq_some_iff hstart rfl (by decide)]
  simp only [UInt64.toNat_zero, Nat.zero_add, Nat.mul_zero, Nat.pow_zero, Nat.mul_one]

/-- What comes after a numeral is left alone. -/
theorem read?_append {value : UInt64} (h : read? bytes = some (value, rest)) (more : Bytes) :
    read? (bytes ++ more) = some (value, rest ++ more) := by
  rw [read?_eq_some_iff] at h ⊢
  obtain ⟨taken, rfl, htaken⟩ := h
  exact ⟨taken, List.append_assoc .., htaken⟩

/-- The numeral in front is read alike when nothing follows it. -/
theorem exists_numeral_of_read? {value : UInt64} (h : read? bytes = some (value, rest)) :
    ∃ numeral, bytes = numeral ++ rest ∧ read? numeral = some (value, []) := by
  obtain ⟨taken, rfl, htaken⟩ := read?_eq_some_iff.mp h
  exact ⟨taken, rfl, read?_eq_some_iff.mpr ⟨taken, (List.append_nil taken).symm, htaken⟩⟩

/-- To read takes at least one byte. -/
theorem length_lt_of_read? {value : UInt64} (h : read? bytes = some (value, rest)) :
    rest.length < bytes.length := by
  obtain ⟨taken, rfl, -, ⟨front, last, rfl, -⟩, -⟩ := read?_eq_some_iff.mp h
  simp only [List.length_append, List.length_singleton]
  omega

/-- The length of the numeral in front. -/
def width (bytes : Bytes) : Nat := (bytes.takeWhile isContinued).length + 1

/-- What is read ends within the bytes, at the width of the numeral in front. -/
theorem of_read?_width {value : UInt64} (h : read? bytes = some (value, rest)) :
    width bytes ≤ bytes.length ∧ rest = bytes.drop (width bytes) := by
  obtain ⟨taken, rfl, -, ⟨front, last, rfl, hfront, hlast⟩, -⟩ := read?_eq_some_iff.mp h
  have hwidth : width (front ++ [last] ++ rest) = (front ++ [last]).length := by
    rw [width, List.append_assoc, List.takeWhile_append_of_pos hfront, List.singleton_append,
      List.takeWhile_cons_of_neg (by rw [hlast]; exact Bool.false_ne_true), List.append_nil,
      List.length_append, List.length_singleton]
  rw [hwidth, List.drop_left]
  exact ⟨(List.prefix_append (front ++ [last]) rest).length_le, rfl⟩

/-! ## What is written -/

/-- What is written of a number is a numeral that spells it, if there is fuel for its bits. -/
theorem groups_spell {fuel n : Nat} (h : n < 2 ^ (7 * (fuel + 1))) :
    IsNumeral (groups (fuel + 1) n) ∧ number (groups (fuel + 1) n) = n := by
  induction fuel generalizing n with
  | zero =>
    have hlast : n < 128 := h
    rw [groups, if_pos hlast]
    exact digit_spells hlast
  | succ fuel ih =>
    rw [groups]
    split
    case isTrue hlast => exact digit_spells hlast
    case isFalse hmore =>
      have hhigh : n / 128 < 2 ^ (7 * (fuel + 1)) := by
        rw [Nat.mul_add 7 (fuel + 1), Nat.pow_add] at h
        omega
      obtain ⟨hnumeral, hnumber⟩ := ih hhigh
      have hbyte : (UInt8.ofNat (n % 128 + 128)).toNat = n % 128 + 128 :=
        UInt8.toNat_ofNat_of_lt' (by show _ < 256; omega)
      refine ⟨(isNumeral_cons_of_isContinued ?_).mpr hnumeral, ?_⟩
      · rw [isContinued_iff, hbyte]
        omega
      · rw [number_cons, hbyte, hnumber]
        omega

/-- A word has no more bits than a numeral of ten bytes. -/
theorem encode_spells (value : UInt64) :
    IsNumeral (encode value) ∧ number (encode value) = value.toNat :=
  groups_spell (Nat.lt_trans value.toNat_lt (by decide))

theorem length_groups_le_fuel (fuel n : Nat) : (groups fuel n).length ≤ fuel := by
  induction fuel generalizing n with
  | zero => exact Nat.le_refl 0
  | succ fuel ih =>
    rw [groups]
    split
    · exact Nat.succ_le_succ (Nat.zero_le fuel)
    · exact Nat.succ_le_succ (ih (n / 128))

/-- **A number can be read back** from the front of a byte string. -/
theorem read?_encode (value : UInt64) (rest : Bytes) :
    read? (encode value ++ rest) = some (value, rest) := by
  obtain ⟨hnumeral, hnumber⟩ := encode_spells value
  rw [read?_eq_some_iff]
  refine ⟨encode value, rfl, length_groups_le_fuel maxLength value.toNat, hnumeral, ?_⟩
  rw [hnumber, Nat.mod_eq_of_lt value.toNat_lt]

/-- A number takes no more groups than its bits fill. -/
theorem length_groups_le {fuel count n : Nat} (h : n < 2 ^ (7 * (count + 1))) :
    (groups fuel n).length ≤ count + 1 := by
  induction count generalizing fuel n with
  | zero =>
    cases fuel with
    | zero => exact Nat.zero_le 1
    | succ fuel =>
      have hlast : n < 128 := h
      rw [groups, if_pos hlast]
      exact Nat.le_refl 1
  | succ count ih =>
    cases fuel with
    | zero => exact Nat.zero_le _
    | succ fuel =>
      have hhigh : n / 128 < 2 ^ (7 * (count + 1)) := by
        rw [Nat.mul_add 7 (count + 1), Nat.pow_add] at h
        omega
      rw [groups]
      split
      · exact Nat.succ_le_succ (Nat.zero_le (count + 1))
      · exact Nat.succ_le_succ (ih hhigh)

/-- **No numeral is shorter** than the one of `encode`: a number takes no more bytes than it was read
from. -/
theorem length_encode_le_of_read? {value : UInt64} (h : read? bytes = some (value, rest)) :
    (encode value).length + rest.length ≤ bytes.length := by
  obtain ⟨taken, rfl, -, hnumeral, hvalue⟩ := read?_eq_some_iff.mp h
  obtain ⟨count, hcount⟩ : ∃ count, taken.length = count + 1 := by
    obtain ⟨front, last, rfl, -⟩ := hnumeral
    exact ⟨front.length, List.length_append⟩
  have hfits : value.toNat < 2 ^ (7 * (count + 1)) := by
    rw [hvalue, ← hcount]
    exact Nat.lt_of_le_of_lt (Nat.mod_le ..) (number_lt taken)
  have hencode : (encode value).length ≤ count + 1 := length_groups_le hfits
  rw [List.length_append]
  omega

/-! ## What has no room -/

/-- The number read from a byte string is the one that the numeral in front spells. There is none if the
numeral has more than ten bytes, or if it spells a number that no word has. -/
def ReadsExactly (bytes : Bytes) : Prop :=
  ∀ value rest, read? bytes = some (value, rest) ↔
    ∃ taken, bytes = taken ++ rest ∧ taken.length ≤ maxLength ∧ IsNumeral taken ∧
      value.toNat = number taken

/-- In front is a numeral with a tenth byte that holds more than the one bit there is room for. -/
def IsOverfull (bytes : Bytes) : Prop :=
  ∃ front last rest, bytes = front ++ last :: rest ∧ front.length = 9 ∧
    (∀ byte ∈ front, isContinued byte = true) ∧ isContinued last = false ∧ 1 < last.toNat

/-- Behind nine bytes there is room for a bit, and behind fewer for a whole byte. -/
theorem number_concat_lt_iff {front : Bytes} {last : UInt8} (hlength : front.length + 1 ≤ maxLength)
    (hlast : isContinued last = false) :
    number (front ++ [last]) < 2 ^ 64 ↔ ¬ (front.length = 9 ∧ 1 < last.toNat) := by
  have hmax : maxLength = 10 := rfl
  have hdigit : last.toNat < 128 := (isContinued_eq_false_iff last).mp hlast
  have hfront := number_lt front
  rcases Nat.lt_or_ge front.length 9 with hshort | hlong
  · have hall := number_lt (front ++ [last])
    have hbound : 2 ^ (7 * (front ++ [last]).length) ≤ 2 ^ 63 := by
      refine Nat.pow_le_pow_right (by decide) ?_
      rw [List.length_append, List.length_singleton]
      omega
    omega
  · have hnine : front.length = 9 := by omega
    rw [number_append, number_singleton, Nat.mod_eq_of_lt hdigit]
    rw [hnine] at hfront ⊢
    omega

/-- An overfull row of bytes begins with a numeral for a number that is too large. -/
theorem IsOverfull.exists_numeral (h : IsOverfull bytes) :
    ∃ taken rest, bytes = taken ++ rest ∧ taken.length ≤ maxLength ∧ IsNumeral taken ∧
      ¬ number taken < 2 ^ 64 := by
  obtain ⟨front, last, rest, rfl, hnine, hfront, hlast, hover⟩ := h
  have hlength : front.length + 1 ≤ maxLength := Nat.le_of_eq (congrArg Nat.succ hnine)
  refine ⟨front ++ [last], rest, List.append_cons .., ?_, ⟨front, last, rfl, hfront, hlast⟩, ?_⟩
  · rwa [List.length_append]
  · rw [number_concat_lt_iff hlength hlast]
    exact not_not_intro ⟨hnine, hover⟩

/-- A row that is not overfull begins with a number of 64 bits. -/
theorem number_lt_of_not_isOverfull {taken : Bytes} (h : ¬ IsOverfull (taken ++ rest))
    (hlength : taken.length ≤ maxLength) (hnumeral : IsNumeral taken) :
    number taken < 2 ^ 64 := by
  obtain ⟨front, last, rfl, hfront, hlast⟩ := hnumeral
  rw [List.length_append, List.length_singleton] at hlength
  rw [number_concat_lt_iff hlength hlast]
  rintro ⟨hnine, hover⟩
  exact h ⟨front, last, rest, (List.append_cons ..).symm, hnine, hfront, hlast, hover⟩

/-- **A reader is exact where the tenth byte is not overfull.** It takes the numeral in front, if that
has at most ten bytes, and keeps the low 64 bits of its number. So it reads what the numeral spells
unless the tenth byte holds more than one bit, and always reads back what was written. -/
theorem readsExactly_iff (bytes : Bytes) :
    (∀ value rest, read? bytes = some (value, rest) ↔
      ∃ taken, bytes = taken ++ rest ∧ taken.length ≤ maxLength ∧ IsNumeral taken ∧
        value.toNat = number taken % 2 ^ 64) ∧
    (ReadsExactly bytes ↔ ¬ IsOverfull bytes) ∧
    ∀ value, read? (encode value ++ bytes) = some (value, bytes) := by
  refine ⟨fun _ _ => read?_eq_some_iff, ⟨fun hexact hover => ?_, fun hroom value rest => ?_⟩,
    fun value => read?_encode value bytes⟩
  · obtain ⟨taken, rest, rfl, hlength, hnumeral, hbig⟩ := hover.exists_numeral
    -- the reader takes the numeral, but no word has its number
    have hread : read? (taken ++ rest) = some (UInt64.ofNat (number taken), rest) :=
      read?_eq_some_iff.mpr ⟨taken, rfl, hlength, hnumeral, UInt64.toNat_ofNat'⟩
    obtain ⟨other, hother, -, -, hvalue⟩ := (hexact _ _).mp hread
    obtain rfl := List.append_cancel_right hother
    exact hbig (hvalue ▸ UInt64.toNat_lt _)
  · rw [read?_eq_some_iff]
    refine exists_congr fun taken => and_congr_right fun hbytes => and_congr_right fun hlength =>
      and_congr_right fun hnumeral => ?_
    rw [Nat.mod_eq_of_lt (number_lt_of_not_isOverfull (hbytes ▸ hroom) hlength hnumeral)]

/-- **A numeral may spell a number that no word has, and be read all the same.** This one spells
2 ^ 64 + 1, and one is read. -/
theorem not_always_readsExactly : ¬ ∀ bytes, ReadsExactly bytes := by
  intro halways
  have hread : read? [0x81, 0x80, 0x80, 0x80, 0x80, 0x80, 0x80, 0x80, 0x80, 0x02] =
      some (1, []) := by decide
  obtain ⟨taken, htaken, -, -, hvalue⟩ := (halways _ _ _).mp hread
  rw [List.append_nil] at htaken
  subst htaken
  revert hvalue
  decide

end Nearby.Varint
