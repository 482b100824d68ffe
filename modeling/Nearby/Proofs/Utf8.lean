import Mathlib.Tactic.SplitIfs
import Nearby.Text.Utf8

/-!
# UTF-8 text can be read back

Every character is written as bytes from which `first` reads it again, whatever follows. Its four
lengths are four cases: the leading byte tells the length, the second byte lies within the range
that `follow?` gives for it, and the payload bits add up to the character. The ranges leave out
overlong forms and surrogates, and no character needs either.

For the same reason there is no other way to write a text: what `decode` accepts is what `encode`
gives (`encode_of_decode`). And a byte of ASCII is no part of a longer character, so to look for the
byte is to look for its character (`ascii_mem_encode_iff`).
-/

namespace Nearby.Utf8

/-! ## Reading one character -/

/-- The bytes that may follow a leading byte, said in numbers. -/
theorem follow?_eq (b : UInt8) :
    follow? b =
      if 0xC2 ≤ b.toNat ∧ b.toNat ≤ 0xDF then some (2, 0x80, 0xBF)
      else if b.toNat = 0xE0 then some (3, 0xA0, 0xBF)
      else if b.toNat = 0xED then some (3, 0x80, 0x9F)
      else if 0xE1 ≤ b.toNat ∧ b.toNat ≤ 0xEF then some (3, 0x80, 0xBF)
      else if b.toNat = 0xF0 then some (4, 0x90, 0xBF)
      else if 0xF1 ≤ b.toNat ∧ b.toNat ≤ 0xF3 then some (4, 0x80, 0xBF)
      else if b.toNat = 0xF4 then some (4, 0x80, 0x8F)
      else none := by
  simp only [follow?, Bool.and_eq_true, decide_eq_true_eq, beq_iff_eq, UInt8.le_iff_toNat_le,
    ← UInt8.toNat_inj]
  rfl

/-- Only a byte outside of ASCII leads a longer character. -/
theorem not_ascii_of_follow? {lead : UInt8} {x : Nat × UInt8 × UInt8} (h : follow? lead = some x) :
    ¬ lead < 0x80 := by
  intro hlt
  have hn : lead.toNat < 0x80 := UInt8.lt_iff_toNat_lt.mp hlt
  rw [follow?_eq] at h
  grind

section Length

variable {lead low high second third fourth : UInt8} {rest : Bytes}

/-- A leading byte for two is read with the one that follows. -/
theorem first_two (hf : follow? lead = some (2, low, high)) (hl : low ≤ second)
    (hh : second ≤ high) :
    first lead (second :: rest) = .ok (Char.ofNat (lead.toNat % 32 * 64 + payload second), 2) := by
  have hr : ¬ (second < low || high < second) = true := by
    simp [UInt8.not_lt, hl, hh]
  rw [first, if_neg (not_ascii_of_follow? hf)]
  simp only [hf, if_neg hr]
  rfl

/-- One for three is read with the two that follow. -/
theorem first_three (hf : follow? lead = some (3, low, high)) (hl : low ≤ second)
    (hh : second ≤ high) (ht : isContinuation third = true) :
    first lead (second :: third :: rest) =
      .ok (Char.ofNat ((lead.toNat % 16 * 64 + payload second) * 64 + payload third), 3) := by
  have hr : ¬ (second < low || high < second) = true := by
    simp [UInt8.not_lt, hl, hh]
  rw [first, if_neg (not_ascii_of_follow? hf)]
  simp only [hf, if_neg hr, ht]
  rfl

/-- One for four is read with the three that follow. -/
theorem first_four (hf : follow? lead = some (4, low, high)) (hl : low ≤ second)
    (hh : second ≤ high) (ht : isContinuation third = true) (hq : isContinuation fourth = true) :
    first lead (second :: third :: fourth :: rest) =
      .ok (Char.ofNat (((lead.toNat % 8 * 64 + payload second) * 64 + payload third) * 64
        + payload fourth), 4) := by
  have hr : ¬ (second < low || high < second) = true := by
    simp [UInt8.not_lt, hl, hh]
  rw [first, if_neg (not_ascii_of_follow? hf)]
  simp only [hf, if_neg hr, ht, hq]
  rfl

end Length

/-! ## Writing one character -/

/-- The byte that continues a character, with the low six bits of a number. -/
def continuation (n : Nat) : UInt8 := UInt8.ofNat (n % 64 + 0x80)

theorem toNat_ofNat_of_lt {n : Nat} (h : n < 256) : (UInt8.ofNat n).toNat = n :=
  UInt8.toNat_ofNat_of_lt' h

/-- A continuation byte has six bits of its own. -/
theorem toNat_continuation (n : Nat) : (continuation n).toNat = n % 64 + 0x80 :=
  toNat_ofNat_of_lt (by omega)

@[simp] theorem payload_continuation (n : Nat) : payload (continuation n) = n % 64 := by
  rw [payload, toNat_continuation]
  omega

theorem le_continuation {n : Nat} {low : UInt8} (h : low.toNat ≤ n % 64 + 0x80) :
    low ≤ continuation n := by
  rw [UInt8.le_iff_toNat_le, toNat_continuation]
  exact h

theorem continuation_le {n : Nat} {high : UInt8} (h : n % 64 + 0x80 ≤ high.toNat) :
    continuation n ≤ high := by
  rw [UInt8.le_iff_toNat_le, toNat_continuation]
  exact h

@[simp] theorem isContinuation_continuation (n : Nat) : isContinuation (continuation n) = true := by
  rw [isContinuation, Bool.and_eq_true]
  exact ⟨decide_eq_true (le_continuation (Nat.le_add_left ..)),
    decide_eq_true (continuation_le (by show _ ≤ 0xBF; omega))⟩

/-- The scalar values are the code points that are no surrogates. -/
theorem toNat_scalar (c : Char) : c.toNat < 0xD800 ∨ 0xDFFF < c.toNat ∧ c.toNat < 0x110000 :=
  c.valid

/-- A character below 128 is a byte. -/
theorem first_ascii {c : Char} (h : c.toNat ≤ 0x7F) (rest : Bytes) :
    first (UInt8.ofNat c.toNat) rest = .ok (c, 1) := by
  have hlead : (UInt8.ofNat c.toNat).toNat = c.toNat := toNat_ofNat_of_lt (by omega)
  have hlt : UInt8.ofNat c.toNat < 0x80 := by
    rw [UInt8.lt_iff_toNat_lt, hlead]
    exact Nat.lt_succ_of_le h
  rw [first, if_pos hlt, hlead, Char.ofNat_toNat]

theorem first_encode_two {c : Char} (hl : 0x7F < c.toNat) (hu : c.toNat ≤ 0x7FF) (rest : Bytes) :
    first (UInt8.ofNat (c.toNat / 64 % 32 + 0xC0)) (continuation c.toNat :: rest) = .ok (c, 2) := by
  have hlead : (UInt8.ofNat (c.toNat / 64 % 32 + 0xC0)).toNat = c.toNat / 64 + 0xC0 := by
    rw [toNat_ofNat_of_lt (by omega)]
    omega
  have hfollow : follow? (UInt8.ofNat (c.toNat / 64 % 32 + 0xC0)) = some (2, 0x80, 0xBF) := by
    rw [follow?_eq, hlead, if_pos (by omega)]
  have hbits : (c.toNat / 64 + 0xC0) % 32 * 64 + c.toNat % 64 = c.toNat := by omega
  rw [first_two hfollow (le_continuation (Nat.le_add_left ..))
    (continuation_le (by show _ ≤ 0xBF; omega)), hlead, payload_continuation, hbits,
    Char.ofNat_toNat]

/-- Of the characters with three bytes, those that start with `E0` are above the ones with two, and
those that start with `ED` are below the surrogates. -/
theorem first_encode_three {c : Char} (hl : 0x7FF < c.toNat) (hu : c.toNat ≤ 0xFFFF) (rest : Bytes) :
    first (UInt8.ofNat (c.toNat / 4096 % 16 + 0xE0))
      (continuation (c.toNat / 64) :: continuation c.toNat :: rest) = .ok (c, 3) := by
  have hc := toNat_scalar c
  have hlead : (UInt8.ofNat (c.toNat / 4096 % 16 + 0xE0)).toNat = c.toNat / 4096 + 0xE0 := by
    rw [toNat_ofNat_of_lt (by omega)]
    omega
  have hbits : ((c.toNat / 4096 + 0xE0) % 16 * 64 + c.toNat / 64 % 64) * 64 + c.toNat % 64 =
      c.toNat := by omega
  -- the range of the second byte depends on the leading one
  obtain ⟨low, high, hfollow, hlow, hhigh⟩ : ∃ low high : UInt8,
      follow? (UInt8.ofNat (c.toNat / 4096 % 16 + 0xE0)) = some (3, low, high) ∧
        low.toNat ≤ c.toNat / 64 % 64 + 0x80 ∧ c.toNat / 64 % 64 + 0x80 ≤ high.toNat := by
    rw [follow?_eq, hlead, if_neg (by omega)]
    by_cases h0 : c.toNat / 4096 + 0xE0 = 0xE0
    · exact ⟨0xA0, 0xBF, if_pos h0, by show 0xA0 ≤ _; omega, by show _ ≤ 0xBF; omega⟩
    by_cases hd : c.toNat / 4096 + 0xE0 = 0xED
    · exact ⟨0x80, 0x9F, by rw [if_neg h0, if_pos hd], by show 0x80 ≤ _; omega, by show _ ≤ 0x9F; omega⟩
    · exact ⟨0x80, 0xBF, by rw [if_neg h0, if_neg hd, if_pos (by omega)], by show 0x80 ≤ _; omega,
        by show _ ≤ 0xBF; omega⟩
  rw [first_three hfollow (le_continuation hlow) (continuation_le hhigh)
    (isContinuation_continuation _), hlead, payload_continuation, payload_continuation, hbits,
    Char.ofNat_toNat]

/-- Of the characters with four bytes, those that start with `F0` are above the ones with three, and
those that start with `F4` end where the code points do. -/
theorem first_encode_four {c : Char} (hl : 0xFFFF < c.toNat) (rest : Bytes) :
    first (UInt8.ofNat (c.toNat / 262144 % 8 + 0xF0))
      (continuation (c.toNat / 4096) :: continuation (c.toNat / 64) :: continuation c.toNat :: rest)
      = .ok (c, 4) := by
  have hc := toNat_scalar c
  have hlead : (UInt8.ofNat (c.toNat / 262144 % 8 + 0xF0)).toNat = c.toNat / 262144 + 0xF0 := by
    rw [toNat_ofNat_of_lt (by omega)]
    omega
  have hbits : (((c.toNat / 262144 + 0xF0) % 8 * 64 + c.toNat / 4096 % 64) * 64
      + c.toNat / 64 % 64) * 64 + c.toNat % 64 = c.toNat := by omega
  obtain ⟨low, high, hfollow, hlow, hhigh⟩ : ∃ low high : UInt8,
      follow? (UInt8.ofNat (c.toNat / 262144 % 8 + 0xF0)) = some (4, low, high) ∧
        low.toNat ≤ c.toNat / 4096 % 64 + 0x80 ∧ c.toNat / 4096 % 64 + 0x80 ≤ high.toNat := by
    rw [follow?_eq, hlead, if_neg (by omega), if_neg (by omega), if_neg (by omega),
      if_neg (by omega)]
    by_cases h0 : c.toNat / 262144 + 0xF0 = 0xF0
    · exact ⟨0x90, 0xBF, if_pos h0, by show 0x90 ≤ _; omega, by show _ ≤ 0xBF; omega⟩
    by_cases h4 : c.toNat / 262144 + 0xF0 = 0xF4
    · exact ⟨0x80, 0x8F, by rw [if_neg h0, if_neg (by omega), if_pos h4], by show 0x80 ≤ _; omega,
        by show _ ≤ 0x8F; omega⟩
    · exact ⟨0x80, 0xBF, by rw [if_neg h0, if_pos (by omega)], by show 0x80 ≤ _; omega,
        by show _ ≤ 0xBF; omega⟩
  rw [first_four hfollow (le_continuation hlow) (continuation_le hhigh)
    (isContinuation_continuation _) (isContinuation_continuation _), hlead, payload_continuation,
    payload_continuation, payload_continuation, hbits, Char.ofNat_toNat]

/-- **A character can be read back**, whatever follows it. -/
theorem first_encodeChar (c : Char) (rest : Bytes) :
    ∃ lead tail, String.utf8EncodeChar c = lead :: tail ∧
      first lead (tail ++ rest) = .ok (c, tail.length + 1) := by
  unfold String.utf8EncodeChar
  by_cases h1 : c.toNat ≤ 0x7F
  · exact ⟨_, [], if_pos h1, first_ascii h1 rest⟩
  by_cases h2 : c.toNat ≤ 0x7FF
  · exact ⟨_, [_], (if_neg h1).trans (if_pos h2), first_encode_two (by omega) h2 rest⟩
  by_cases h3 : c.toNat ≤ 0xFFFF
  · exact ⟨_, [_, _], (if_neg h1).trans ((if_neg h2).trans (if_pos h3)),
      first_encode_three (by omega) h3 rest⟩
  · exact ⟨_, [_, _, _], (if_neg h1).trans ((if_neg h2).trans (if_neg h3)),
      first_encode_four (by omega) rest⟩

/-! ## Texts -/

/-- Enough fuel for the bytes is enough for the characters, of which there are not more. -/
theorem readFrom_flatMap (cs : List Char) :
    ∀ (fuel start : Nat), (cs.flatMap String.utf8EncodeChar).length ≤ fuel →
      readFrom fuel start (cs.flatMap String.utf8EncodeChar) = .ok cs := by
  induction cs with
  | nil => intro fuel start _; cases fuel <;> rfl
  | cons c cs ih =>
    intro fuel start hfuel
    obtain ⟨lead, tail, hc, hfirst⟩ := first_encodeChar c (cs.flatMap String.utf8EncodeChar)
    rw [List.flatMap_cons, hc, List.cons_append] at hfuel ⊢
    cases fuel with
    | zero => simp at hfuel
    | succ fuel =>
      -- the character takes one unit of fuel and at least one byte
      have hrest : (cs.flatMap String.utf8EncodeChar).length ≤ fuel := by
        simp only [List.length_cons, List.length_append] at hfuel
        omega
      have hdrop : (lead :: (tail ++ cs.flatMap String.utf8EncodeChar)).drop (tail.length + 1) =
          cs.flatMap String.utf8EncodeChar := by simp
      rw [readFrom, hfirst]
      simp only [hdrop, ih fuel _ hrest]
      rfl

/-- **Text can be read back** from its bytes. -/
@[simp] theorem decode_encode (text : String) : decode (encode text) = .ok text := by
  rw [decode, decodeChars, encode, readFrom_flatMap _ _ _ (Nat.le_refl _)]
  exact congrArg Except.ok (String.ofList_toList ..)

/-- Different texts have different bytes. -/
theorem encode_injective {s t : String} (h : encode s = encode t) : s = t := by
  have hs := decode_encode s
  rw [h, decode_encode] at hs
  exact (Except.ok.inj hs).symm

/-! ## Writing what was read -/

/-- How a character is written, said in numbers. -/
theorem encodeChar_eq (c : Char) :
    String.utf8EncodeChar c =
      if c.toNat ≤ 0x7F then [UInt8.ofNat c.toNat]
      else if c.toNat ≤ 0x7FF then
        [UInt8.ofNat (c.toNat / 64 % 32 + 0xC0), continuation c.toNat]
      else if c.toNat ≤ 0xFFFF then
        [UInt8.ofNat (c.toNat / 4096 % 16 + 0xE0), continuation (c.toNat / 64),
          continuation c.toNat]
      else
        [UInt8.ofNat (c.toNat / 262144 % 8 + 0xF0), continuation (c.toNat / 4096),
          continuation (c.toNat / 64), continuation c.toNat] := rfl

theorem toNat_ofNat_of_isValidChar {n : Nat} (h : n.isValidChar) : (Char.ofNat n).toNat = n := by
  rw [Char.ofNat, dif_pos h]
  rfl

theorem ofNat_eq_of_eq_toNat {n : Nat} {b : UInt8} (h : n = b.toNat) : UInt8.ofNat n = b := by
  rw [h, UInt8.ofNat_toNat]

/-- A byte that continues a character is made of its payload. -/
theorem continuation_eq {n : Nat} {b : UInt8} (hn : n % 64 = b.toNat % 64)
    (hb : 0x80 ≤ b.toNat ∧ b.toNat ≤ 0xBF) : continuation n = b :=
  ofNat_eq_of_eq_toNat (by omega)

/-- What follows the leading byte of a longer character: how many bytes there are, and the range of
the second one. -/
theorem of_follow?_eq_some {lead low high : UInt8} {n : Nat}
    (h : follow? lead = some (n, low, high)) :
    n = 2 ∧ 0xC2 ≤ lead.toNat ∧ lead.toNat ≤ 0xDF ∧ 0x80 ≤ low.toNat ∧ high.toNat ≤ 0xBF ∨
    n = 3 ∧ 0xE0 ≤ lead.toNat ∧ lead.toNat ≤ 0xEF ∧ 0x80 ≤ low.toNat ∧ high.toNat ≤ 0xBF ∧
      (lead.toNat = 0xE0 → 0xA0 ≤ low.toNat) ∧ (lead.toNat = 0xED → high.toNat ≤ 0x9F) ∨
    n = 4 ∧ 0xF0 ≤ lead.toNat ∧ lead.toNat ≤ 0xF4 ∧ 0x80 ≤ low.toNat ∧ high.toNat ≤ 0xBF ∧
      (lead.toNat = 0xF0 → 0x90 ≤ low.toNat) ∧ (lead.toNat = 0xF4 → high.toNat ≤ 0x8F) := by
  rw [follow?_eq] at h
  split_ifs at h <;> cases h <;> simp <;> omega

/-- A byte that is taken for the continuation of a character lies in the range of those. -/
theorem isContinuation_iff {b : UInt8} :
    isContinuation b = true ↔ 0x80 ≤ b.toNat ∧ b.toNat ≤ 0xBF := by
  rw [isContinuation, Bool.and_eq_true, decide_eq_true_eq, decide_eq_true_eq,
    UInt8.le_iff_toNat_le, UInt8.le_iff_toNat_le]
  rfl

section Length

variable {lead second third fourth : UInt8}

/-- A byte below 128 is the character again. -/
theorem encodeChar_ascii (h : lead.toNat < 0x80) :
    String.utf8EncodeChar (Char.ofNat lead.toNat) = [lead] := by
  have hc : (Char.ofNat lead.toNat).toNat = lead.toNat :=
    toNat_ofNat_of_isValidChar (.inl (by omega))
  rw [encodeChar_eq, hc, if_pos (by omega), UInt8.ofNat_toNat]

/-- The bytes of a character of two are written as they were read. -/
theorem encodeChar_two (hlead : 0xC2 ≤ lead.toNat ∧ lead.toNat ≤ 0xDF)
    (hsecond : 0x80 ≤ second.toNat ∧ second.toNat ≤ 0xBF) :
    String.utf8EncodeChar (Char.ofNat (lead.toNat % 32 * 64 + payload second)) =
      [lead, second] := by
  obtain ⟨n, hn⟩ : ∃ n, n = lead.toNat % 32 * 64 + second.toNat % 64 := ⟨_, rfl⟩
  have hc : (Char.ofNat n).toNat = n := toNat_ofNat_of_isValidChar (.inl (by omega))
  have h1 : UInt8.ofNat (n / 64 % 32 + 0xC0) = lead := ofNat_eq_of_eq_toNat (by omega)
  have h2 : continuation n = second := continuation_eq (by omega) hsecond
  rw [payload, ← hn, encodeChar_eq, hc, if_neg (by omega), if_pos (by omega), h1, h2]

/-- The second byte keeps overlong forms and surrogates out. -/
theorem encodeChar_three (hlead : 0xE0 ≤ lead.toNat ∧ lead.toNat ≤ 0xEF)
    (hsecond : 0x80 ≤ second.toNat ∧ second.toNat ≤ 0xBF)
    (hlong : lead.toNat = 0xE0 → 0xA0 ≤ second.toNat)
    (hscalar : lead.toNat = 0xED → second.toNat ≤ 0x9F)
    (hthird : 0x80 ≤ third.toNat ∧ third.toNat ≤ 0xBF) :
    String.utf8EncodeChar
        (Char.ofNat ((lead.toNat % 16 * 64 + payload second) * 64 + payload third)) =
      [lead, second, third] := by
  obtain ⟨n, hn⟩ : ∃ n, n = (lead.toNat % 16 * 64 + second.toNat % 64) * 64 + third.toNat % 64 :=
    ⟨_, rfl⟩
  have hc : (Char.ofNat n).toNat = n := by
    refine toNat_ofNat_of_isValidChar ?_
    by_cases hd : lead.toNat ≤ 0xED
    · exact .inl (by omega)
    · exact .inr (by omega)
  have h1 : UInt8.ofNat (n / 4096 % 16 + 0xE0) = lead := ofNat_eq_of_eq_toNat (by omega)
  have h2 : continuation (n / 64) = second := continuation_eq (by omega) hsecond
  have h3 : continuation n = third := continuation_eq (by omega) hthird
  rw [payload, payload, ← hn, encodeChar_eq, hc, if_neg (by omega), if_neg (by omega),
    if_pos (by omega), h1, h2, h3]

/-- The second byte keeps overlong forms out, and what is above the code points. -/
theorem encodeChar_four (hlead : 0xF0 ≤ lead.toNat ∧ lead.toNat ≤ 0xF4)
    (hsecond : 0x80 ≤ second.toNat ∧ second.toNat ≤ 0xBF)
    (hlong : lead.toNat = 0xF0 → 0x90 ≤ second.toNat)
    (hend : lead.toNat = 0xF4 → second.toNat ≤ 0x8F)
    (hthird : 0x80 ≤ third.toNat ∧ third.toNat ≤ 0xBF)
    (hfourth : 0x80 ≤ fourth.toNat ∧ fourth.toNat ≤ 0xBF) :
    String.utf8EncodeChar (Char.ofNat
        (((lead.toNat % 8 * 64 + payload second) * 64 + payload third) * 64 + payload fourth)) =
      [lead, second, third, fourth] := by
  obtain ⟨n, hn⟩ : ∃ n, n = ((lead.toNat % 8 * 64 + second.toNat % 64) * 64 + third.toNat % 64) * 64
      + fourth.toNat % 64 := ⟨_, rfl⟩
  have hc : (Char.ofNat n).toNat = n := toNat_ofNat_of_isValidChar (.inr (by omega))
  have h1 : UInt8.ofNat (n / 262144 % 8 + 0xF0) = lead := ofNat_eq_of_eq_toNat (by omega)
  have h2 : continuation (n / 4096) = second := continuation_eq (by omega) hsecond
  have h3 : continuation (n / 64) = third := continuation_eq (by omega) hthird
  have h4 : continuation n = fourth := continuation_eq (by omega) hfourth
  rw [payload, payload, payload, ← hn, encodeChar_eq, hc, if_neg (by omega), if_neg (by omega),
    if_neg (by omega), h1, h2, h3, h4]

end Length

/-- **A character that was read is written as the bytes it was read from.** -/
theorem encodeChar_of_first {lead : UInt8} {rest : Bytes} {c : Char} {length : Nat}
    (h : first lead rest = .ok (c, length)) :
    ∃ tail others, rest = tail ++ others ∧ length = tail.length + 1 ∧
      String.utf8EncodeChar c = lead :: tail := by
  rw [first] at h
  by_cases hascii : lead < 0x80
  · rw [if_pos hascii] at h
    obtain ⟨rfl, rfl⟩ := Prod.mk.inj (Except.ok.inj h)
    exact ⟨[], rest, rfl, rfl, encodeChar_ascii (UInt8.lt_iff_toNat_lt.mp hascii)⟩
  rw [if_neg hascii] at h
  rcases hfollow : follow? lead with _ | ⟨n, low, high⟩
  · rw [hfollow] at h
    cases h
  have hrange := of_follow?_eq_some hfollow
  simp only [hfollow] at h
  -- the leading byte says how many bytes follow, and each case asks for one more
  cases rest with
  | nil => cases h
  | cons second rest =>
    dsimp only at h
    split at h
    · cases h
    rename_i hsecond
    have hsecond : low.toNat ≤ second.toNat ∧ second.toNat ≤ high.toNat := by
      simpa [UInt8.not_lt, UInt8.le_iff_toNat_le] using hsecond
    split at h
    · obtain ⟨rfl, rfl⟩ := Prod.mk.inj (Except.ok.inj h)
      refine ⟨[second], rest, rfl, rfl, encodeChar_two ?_ ?_⟩ <;> omega
    cases rest with
    | nil => cases h
    | cons third rest =>
      dsimp only at h
      split at h
      · cases h
      rename_i hthird
      have hthird := isContinuation_iff.mp (by simpa using hthird)
      split at h
      · obtain ⟨rfl, rfl⟩ := Prod.mk.inj (Except.ok.inj h)
        refine ⟨[second, third], rest, rfl, rfl, encodeChar_three ?_ ?_ ?_ ?_ hthird⟩ <;> omega
      cases rest with
      | nil => cases h
      | cons fourth rest =>
        dsimp only at h
        split at h
        · cases h
        rename_i hfourth
        have hfourth := isContinuation_iff.mp (by simpa using hfourth)
        obtain ⟨rfl, rfl⟩ := Prod.mk.inj (Except.ok.inj h)
        refine ⟨[second, third, fourth], rest, rfl, rfl,
          encodeChar_four ?_ ?_ ?_ ?_ hthird hfourth⟩ <;> omega

/-- Characters that were read are written as the bytes they were read from. -/
theorem flatMap_of_readFrom {fuel start : Nat} {bytes : Bytes} {cs : List Char}
    (hfuel : bytes.length ≤ fuel) (h : readFrom fuel start bytes = .ok cs) :
    cs.flatMap String.utf8EncodeChar = bytes := by
  induction fuel generalizing start bytes cs with
  | zero =>
    obtain rfl := List.eq_nil_of_length_eq_zero (Nat.le_zero.mp hfuel)
    obtain rfl := Except.ok.inj h
    rfl
  | succ fuel ih =>
    cases bytes with
    | nil =>
      obtain rfl := Except.ok.inj h
      rfl
    | cons lead rest =>
      rw [readFrom] at h
      rcases hfirst : first lead rest with defect | ⟨c, length⟩
      · rw [hfirst] at h
        cases h
      obtain ⟨tail, others, rfl, rfl, hc⟩ := encodeChar_of_first hfirst
      simp only [hfirst, List.drop_succ_cons, List.drop_left] at h
      rcases hrest : readFrom fuel (start + (tail.length + 1)) others with fault | ds
      · rw [hrest] at h
        cases h
      rw [hrest] at h
      obtain rfl := Except.ok.inj h
      have hothers : others.length ≤ fuel := by
        rw [List.length_cons, List.length_append] at hfuel
        omega
      rw [List.flatMap_cons, hc, ih hothers hrest, List.cons_append]

/-- **Text that was read is written as the bytes it was read from**: text has one form only. -/
theorem encode_of_decode {bytes : Bytes} {text : String} (h : decode bytes = .ok text) :
    encode text = bytes := by
  rw [decode] at h
  rcases hchars : decodeChars bytes with fault | cs
  · rw [hchars] at h
    cases h
  rw [hchars] at h
  obtain rfl := Except.ok.inj h
  rw [encode, String.toList_ofList]
  exact flatMap_of_readFrom (Nat.le_refl _) hchars

/-! ## ASCII -/

/-- A character beyond ASCII is written as a byte beyond ASCII that others continue. -/
theorem exists_encodeChar {c : Char} (h : ¬ c.toNat ≤ 0x7F) :
    ∃ (lead : Nat) (others : List Nat),
      String.utf8EncodeChar c = UInt8.ofNat lead :: others.map continuation ∧
        0x80 ≤ lead ∧ lead < 256 := by
  rw [encodeChar_eq, if_neg h]
  split
  · refine ⟨_, [c.toNat], rfl, ?_, ?_⟩ <;> omega
  split
  · refine ⟨_, [c.toNat / 64, c.toNat], rfl, ?_, ?_⟩ <;> omega
  · refine ⟨_, [c.toNat / 4096, c.toNat / 64, c.toNat], rfl, ?_, ?_⟩ <;> omega

/-- The bytes of all other characters have the highest bit set. -/
theorem le_toNat_of_mem_encodeChar {c : Char} (h : ¬ c.toNat ≤ 0x7F) {b : UInt8}
    (hb : b ∈ String.utf8EncodeChar c) : 0x80 ≤ b.toNat := by
  obtain ⟨lead, others, hchar, hlow, hhigh⟩ := exists_encodeChar h
  rw [hchar, List.mem_cons, List.mem_map] at hb
  obtain rfl | ⟨n, -, rfl⟩ := hb
  · rwa [toNat_ofNat_of_lt hhigh]
  · rw [toNat_continuation]
    exact Nat.le_add_left ..

/-- So a character below 128 stands for itself only. -/
theorem ascii_mem_encodeChar_iff {a c : Char} (h : a.toNat ≤ 0x7F) :
    UInt8.ofNat a.toNat ∈ String.utf8EncodeChar c ↔ a = c := by
  have hbyte : (UInt8.ofNat a.toNat).toNat = a.toNat := toNat_ofNat_of_lt (by omega)
  by_cases hascii : c.toNat ≤ 0x7F
  · rw [encodeChar_eq, if_pos hascii, List.mem_singleton, ← UInt8.toNat_inj, hbyte,
      toNat_ofNat_of_lt (by omega), Char.toNat_inj]
  · refine iff_of_false (fun hmem => ?_) ?_
    · have hbeyond := le_toNat_of_mem_encodeChar hascii hmem
      omega
    · rintro rfl
      exact hascii h

/-- **The byte of an ASCII character stands for that character alone**, wherever it occurs. -/
theorem ascii_mem_encode_iff {a : Char} (h : a.toNat ≤ 0x7F) {text : String} :
    UInt8.ofNat a.toNat ∈ encode text ↔ a ∈ text.toList := by
  simp [encode, ascii_mem_encodeChar_iff h]

theorem encode_eq_nil_iff {text : String} : encode text = [] ↔ text = "" := by
  constructor
  · exact fun h => encode_injective (h.trans rfl)
  · rintro rfl
    rfl

end Nearby.Utf8
