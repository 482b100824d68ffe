import Nearby.Digest.Padding

/-!
# SHA-1

The digest behind name-based identifiers.
-/

namespace Nearby.Digest.Sha1

/-- The running state: five words. -/
structure State where
  a : UInt32
  b : UInt32
  c : UInt32
  d : UInt32
  e : UInt32

/-- The state before the first block. -/
def initial : State := ⟨0x67452301, 0xefcdab89, 0x98badcfe, 0x10325476, 0xc3d2e1f0⟩

/-- The schedule word that follows sixteen others. -/
def next (window : List UInt32) : UInt32 :=
  let w (i : Nat) := window.getD i 0
  rotateLeft (w 13 ^^^ w 8 ^^^ w 2 ^^^ w 0) 1

/-- The mixing function and the constant of a round; they change every twenty rounds. -/
def mix (index : Nat) (b c d : UInt32) : UInt32 × UInt32 :=
  if index < 20 then ((b &&& c) ||| ((~~~b) &&& d), 0x5a827999)
  else if index < 40 then (b ^^^ c ^^^ d, 0x6ed9eba1)
  else if index < 60 then ((b &&& c) ||| (b &&& d) ||| (c &&& d), 0x8f1bbcdc)
  else (b ^^^ c ^^^ d, 0xca62c1d6)

/-- One round, with its schedule word and its index. -/
def round (s : State) (wi : UInt32 × Nat) : State :=
  let (mixed, constant) := mix wi.2 s.b s.c s.d
  ⟨rotateLeft s.a 5 + mixed + s.e + constant + wi.1, s.a, rotateLeft s.b 30, s.c, s.d⟩

/-- Absorbs one block. -/
def absorb (s : State) (block : List UInt32) : State :=
  let r := (schedule next 64 block).zipIdx.foldl round s
  ⟨s.a + r.a, s.b + r.b, s.c + r.c, s.d + r.d, s.e + r.e⟩

/-- The words of a state, in order. -/
def State.words (s : State) : List UInt32 := [s.a, s.b, s.c, s.d, s.e]

/-- The digest of a message. -/
def digest (message : Bytes) : Octets 20 :=
  ⟨ofWords ((blocksOf message).foldl absorb initial).words, by simp [State.words]⟩

end Nearby.Digest.Sha1
