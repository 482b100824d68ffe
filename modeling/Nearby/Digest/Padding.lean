import Nearby.Octets

/-!
# Message blocks

Both digests of this library read a message as blocks of sixteen 32-bit words. The message is
closed by a one bit, as many zero bits as it takes, and its length in bits.
-/

namespace Nearby.Digest

/-- The message with its closing, a multiple of 64 bytes long. -/
def pad (message : Bytes) : Bytes :=
  message ++ 0x80 :: List.replicate ((119 - message.length % 64) % 64) 0
    ++ bigEndian 8 (8 * message.length)

/-- The big-endian 32-bit words of a byte string; bytes short of a word are left out. -/
def words : Bytes → List UInt32
  | a :: b :: c :: d :: rest => UInt32.ofNat (ofBigEndian [a, b, c, d]) :: words rest
  | _ => []

/-- Cuts a list of words into blocks of sixteen. -/
def blocks : (count : Nat) → List UInt32 → List (List UInt32)
  | 0, _ => []
  | count + 1, ws => ws.take 16 :: blocks count (ws.drop 16)

/-- The blocks of a message, closing included. -/
def blocksOf (message : Bytes) : List (List UInt32) :=
  let padded := pad message
  blocks (padded.length / 64) (words padded)

/-- Rotates a word to the left. -/
def rotateLeft (x : UInt32) (n : UInt32) : UInt32 := (x <<< n) ||| (x >>> (32 - n))

/-- Rotates a word to the right. -/
def rotateRight (x : UInt32) (n : UInt32) : UInt32 := (x >>> n) ||| (x <<< (32 - n))

/-- Lengthens a block by `count` words, each computed by `next` from the sixteen words before it,
oldest first. -/
def schedule (next : List UInt32 → UInt32) : (count : Nat) → (window : List UInt32) → List UInt32
  | 0, window => window
  | count + 1, window => window.head?.getD 0 :: schedule next count (window.tail ++ [next window])

/-- The bytes of a list of words. -/
def ofWords (ws : List UInt32) : Bytes := ws.flatMap fun w => bigEndian 4 w.toNat

@[simp] theorem length_ofWords (ws : List UInt32) : (ofWords ws).length = 4 * ws.length := by
  induction ws with
  | nil => rfl
  | cons w rest ih =>
    rw [ofWords, List.flatMap_cons, List.length_append, ← ofWords, ih]
    simp
    omega

end Nearby.Digest
