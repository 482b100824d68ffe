/-!
# Times and durations

Freshness is counted in milliseconds of a 64-bit clock. A `Duration` is a count of seconds and
nanoseconds, which is finer and reaches further than the clock.
-/

namespace Nearby

/-- A span of time. -/
structure Duration where
  seconds : UInt64
  nanos : Fin 1000000000
  deriving DecidableEq, Repr, Inhabited

namespace Duration

/-- Seconds and any number of nanoseconds; there is no duration if their sum has too many seconds. -/
def ofParts? (seconds : UInt64) (nanos : Nat) : Option Duration :=
  if seconds.toNat + nanos / 1000000000 < UInt64.size then
    some ⟨seconds + UInt64.ofNat (nanos / 1000000000), ⟨nanos % 1000000000, by omega⟩⟩
  else none

/-- A whole number of seconds. -/
def ofSeconds (seconds : UInt64) : Duration := ⟨seconds, 0⟩

/-- A whole number of milliseconds. -/
def ofMillis (millis : UInt64) : Duration :=
  ⟨millis / 1000, ⟨millis.toNat % 1000 * 1000000, by omega⟩⟩

/-- The whole milliseconds in a duration. -/
def toMillis (d : Duration) : Nat := d.seconds.toNat * 1000 + d.nanos.val / 1000000

/-- The length of a duration in nanoseconds. -/
def toNanos (d : Duration) : Nat := d.seconds.toNat * 1000000000 + d.nanos.val

/-- Half of a duration, rounded down to a nanosecond. -/
def half (d : Duration) : Duration :=
  ⟨d.seconds / 2, ⟨(d.seconds.toNat % 2 * 1000000000 + d.nanos.val) / 2, by omega⟩⟩

end Duration

/-- A reading of the millisecond clock. -/
structure Timestamp where
  millis : UInt64
  deriving DecidableEq, Repr, Inhabited

namespace Timestamp

/-- The failure of a sum that leaves the 64 bits of the clock. -/
inductive Overflow
  | sum
  deriving DecidableEq, Repr

/-- What is wrong, in words. -/
def Overflow.message : Overflow → String
  | .sum => "attempt to add with overflow"

/-- The reading `millis` later. -/
def add (t : Timestamp) (millis : UInt64) : Except Overflow Timestamp :=
  if t.millis.toNat + millis.toNat < UInt64.size then .ok ⟨t.millis + millis⟩ else .error .sum

/-- The milliseconds passed since an earlier reading, none if that one is later. -/
def since (t earlier : Timestamp) : UInt64 :=
  if earlier.millis ≤ t.millis then t.millis - earlier.millis else 0

/-- The time passed since an earlier reading. -/
def durationSince (t earlier : Timestamp) : Duration := .ofMillis (t.since earlier)

instance : Ord Timestamp := ⟨fun a b => compare a.millis b.millis⟩

end Timestamp

end Nearby
