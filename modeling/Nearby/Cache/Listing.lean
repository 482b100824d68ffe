import Nearby.Cache
import Nearby.Characteristics.Decode

/-!
# Listings without a natural order

Where several peers have a part in a list, the order of the list means nothing. A listing then goes
by identifier, hash, loss, name and handler, and keeps equal items in the order they came in.
-/

namespace Nearby

/-- Orders advertisements for a listing. -/
def Advertisement.listingOrder (a b : Advertisement) : Ordering :=
  (compare a.id b.id).then <| (compare a.hash b.hash).then <| (compare a.lost b.lost).then
    (compare a.interfaceName b.interfaceName)

/-- Advertisements in listing order. -/
def Advertisement.listed (ads : List Advertisement) : List Advertisement :=
  ads.mergeSort fun a b => (a.listingOrder b).isLE

/-- Events in listing order. -/
def Event.listed (events : List Event) : List Event :=
  events.mergeSort fun a b =>
    ((a.ad.listingOrder b.ad).then (compare a.handler.name b.handler.name)).isLE

/-- Events with their times, listed where their order means nothing: among losses at one time, and
among all events at one time if several peers have a part in a `replay`. -/
def Event.timeline (replay : Bool) (events : List (Nat × Event)) : List (Nat × Event) :=
  let alike (a b : Nat × Event) : Bool := a.1 = b.1 && (replay || (a.2.ad.lost && b.2.ad.lost))
  (events.splitBy alike).flatMap fun run =>
    (run.map (·.1)).zip (Event.listed (run.map (·.2)))

end Nearby
