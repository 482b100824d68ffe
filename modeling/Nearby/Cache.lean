import Nearby.Advertisement
import Nearby.Clock
import Nearby.RadioId
import Nearby.Stamp

/-!
# The cache of peer advertisements

The cache holds what was last fetched from each peer, filed under the stamp the peer broadcast, with
an index from the peer's radio identifier to the stamp. Subscribers are told of every change: an
advertisement that is new, and, with `lost` set, one that is gone.

An operation works in two steps that do not look at each other's data. It changes entries and index
and lists the `changes`, in order, with losses before additions; then `Cache.announce` hands each
change to the subscribers whose filter it passes, in the order in which they subscribed. So who
listens has no influence on what the cache holds.

Where a walk over the entries shows in the result, it goes by ascending stamp.
-/

namespace Nearby

/-- Identifies a subscriber. -/
structure Handler where
  name : String
  deriving DecidableEq, Repr, Inhabited

/-- A subscriber and the interface name it wants; the empty name wants every advertisement. -/
structure Subscription where
  wanted : String
  handler : Handler
  deriving DecidableEq, Repr

/-- A subscriber is told of an advertisement. -/
structure Event where
  handler : Handler
  ad : Advertisement
  deriving DecidableEq, Inhabited

namespace Cache

/-- How long a peer may stay unseen before its advertisements count as lost. -/
structure Config where
  freshnessWindow : Duration
  deriving DecidableEq, Repr, Inhabited

/-- A peer is believed for ninety seconds. -/
def Config.default : Config := ⟨.ofSeconds 90⟩

/-- The time between two sweeps: half the freshness window. -/
def Config.sweepPeriod (config : Config) : Duration := config.freshnessWindow.half

/-- What was fetched from a peer under one stamp. -/
structure Entry where
  peer : RadioId
  ads : List Advertisement
  lastSeen : Timestamp
  deriving DecidableEq

/-- How much the cache holds. -/
structure Stats where
  peers : Nat
  advertisements : Nat
  subscriptions : Nat
  deriving DecidableEq, Repr, Inhabited

/-- The numbers of advertisements a fetch added and removed. -/
structure Delta where
  added : Nat
  removed : Nat
  deriving DecidableEq, Repr

end Cache

/-- The cache. -/
structure Cache where
  config : Cache.Config
  entries : Table Stamp Cache.Entry
  /-- The stamp under which a peer's entry is filed. -/
  byPeer : Table RadioId Stamp
  /-- The subscribers, in the order in which they came. -/
  subscriptions : List Subscription
  deriving DecidableEq

namespace Cache

/-- The cache without entries and subscribers. -/
def new (config : Config) : Cache := ⟨config, ∅, ∅, []⟩

/-- A cache after an operation, with the changes to its advertisements, in order, and a result. -/
structure Update (α : Type) where
  cache : Cache
  changes : List Advertisement
  value : α

/-- The events that tell the subscribers of a list of changes: change by change, and for each change
in the order of the subscriptions. -/
def announce (subscriptions : List Subscription) (changes : List Advertisement) : List Event :=
  changes.flatMap fun ad =>
    (subscriptions.filter fun s => ad.isWanted s.wanted).map fun s => ⟨s.handler, ad⟩

/-- The events an operation causes. -/
def Update.events {α : Type} (u : Update α) : List Event :=
  announce u.cache.subscriptions u.changes

/-! ### Reading -/

/-- Every cached advertisement. -/
def advertisements (c : Cache) : List Advertisement := c.entries.values.flatMap Entry.ads

/-- The number of peers with an entry. -/
def peerCount (c : Cache) : Nat := c.entries.size

/-- How much the cache holds. -/
def stats (c : Cache) : Stats :=
  ⟨c.peerCount, (c.entries.values.flatMap (·.ads)).length, c.subscriptions.length⟩

/-! ### Entries and index -/

/-- Takes out the entry under a stamp, and the index of its peer if it points there. -/
def takeEntry (c : Cache) (stamp : Stamp) : Option Entry × Cache :=
  match c.entries.get? stamp with
  | none => (none, c)
  | some e =>
    (some e, { c with
      entries := c.entries.erase stamp
      byPeer := if c.byPeer.get? e.peer = some stamp then c.byPeer.erase e.peer else c.byPeer })

/-- Takes out the entry of a peer, as the index has it. -/
def takePeer (c : Cache) (peer : RadioId) : Option Entry × Cache :=
  match c.byPeer.get? peer with
  | none => (none, c)
  | some stamp => c.takeEntry stamp

/-- The advertisements of an entry that may be missing. -/
def adsOf (entry : Option Entry) : List Advertisement := (entry.map Entry.ads).getD []

/-! ### Fetches -/

/-- The first advertisement of each key. -/
def firstOfEachKey : List Advertisement → List Advertisement
  | [] => []
  | ad :: rest => ad :: (firstOfEachKey rest).filter fun other => other.key != ad.key

/-- The advertisements that are gone when `fetched` takes the stead of `previous`, each once. -/
def losses (previous fetched : List Advertisement) : List Advertisement :=
  (firstOfEachKey previous).filter fun ad => !fetched.any fun other => other.key == ad.key

/-- The advertisements that are new when `fetched` takes the stead of `previous`. -/
def additions (previous fetched : List Advertisement) : List Advertisement :=
  fetched.filter fun ad => !previous.any fun other => other.key == ad.key

/-- Files what was fetched from a peer under a stamp. It takes the stead of what was known of the
peer, and of what was filed under the stamp: that is the same device under an earlier address. -/
def fetched (c : Cache) (now : Timestamp) (stamp : Stamp) (peer : RadioId)
    (ads : List Advertisement) : Update Delta :=
  let (known, c) := c.takePeer peer
  let (filed, c) := c.takeEntry stamp
  let previous := adsOf known ++ adsOf filed
  let lost := losses previous ads
  let found := additions previous ads
  { cache := { c with
      entries := c.entries.insert stamp ⟨peer, ads, now⟩
      byPeer := c.byPeer.insert peer stamp }
    changes := lost.map Advertisement.asLost ++ found
    value := ⟨found.length, lost.length⟩ }

/-- A fetch that failed leaves the cache as it is. -/
def fetchFailed (c : Cache) (_peer : RadioId) : Update Unit := ⟨c, [], ()⟩

/-! ### Sightings -/

/-- Files an entry under a peer's new address. What the address held under another stamp is
superseded, and its advertisements are lost. -/
def rekey (c : Cache) (stamp : Stamp) (old peer : RadioId) : Update Unit :=
  let byPeer := if c.byPeer.get? old = some stamp then c.byPeer.erase old else c.byPeer
  let superseded := (byPeer.get? peer).filter fun stale => stale ≠ stamp
  let byPeer := byPeer.insert peer stamp
  match superseded with
  | none => ⟨{ c with byPeer }, [], ()⟩
  | some stale =>
    ⟨{ c with byPeer, entries := c.entries.erase stale },
      (adsOf (c.entries.get? stale)).map Advertisement.asLost, ()⟩

/-- Tells whether the advertisements under a stamp are cached. If so, the entry counts as seen now,
and is filed under the address it was seen at. -/
def haveSeen (c : Cache) (now : Timestamp) (stamp : Stamp) (peer : RadioId) : Update Bool :=
  match c.entries.get? stamp with
  | none => ⟨c, [], false⟩
  | some e =>
    let c := { c with entries := c.entries.insert stamp ⟨peer, e.ads, now⟩ }
    if e.peer = peer then ⟨c, [], true⟩
    else
      let u := c.rekey stamp e.peer peer
      ⟨u.cache, u.changes, true⟩

/-! ### Freshness -/

/-- The freshness window in milliseconds of the 64-bit clock. A window that is longer than the clock
can count wraps around. -/
def windowMillis (c : Cache) : UInt64 := UInt64.ofNat c.config.freshnessWindow.toMillis

/-- True for an entry that was not seen within the freshness window. -/
def isStale (c : Cache) (now : Timestamp) (e : Entry) : Bool := c.windowMillis < now.since e.lastSeen

/-- The stamps of the stale entries. -/
def staleStamps (c : Cache) (now : Timestamp) : List Stamp :=
  (c.entries.filter fun _ e => c.isStale now e).keys

/-- Takes out the entries under a list of stamps; their advertisements are lost. -/
def evict (c : Cache) : List Stamp → Update Unit
  | [] => ⟨c, [], ()⟩
  | stamp :: rest =>
    let (entry, c) := c.takeEntry stamp
    let u := c.evict rest
    ⟨u.cache, (adsOf entry).map Advertisement.asLost ++ u.changes, ()⟩

/-- Evicts every stale entry and gives their number. -/
def sweep (c : Cache) (now : Timestamp) : Update Nat :=
  let stale := c.staleStamps now
  let u := c.evict stale
  ⟨u.cache, u.changes, stale.length⟩

/-- Drops every entry and tells nobody. -/
def clear (c : Cache) : Cache := { c with entries := ∅, byPeer := ∅ }

/-! ### Subscriptions -/

/-- Why a subscription is refused. -/
inductive SubscribeError
  /-- The handler is subscribed already. -/
  | duplicate
  deriving DecidableEq, Repr

/-- The fault in words. -/
def SubscribeError.message : SubscribeError → String
  | .duplicate => "scan handler is already subscribed"

/-- True if the handler is subscribed. -/
def isSubscribed (c : Cache) (handler : Handler) : Bool :=
  c.subscriptions.any fun s => s.handler == handler

/-- The events that tell a new subscriber of the cached advertisements it wants. -/
def replay (c : Cache) (wanted : String) (handler : Handler) : List Event :=
  (c.advertisements.filter fun ad => ad.isWanted wanted).map fun ad => ⟨handler, ad⟩

/-- Adds a subscriber behind the others and replays the cached advertisements to it. -/
def subscribe (c : Cache) (wanted : String) (handler : Handler) :
    Except SubscribeError (Cache × List Event) :=
  if c.isSubscribed handler then .error .duplicate
  else
    .ok ({ c with subscriptions := c.subscriptions ++ [⟨wanted, handler⟩] },
      c.replay wanted handler)

/-- Takes a subscriber out, and tells whether there was one. -/
def unsubscribe (c : Cache) (handler : Handler) : Cache × Bool :=
  ({ c with subscriptions := c.subscriptions.filter fun s => s.handler != handler },
    c.isSubscribed handler)

end Cache

end Nearby
