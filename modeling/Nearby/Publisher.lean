import Nearby.Advertisement.Content
import Nearby.Characteristics.Encode
import Nearby.Publisher.Reconcile

/-!
# Publishing

The publisher keeps the advertisements a device publishes, each as one service. Every change draws a
new stamp and a new generation, and hands the state the radio should be in to a driver. The driver
brings the radio in line with one state after the other (`Nearby.Publisher.Reconcile`); of states
that follow each other while it is busy, it only sees the last.

Whoever makes a change waits until the driver has applied a state of its generation or a later one.
-/

namespace Nearby

/-- A service that is published. -/
structure Published where
  adId : AdId
  characteristics : Characteristics
  deriving DecidableEq

/-- A desired state on its way to the radio. The radio is at the first of the tasks left. -/
structure Applying where
  desired : Desired
  tasks : List Task

/-- The publisher with its driver. -/
structure Publisher where
  published : Table Uuid Published
  /-- The stamp for what is published; none if nothing is. -/
  stamp : Option Stamp
  /-- Counts the changes. -/
  generation : Nat
  /-- The state handed to the driver last. -/
  desired : Desired
  /-- True if the driver has not taken up that state. -/
  unseen : Bool
  belief : Belief
  applying : Option Applying
  /-- The generation of the last state that was applied. -/
  applied : Nat

namespace Publisher

/-- Why an advertisement cannot be published. -/
inductive Error
  | encode (error : Characteristics.EncodeError)
  /-- Another service has an advertisement with this identifier. -/
  | duplicate (adId : AdId) (service : Uuid)
  deriving DecidableEq

/-- What the publisher tells about itself. -/
structure Status where
  published : Nat
  stamp : Option Stamp
  broadcasting : Bool
  failures : Nat
  deriving DecidableEq, Repr, Inhabited

/-- The status of a publisher that has not done anything. -/
def Status.initial : Status := ⟨0, none, false, 0⟩

/-- Nothing is published. -/
def initial : Publisher := ⟨∅, none, 0, .initial, false, .initial, none, 0⟩

/-- The status of a publisher. -/
def status (p : Publisher) : Status :=
  ⟨p.published.size, p.stamp, p.belief.broadcasting, p.belief.failures⟩

/-! ### Changes -/

/-- The first of the stamps drawn at random that is not the present one. -/
def freshStamp? (current : Option Stamp) (draws : List Stamp) : Option Stamp :=
  draws.find? fun stamp => some stamp ≠ current

/-- Changes what is published and hands the new state to the driver. Stamps are drawn until one
differs from the present one; there is no change if all the `draws` repeat it. -/
def republish (p : Publisher) (published : Table Uuid Published) (draws : List Stamp) :
    Option Publisher := do
  let stamp ← if published.isEmpty then pure none
    else (freshStamp? p.stamp draws).map some
  let generation := p.generation + 1
  pure { p with
    published, stamp, generation
    desired := ⟨generation, stamp, published.map fun _ service => service.characteristics⟩
    unseen := true }

/-- The advertisement as it is published: with a content hash, and not lost. -/
def prepare (ad : Advertisement) : Advertisement :=
  { ad with hash := if ad.hash.isZero then ad.contentHash else ad.hash, lost := false }

/-- Another service that carries an advertisement with the identifier. -/
def otherCarrier? (p : Publisher) (service : Uuid) (adId : AdId) : Option Uuid :=
  (p.published.filter fun id published => id ≠ service && published.adId = adId).keys.head?

/-- Publishes an advertisement as a service, in the stead of what the service carried. -/
def publish (p : Publisher) (service : Uuid) (ad : Advertisement) (draws : List Stamp) :
    Except Error (Option Publisher) :=
  let ad := prepare ad
  match Characteristics.encode ad with
  | .error e => .error (.encode e)
  | .ok characteristics =>
    match p.otherCarrier? service ad.id with
    | some other => .error (.duplicate ad.id other)
    | none => .ok (p.republish (p.published.insert service ⟨ad.id, characteristics⟩) draws)

/-- Withdraws a service that is published. -/
def unpublish (p : Publisher) (service : Uuid) (draws : List Stamp) : Option Publisher :=
  p.republish (p.published.erase service) draws

/-- Withdraws everything. -/
def clear (p : Publisher) : Option Publisher := p.republish ∅ []

/-! ### The driver -/

/-- What a move of the driver asks of the world, or tells it. -/
inductive Effect
  | call (call : Call)
  | warn (warning : Warning)

/-- Anything that can happen to the driver. -/
inductive Move
  /-- The driver takes up the state handed over last. -/
  | takeDesired
  /-- The radio answers the call of the present task. -/
  | answered (result : Except RadioError Unit)

/-- Turns to the tasks left, or takes note that the state is applied. -/
def continueWith (p : Publisher) (manufacturerId : UInt16) (desired : Desired) :
    List Task → Publisher × List Effect
  | [] => ({ p with applying := none, applied := desired.generation }, [])
  | task :: rest =>
    ({ p with applying := some ⟨desired, task :: rest⟩ }, [.call (task.call manufacturerId)])

/-- What comes of a move. A move that is not possible at present changes nothing. -/
def move (p : Publisher) (manufacturerId : UInt16) : Move → Publisher × List Effect
  | .takeDesired =>
    if p.applying.isSome || !p.unseen then (p, [])
    else
      let tasks := p.belief.plan p.desired
      { p with unseen := false, belief := p.belief.depart p.desired }.continueWith manufacturerId
        p.desired tasks
  | .answered result =>
    match p.applying with
    | some ⟨desired, task :: rest⟩ =>
      let warnings := match result with
        | .ok () => []
        | .error e => [Effect.warn (.publishing task.action e)]
      let (p, effects) := { p with belief := p.belief.settle task result }.continueWith
        manufacturerId desired rest
      (p, warnings ++ effects)
    | _ => (p, [])

end Publisher

end Nearby
