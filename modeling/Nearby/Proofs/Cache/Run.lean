import Nearby.Cache

/-!
# Runs of the cache

Everything that changes a cache is an `Operation`, and a run is a list of operations, each with the
reading of the clock it is done at. Nothing is assumed about these readings.
-/

namespace Nearby.Cache

/-- Something that is done to a cache. -/
inductive Operation
  | fetched (now : Timestamp) (stamp : Stamp) (peer : RadioId) (ads : List Advertisement)
  | fetchFailed (peer : RadioId)
  | haveSeen (now : Timestamp) (stamp : Stamp) (peer : RadioId)
  | sweep (now : Timestamp)
  | subscribe (wanted : String) (handler : Handler)
  | unsubscribe (handler : Handler)
  | clear

namespace Operation

/-- The cache after an operation. A refused subscription leaves it as it is. -/
def after (c : Cache) : Operation → Cache
  | fetched now stamp peer ads => (c.fetched now stamp peer ads).cache
  | fetchFailed peer => (c.fetchFailed peer).cache
  | haveSeen now stamp peer => (c.haveSeen now stamp peer).cache
  | sweep now => (c.sweep now).cache
  | subscribe wanted handler =>
    match c.subscribe wanted handler with
    | .ok (c, _) => c
    | .error _ => c
  | unsubscribe handler => (c.unsubscribe handler).1
  | clear => c.clear

/-- What an operation tells the subscribers. -/
def events (c : Cache) : Operation → List Event
  | fetched now stamp peer ads => (c.fetched now stamp peer ads).events
  | fetchFailed peer => (c.fetchFailed peer).events
  | haveSeen now stamp peer => (c.haveSeen now stamp peer).events
  | sweep now => (c.sweep now).events
  | subscribe wanted handler =>
    match c.subscribe wanted handler with
    | .ok (_, events) => events
    | .error _ => []
  | unsubscribe _ => []
  | clear => []

end Operation

/-- The cache after a list of operations. -/
def run (c : Cache) (ops : List Operation) : Cache := ops.foldl Operation.after c

theorem run_append (c : Cache) (a b : List Operation) : c.run (a ++ b) = (c.run a).run b :=
  List.foldl_append

/-- **A property that every operation keeps** holds after every run. -/
theorem run_induction {P : Cache → Prop} (hstep : ∀ c (op : Operation), P c → P (op.after c)) {c : Cache}
    (hc : P c) (ops : List Operation) : P (c.run ops) := by
  induction ops generalizing c with
  | nil => exact hc
  | cons op ops ih => exact ih (hstep c op hc)

end Nearby.Cache
