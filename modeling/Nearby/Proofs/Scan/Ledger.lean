import Nearby.Proofs.Scan.Recording

/-!
# A run with its ledger

A `Ledger` is a system with what went on record of its pipeline (`Pipeline.records`) and of its cache:
the entries that came and went without the driver. The roster of the pipeline follows the ledger
(`Ledger.IsOrderly`), and so between two messages the counters add up: every fetch that was started
is over or in flight, and every sighting that was counted was known, merged, launched, sent away by a
stop, or waits.
-/

namespace Nearby.Scan

/-- A system, and what went on record of it, oldest first. -/
structure Ledger where
  system : System
  log : List Record

namespace Ledger

/-- The pipeline of the system. -/
def pipeline (l : Ledger) : Pipeline := l.system.pipeline

/-- The ledger before anyone subscribes. -/
def initial (cache : Cache) : Ledger := ⟨.initial cache, []⟩

/-- What goes on record of a happening. -/
def entries (config : Config) (s : System) : Happening → List Record
  | .moves now move =>
    s.pipeline.records s.cache move (s.pipeline.move config now s.cache move)
  | .caches cache =>
    (lostStamps s.cache cache).map .gone ++ (lostStamps cache s.cache).map .planted
  | .turns .. => []
  | .loses _ => []

/-- What comes of a happening. -/
def after (config : Config) (l : Ledger) (happening : Happening) : Ledger :=
  ⟨l.system.after config happening, l.log ++ entries config l.system happening⟩

/-- What comes of a list of happenings. -/
def run (config : Config) (l : Ledger) (happenings : List Happening) : Ledger :=
  happenings.foldl (after config) l

/-- A ledger does not bear on what happens. -/
theorem system_run (config : Config) (l : Ledger) (happenings : List Happening) :
    (l.run config happenings).system = l.system.run config happenings := by
  induction happenings generalizing l with
  | nil => rfl
  | cons x rest ih => exact ih (l.after config x)

/-- The invariant of a run: its system is orderly, and the roster follows the ledger. -/
structure IsOrderly (config : Config) (l : Ledger) : Prop where
  system : l.system.IsOrderly config
  follows : Roster.initial.Follows l.log l.pipeline.roster

variable {config : Config}

theorem isOrderly_initial (cache : Cache) : (initial cache).IsOrderly config where
  system := System.isOrderly_initial cache
  follows := .nil

/-- What becomes of the cache does not concern the roster. -/
theorem follows_planted (r : Roster) (stamps : List Stamp) :
    r.Follows (stamps.map .planted) r := by
  induction stamps with
  | nil => exact .nil
  | cons stamp rest ih => exact (Roster.Takes.planted stamp).follows.trans ih

/-- What a happening does to the roster is on record. -/
theorem follows_entries {s : System} (h : s.IsOrderly config) (happening : Happening) :
    s.pipeline.roster.Follows (entries config s happening)
      (s.after config happening).pipeline.roster := by
  cases happening with
  | moves now move => exact Pipeline.follows_move h.coherent h.consistent now s.cache move
  | caches cache => exact (Roster.follows_gone _ _).trans (follows_planted _ _)
  | turns link connected => exact .nil
  | loses link => exact .nil

/-- Whatever happens leaves a ledger orderly. -/
theorem IsOrderly.after {l : Ledger} (h : l.IsOrderly config) {happening : Happening}
    (hgenuine : happening.IsGenuine) : (l.after config happening).IsOrderly config where
  system := h.system.after hgenuine
  follows := h.follows.trans (follows_entries h.system happening)

/-- **What a run does to the roster is on record.** -/
theorem follows_run {r : Roster} {l : Ledger} (hl : l.system.IsOrderly config)
    (h : r.Follows l.log l.pipeline.roster) {happenings : List Happening}
    (hgenuine : ∀ x ∈ happenings, x.IsGenuine) :
    r.Follows (l.run config happenings).log (l.run config happenings).pipeline.roster := by
  induction happenings generalizing l with
  | nil => exact h
  | cons x rest ih =>
    obtain ⟨hx, hrest⟩ := List.forall_mem_cons.mp hgenuine
    exact ih (l := l.after config x) (hl.after hx) (h.trans (follows_entries hl x)) hrest

theorem IsOrderly.run {l : Ledger} (h : l.IsOrderly config) {happenings : List Happening}
    (hgenuine : ∀ x ∈ happenings, x.IsGenuine) : (l.run config happenings).IsOrderly config where
  system := by
    rw [system_run]
    exact h.system.run hgenuine
  follows := follows_run h.system h.follows hgenuine

/-! ## Accounting -/

open Roster in
/-- The counters add up, and agree with the ledger. -/
structure Balances (l : Ledger) : Prop where
  /-- A fetch that was started is over or in flight. -/
  fetches : l.pipeline.counters.fetchesStarted =
    l.pipeline.counters.fetchesSucceeded + l.pipeline.counters.fetchesFailed +
      l.pipeline.counters.fetchesCancelled + (if l.pipeline.inFlight.isSome then 1 else 0)
  late : l.pipeline.counters.fetchesTimedOut ≤ l.pipeline.counters.fetchesFailed
  /-- A sighting that was counted was known, merged, launched, sent away by a stop, or waits. -/
  sightings : l.pipeline.counters.sightings =
    l.pipeline.counters.sightingsKnown + l.pipeline.counters.sightingsDeduped +
      l.pipeline.counters.fetchesStarted + l.pipeline.queue.length +
      (l.log.flatMap Record.dropped).length
  /-- What is counted is what is on record. -/
  heard : l.pipeline.counters.sightings = l.log.countP Record.isHeard
  known : l.pipeline.counters.sightingsKnown = l.log.countP (Record.isMet .known)
  merged : l.pipeline.counters.sightingsDeduped = l.log.countP (Record.isMet .merged)
  launches : l.log.filterMap Record.launch? = List.range l.pipeline.counters.fetchesStarted
  /-- Since the last stop, those who joined the queue were launched in the order in which they joined
  it, and the others wait in that order. -/
  order : joined l.log = served l.log ++ l.pipeline.queue.map (·.peer)
  /-- Before each stop it was the same, and it sent those away who waited. -/
  stops : ∀ before dropped since, l.log = before ++ .stopped dropped :: since →
    joined before = served before ++ dropped.map (·.peer)

/-- **The books of a scan balance**: between two messages, whatever happened before and however the
radio answered. -/
theorem balances (config : Config) (cache : Cache) {happenings : List Happening}
    (hgenuine : ∀ x ∈ happenings, x.IsGenuine) :
    let l := (initial cache).run config happenings
    l.pipeline.control = .waiting ∨ l.pipeline.control = .exited → l.Balances := by
  intro l hbetween
  obtain ⟨-, hfollows⟩ : l.IsOrderly config := (isOrderly_initial cache).run hgenuine
  have hroster : l.pipeline.roster = l.pipeline.atRest := Pipeline.roster_of_waiting hbetween
  have htallies := hfollows.tallies
  rw [hroster] at htallies
  obtain ⟨sightings, known, deduped, launches, -, waiting, fetches, late⟩ := htallies
  refine ⟨?_, late, ?_, sightings, known, deduped, launches, ?_, ?_⟩
  · have hunsettled : l.pipeline.atRest.unsettled =
        if l.pipeline.inFlight.isSome then 1 else 0 := by
      rw [Roster.unsettled, Pipeline.atRest]
      cases l.pipeline.inFlight with
      | none => rfl
      | some g => rfl
    rw [hunsettled] at fetches
    exact fetches
  · -- each sighting that counts was known, merged or queued, and who joined the line has left it or
    -- waits
    rw [Roster.countP_isHeard, ← known, ← deduped, waiting] at sightings
    change l.pipeline.counters.sightings = l.pipeline.counters.sightingsKnown +
      l.pipeline.counters.sightingsDeduped + (l.pipeline.counters.fetchesStarted +
        (l.log.flatMap Record.dropped).length + l.pipeline.queue.length) at sightings
    omega
  · rw [hfollows.joined_eq rfl, hroster]
    rfl
  · intro before dropped since hlog
    rw [hlog] at hfollows
    exact hfollows.joined_eq_dropped rfl

/-- Three peers are met. The fetch from the first takes too long, and so does closing its link. The
second is fetched from when the subscriber leaves, and the third waits. -/
def turmoil : List Happening :=
  [.caches { Cache.new .default with subscriptions := [⟨"", ⟨"list"⟩⟩] },
    .moves ⟨0⟩ (.send (.sync 0)), .moves ⟨1⟩ .takeCommand, .moves ⟨2⟩ (.scanAnswered (.ok ())),
    .moves ⟨3⟩ (.hear ⟨⟨"aa"⟩, Stamp.payload ⟨7⟩⟩), .moves ⟨3⟩ (.hear ⟨⟨"bb"⟩, Stamp.payload ⟨8⟩⟩),
    .moves ⟨3⟩ (.hear ⟨⟨"cc"⟩, Stamp.payload ⟨9⟩⟩), .moves ⟨4⟩ .takeSighting,
    .moves ⟨5⟩ (.scanAnswered (.ok ())), .moves ⟨6⟩ .takeSighting, .moves ⟨6⟩ .takeSighting,
    .moves ⟨7⟩ (.fetchExpires 0), .moves ⟨8⟩ .takeCommand, .moves ⟨9⟩ (.closed .timedOut),
    .caches (.new .default), .moves ⟨10⟩ (.send (.sync 1)), .moves ⟨11⟩ .takeCommand,
    .moves ⟨12⟩ (.closed (.answered (.ok ())))]

theorem balances_turmoil :
    let l := (initial (.new .default)).run .default turmoil
    l.pipeline.control = .waiting ∧ l.Balances ∧ l.pipeline.counters = ⟨3, 0, 0, 2, 0, 1, 1, 1⟩ ∧
      l.log.flatMap Record.dropped = [⟨⟨"cc"⟩, ⟨9⟩⟩] := by
  intro l
  have hgenuine : ∀ x ∈ turmoil, x.IsGenuine := by
    simp [turmoil, Happening.IsGenuine, Move.IsGenuine]
  have hcontrol : l.pipeline.control = .waiting := by rfl
  exact ⟨hcontrol, balances .default (.new .default) hgenuine (.inl hcontrol), by decide +kernel,
    by decide +kernel⟩

end Ledger

end Nearby.Scan
