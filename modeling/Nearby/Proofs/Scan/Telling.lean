import Nearby.Proofs.Scan.Consistent

/-!
# What the cache is told

The cache learns of a sighting, and of the outcome of a fetch. The outcome is told as soon as the
driver takes it from the mailbox, unless a link has to be closed first (`Pipeline.TakesOutcome`).
Whatever else the driver does leaves the cache alone (`Step.Leaves`).

`Pipeline.tells?` says of each move whether it tells the cache an outcome, and of which peer.
-/

namespace Nearby.Scan

/-- The cache once it was told what a fetch came to. -/
def cacheTold (cache : Cache) (now : Timestamp) (pending : Pending) : Outcome → Cache
  | .ok readings =>
    (cache.fetched now pending.stamp pending.peer (decodeReadings pending.peer readings).1).cache
  | .error _ => (cache.fetchFailed pending.peer).cache

/-- How often the cache was told what a fetch came to. -/
def Counters.told (c : Counters) : Nat := c.fetchesSucceeded + c.fetchesFailed

namespace Pipeline

/-- The command that the driver takes in a move. -/
def takes? (p : Pipeline) : Move → Option Command
  | .takeCommand => p.taken?
  | _ => none

/-- What the driver tells the cache in a move: the outcome of a fetch without link as soon as it
takes it, any other once the link is closed. -/
def tells? (p : Pipeline) : Move → Option (Pending × Outcome)
  | .takeCommand =>
    match p.taken?, p.inFlight with
    | some (.report _ epoch (.finished outcome)), some g =>
      if epoch ≠ p.epoch ∨ g.fetch ∈ p.links ∨ timedOut outcome = true then none
      else some (g.pending, outcome)
    | _, _ => none
  | .closed _ =>
    match p.control with
    | .closing _ (.settle pending outcome) => some (pending, outcome)
    | _ => none
  | _ => none

end Pipeline

/-! ## The cache -/

/-- A step leaves this cache, and it was told this often what a fetch came to. -/
structure Step.Leaves (s : Step) (cache : Cache) (told : Nat) : Prop where
  cache : s.cache = cache
  told : s.pipeline.counters.told = told

/-- The effects of a step do not bear on the cache. -/
theorem Step.Leaves.after {s : Step} {cache : Cache} {told : Nat} (h : s.Leaves cache told)
    (effects : List Effect) : (s.after effects).Leaves cache told := ⟨h.cache, h.told⟩

namespace Pipeline

variable {config : Config} {p : Pipeline}

/-- A halt does not bear on the cache, and tells it nothing. -/
theorem leaves_finishHalt (p : Pipeline) (halt : Halt) (cache : Cache) :
    (p.finishHalt halt cache).Leaves cache p.counters.told := by
  cases halt with
  | sync ticket => exact ⟨rfl, rfl⟩
  | shutdown ticket => exact ⟨rfl, rfl⟩

/-- Nor does what follows on a pause. -/
theorem leaves_afterPause (p : Pipeline) (next : AfterPause) (cache : Cache) :
    (p.afterPause next cache).Leaves cache p.counters.told := by
  cases next with
  | halt halt => exact leaves_finishHalt { p with phase := .idle } halt cache
  | launch pending => exact ⟨rfl, rfl⟩

/-- Nor does the pause. -/
theorem leaves_pause (p : Pipeline) (next : AfterPause) (cache : Cache) :
    (p.pause next cache).Leaves cache p.counters.told := by
  rw [pause]
  split
  · exact ⟨rfl, rfl⟩
  · exact p.leaves_afterPause next cache

/-- Nor does it to scan again. -/
theorem leaves_resume (p : Pipeline) (config : Config) (ticket : Option Ticket) (cache : Cache) :
    (p.resume config ticket cache).Leaves cache p.counters.told := by
  rw [resume]
  split
  · exact ⟨rfl, rfl⟩
  · exact ⟨rfl, rfl⟩

/-- Nor does it to turn to the next in the queue. -/
theorem leaves_advance (p : Pipeline) (config : Config) (cache : Cache) :
    (p.advance config cache).Leaves cache p.counters.told := by
  rw [advance]
  split
  · exact ⟨rfl, rfl⟩
  split
  · exact leaves_resume { p with phase := .scanning } config none cache
  · rename_i pending queue hqueue
    dsimp only
    split
    · exact leaves_pause { p with queue } (.launch pending) cache
    · exact ⟨rfl, rfl⟩

/-- Nor does the first subscriber. -/
theorem leaves_activate (p : Pipeline) (config : Config) (ticket : Ticket) (cache : Cache) :
    (p.activate config ticket cache).Leaves cache p.counters.told := by
  rw [activate]
  split
  · exact ⟨rfl, rfl⟩
  · exact leaves_resume { p with active := true, phase := .scanning } config (some ticket) cache

/-- Nor does a stop, which drops the outcome of the fetch in flight. -/
theorem leaves_deactivate (p : Pipeline) (halt : Halt) (cache : Cache) :
    (p.deactivate halt cache).Leaves cache p.counters.told := by
  rw [deactivate]
  split
  · exact p.leaves_finishHalt halt cache
  rcases hfetch : p.inFlight with _ | fetch
  · have hpause := p.stopped.leaves_pause (.halt halt) cache
    rwa [stopped, hfetch] at hpause
  · dsimp only
    rw [close_eq (.inr rfl)]
    exact ⟨rfl, rfl⟩

/-- Taking note of an outcome is telling the cache, once. -/
theorem leaves_settle (p : Pipeline) (config : Config) (now : Timestamp) (pending : Pending)
    (outcome : Outcome) (cache : Cache) :
    (p.settle config now pending outcome cache).Leaves (cacheTold cache now pending outcome)
      (p.counters.told + 1) := by
  cases outcome with
  | ok readings =>
    have hadvance := leaves_advance { p with
      counters.fetchesSucceeded := p.counters.fetchesSucceeded + 1 } config
      (cacheTold cache now pending (.ok readings))
    refine Step.Leaves.after ⟨hadvance.cache, hadvance.told.trans ?_⟩ _
    exact Nat.add_right_comm ..
  | error e =>
    have hadvance := fun late => leaves_advance { p with
      counters.fetchesFailed := p.counters.fetchesFailed + 1
      counters.fetchesTimedOut := p.counters.fetchesTimedOut + late } config
      (cacheTold cache now pending (.error e))
    exact Step.Leaves.after ⟨(hadvance _).cache, (hadvance _).told⟩ _

/-- A sighting may have an entry count as seen, and that is all the cache learns of it. -/
theorem leaves_onSighting (p : Pipeline) (config : Config) (now : Timestamp) (sighting : Sighting)
    (cache : Cache) :
    (p.onSighting config now sighting cache).Leaves cache p.counters.told ∨
      ∃ stamp, sighting.stamp? = some stamp ∧
        (p.onSighting config now sighting cache).Leaves
          (cache.haveSeen now stamp sighting.peer).cache p.counters.told := by
  rw [onSighting]
  split
  · exact .inl ⟨rfl, rfl⟩
  rcases hstamp : sighting.stamp? with _ | stamp
  · exact .inl ⟨rfl, rfl⟩
  refine .inr ⟨stamp, rfl, Step.Leaves.after ?_ _⟩
  split
  · exact ⟨rfl, rfl⟩
  split
  · exact ⟨rfl, rfl⟩
  split
  · exact ⟨rfl, rfl⟩
  · have hadvance := fun counters => leaves_advance { p with
      counters, queue := p.queue ++ [⟨sighting.peer, stamp⟩] } config
      (cache.haveSeen now stamp sighting.peer).cache
    exact ⟨(hadvance _).cache, (hadvance _).told⟩

/-! ## Reports -/

/-- **A report that counts is from the fetch in flight.** -/
theorem Tracks.sender (h : p.Tracks) {id : FetchId} {said : Report}
    (hmem : .report id p.epoch said ∈ p.commands) : ∃ g, p.inFlight = some g ∧ g.fetch = id := by
  have hreports : (id, said) ∈ p.reports :=
    List.mem_filterMap.mpr ⟨_, hmem, Command.reportOf?_eq_some_iff.mpr rfl⟩
  rcases hg : p.inFlight with _ | g
  · rw [(h.idle hg).2] at hreports
    cases hreports
  refine ⟨g, rfl, ?_⟩
  cases h.busy g hg with
  | underway f hfetches hpeer hepoch hphases => exact (hphases _ hreports).1.symm
  | ended phases outcome hfetches hover hphases =>
    rw [hover] at hreports
    rcases List.mem_append.mp hreports with hphase | hlast
    · exact (hphases _ hphase).1.symm
    · cases List.mem_singleton.mp hlast
      rfl

/-- A command is taken out of the mailbox. -/
theorem mem_commands_of_taken {command : Command} (h : p.taken? = some command) :
    command ∈ p.commands := by
  rw [(of_taken h).2]
  exact List.mem_cons_self

/-- A report that the driver takes is the outcome of the fetch in flight, or the driver deals with it
in passing. -/
theorem report_cases (h : p.Tracks) {id : FetchId} {epoch : Nat} {said : Report}
    (htaken : p.taken? = some (.report id epoch said)) :
    (∃ g outcome, epoch = p.epoch ∧ said = .finished outcome ∧ p.inFlight = some g ∧ g.fetch = id) ∨
      ∀ outcome, epoch = p.epoch → said ≠ .finished outcome := by
  by_cases hover : ∃ outcome, epoch = p.epoch ∧ said = .finished outcome
  · obtain ⟨outcome, rfl, rfl⟩ := hover
    obtain ⟨g, hg, hid⟩ := h.sender (mem_commands_of_taken htaken)
    exact .inl ⟨g, outcome, rfl, rfl, hg, hid⟩
  · exact .inr fun outcome hepoch hsaid => hover ⟨outcome, hepoch, hsaid⟩

/-- What comes of the outcome of the fetch in flight when the driver takes it: the cache is told, or
the link of the fetch is closed first. -/
inductive TakesOutcome (p : Pipeline) (config : Config) (now : Timestamp) (cache : Cache)
    (g : InFlight) (outcome : Outcome) : Prop
  | closes (tells : p.tells? .takeCommand = none)
    (step : p.move config now cache .takeCommand =
      ⟨closing { p with commands := p.commands.tail, inFlight := none } g
        (.settle g.pending outcome), cache, [.call .driver (p.closeCall g)]⟩)
  | settles (tells : p.tells? .takeCommand = some (g.pending, outcome))
    (step : p.move config now cache .takeCommand =
      settle { p with commands := p.commands.tail, inFlight := none } config now g.pending outcome
        cache)

/-- The outcome of the fetch in flight is told when it is taken, unless there is a link to be closed
or an attempt to be taken back. -/
theorem tells?_of_finished {g : InFlight} {id : FetchId} {outcome : Outcome}
    (hg : p.inFlight = some g)
    (htaken : p.taken? = some (.report id p.epoch (.finished outcome))) :
    p.tells? .takeCommand =
      if g.fetch ∈ p.links ∨ timedOut outcome = true then none else some (g.pending, outcome) := by
  rw [tells?, htaken, hg]
  simp

/-- The outcome of the fetch in flight is told at once, or as soon as its link is closed. -/
theorem takesOutcome {g : InFlight} {id : FetchId} {outcome : Outcome} (hg : p.inFlight = some g)
    (htaken : p.taken? = some (.report id p.epoch (.finished outcome))) (config : Config)
    (now : Timestamp) (cache : Cache) : p.TakesOutcome config now cache g outcome := by
  have hstep := move_takeCommand htaken config now cache
  rw [onCommand, onReport, if_neg (fun hne => hne rfl)] at hstep
  rw [fetchFinished_of_some (p := { p with commands := p.commands.tail }) hg] at hstep
  have htells := tells?_of_finished hg htaken
  by_cases hclose : g.fetch ∈ p.links ∨ timedOut outcome = true
  · rw [if_pos hclose] at htells
    rw [close_eq (p := { p with commands := p.commands.tail, inFlight := none }) hclose] at hstep
    exact .closes htells hstep
  · rw [if_neg hclose] at htells
    obtain ⟨hlink, htime⟩ := not_or.mp hclose
    have htime : timedOut outcome = false := by simpa using htime
    rw [htime, close_eq_otherwise
      (p := { p with commands := p.commands.tail, inFlight := none }) hlink] at hstep
    exact .settles htells hstep

/-- No other command has the driver tell the cache anything. -/
theorem tells?_takeCommand_eq_none {command : Command} (htaken : p.taken? = some command)
    (hother : ∀ id outcome, command ≠ .report id p.epoch (.finished outcome)) :
    p.tells? .takeCommand = none := by
  rw [tells?, htaken]
  split
  · rename_i id epoch outcome g hcommand hg
    cases hcommand
    refine if_pos (.inl fun heq => ?_)
    exact hother id outcome (by rw [heq])
  · rfl

/-- A fetch does not tell the cache anything by itself. -/
theorem silent_of_isTurn (p : Pipeline) {move : Move} (hmove : move.isTurn = true) :
    p.takes? move = none ∧ p.tells? move = none := by
  cases move with
  | fetchBegins | fetchAnswered | fetchExpires => exact ⟨rfl, rfl⟩
  | send | hear | takeCommand | takeSighting | scanAnswered | closed => cases hmove

/-! ## What a move leaves of the cache -/

/-- Other reports than outcomes of the present epoch do not bear on the cache. -/
theorem leaves_onReport {epoch : Nat} {said : Report}
    (hother : ∀ outcome, epoch = p.epoch → said ≠ .finished outcome) (now : Timestamp)
    (cache : Cache) : (p.onReport config now epoch said cache).Leaves cache p.counters.told := by
  rw [onReport.eq_def]
  by_cases hepoch : epoch = p.epoch
  · rw [if_neg (fun hne => hne hepoch)]
    cases said with
    | phase phase =>
      dsimp only
      split
      · exact ⟨rfl, rfl⟩
      · exact ⟨rfl, rfl⟩
    | finished outcome => exact absurd rfl (hother outcome hepoch)
  · rw [if_pos hepoch]
    exact ⟨rfl, rfl⟩

/-- The answers of the radio about scanning do not bear on the cache. -/
theorem leaves_onScanAnswered (p : Pipeline) (result : Except RadioError Unit) (cache : Cache) :
    (p.onScanAnswered result cache).Leaves cache p.counters.told := by
  rw [onScanAnswered]
  split
  · cases result with
    | ok _ => exact ⟨rfl, rfl⟩
    | error e => exact ⟨rfl, rfl⟩
  · rename_i next hcontrol
    cases result with
    | ok _ => exact p.leaves_afterPause next cache
    | error e => exact (p.leaves_afterPause next cache).after _
  · exact ⟨rfl, rfl⟩

/-- The turn of a fetch does not bear on the cache. -/
theorem leaves_applyTurn (p : Pipeline) (id : FetchId) (epoch : Nat) (turn : Fetch.Turn)
    (cache : Cache) : (p.applyTurn id epoch turn cache).Leaves cache p.counters.told := by
  rw [applyTurn]
  split
  · exact ⟨rfl, rfl⟩
  · exact ⟨rfl, rfl⟩

/-- **What is said to be told is told**, and nothing else. -/
theorem leaves_move_of_tells {move : Move} {pending : Pending} {outcome : Outcome}
    (h : p.tells? move = some (pending, outcome)) (config : Config) (now : Timestamp)
    (cache : Cache) :
    (p.move config now cache move).Leaves (cacheTold cache now pending outcome)
      (p.counters.told + 1) := by
  cases move with
  | takeCommand =>
    have htells := h
    rw [tells?] at htells
    split at htells
    · rename_i id epoch outcome' g htaken hg
      split at htells
      · cases htells
      · rename_i hnot
        obtain ⟨hepoch, -⟩ := not_or.mp hnot
        rw [not_not] at hepoch
        subst hepoch
        cases takesOutcome hg htaken config now cache with
        | closes tells step => cases h.symm.trans tells
        | settles tells step =>
          cases h.symm.trans tells
          rw [step]
          exact leaves_settle _ config now _ _ cache
    · cases htells
  | closed closing =>
    rw [tells?] at h
    split at h
    · rename_i peer pending' outcome' hcontrol
      cases h
      rw [Pipeline.move, onClosed, hcontrol]
      exact (p.leaves_settle config now pending outcome cache).after _
    · cases h
  | send | hear | takeSighting | scanAnswered | fetchBegins | fetchAnswered | fetchExpires => cases h

/-- **The cache is told nothing else**: at most it learns that a stamp was seen. -/
theorem leaves_move_of_silent (hp : p.Coherent) {move : Move} (h : p.tells? move = none)
    (config : Config) (now : Timestamp) (cache : Cache) :
    (p.move config now cache move).Leaves cache p.counters.told ∨
      ∃ stamp peer, move = .takeSighting ∧
        (p.move config now cache move).Leaves (cache.haveSeen now stamp peer).cache
          p.counters.told := by
  by_cases hmove : move.isTurn = true
  · rcases p.turn_cases config now cache hmove with hs | ⟨id, epoch, turn, hs, -⟩
    · rw [hs]
      exact .inl ⟨rfl, rfl⟩
    · rw [hs]
      exact .inl (p.leaves_applyTurn id epoch turn cache)
  cases move with
  | send command => exact .inl ⟨rfl, rfl⟩
  | hear sighting => exact .inl ⟨rfl, rfl⟩
  | takeCommand =>
    refine .inl ?_
    rcases htaken : p.taken? with _ | command
    · rw [move_takeCommand_of_none htaken now cache]
      exact ⟨rfl, rfl⟩
    have hs := move_takeCommand htaken config now cache
    let q := { p with commands := p.commands.tail }
    cases command with
    | sync ticket =>
      rw [hs, onCommand]
      split
      · exact q.leaves_deactivate (.sync ticket) cache
      · exact q.leaves_activate config ticket cache
    | shutdown ticket =>
      rw [hs]
      exact q.leaves_deactivate (.shutdown ticket) cache
    | report id epoch said =>
      -- the outcome of the fetch in flight is told now, unless a link is to be closed first
      rcases report_cases hp.tracks htaken with ⟨g, outcome, rfl, rfl, hg, -⟩ | hother
      · cases takesOutcome hg htaken config now cache with
        | closes tells step =>
          rw [step]
          exact ⟨rfl, rfl⟩
        | settles tells step => cases h.symm.trans tells
      · rw [hs]
        exact leaves_onReport (p := q) hother now cache
  | takeSighting =>
    rcases p.takeSighting_cases config now cache with
      hs | ⟨sighting, rest, hcontrol, hsightings, hs⟩
    · rw [hs]
      exact .inl ⟨rfl, rfl⟩
    · rw [hs]
      rcases leaves_onSighting { p with sightings := rest } config now sighting cache with
        hleaves | ⟨stamp, -, hleaves⟩
      · exact .inl hleaves
      · exact .inr ⟨stamp, sighting.peer, rfl, hleaves⟩
  | scanAnswered result => exact .inl (p.leaves_onScanAnswered result cache)
  | closed closing =>
    refine .inl ?_
    obtain ⟨-, hs⟩ | ⟨peer, halt, -, hs⟩ | ⟨peer, pending, outcome, hcontrol, -⟩ :=
      p.onClosed_cases config now closing cache
    · rw [Pipeline.move, hs]
      exact ⟨rfl, rfl⟩
    · have hpause := leaves_pause { p with
        -- the fetch counts as cancelled, which is nothing that was told
        counters.fetchesCancelled := p.counters.fetchesCancelled + 1 } (.halt halt) cache
      rw [Pipeline.move, hs]
      exact Step.Leaves.after ⟨hpause.cache, hpause.told⟩ _
    · rw [tells?, hcontrol] at h
      cases h
  | fetchBegins | fetchAnswered | fetchExpires => exact absurd rfl hmove

end Pipeline

end Nearby.Scan
