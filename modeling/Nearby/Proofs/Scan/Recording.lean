import Nearby.Proofs.Cache.Freshness
import Nearby.Proofs.Scan.Roster
import Nearby.Proofs.Scan.Telling

/-!
# What goes on record of a move

`Pipeline.roster` reads off a pipeline who waits and who is fetched from, whatever the driver happens
to be doing: a peer that was taken from the queue is in the line for as long as the driver waits for
scanning to stop, and its fetch is outstanding until its link is closed. `Pipeline.records` says what
of a move goes on record. That no move does more to the roster than its records allow is
`Pipeline.follows_move`.
-/

namespace Nearby.Scan

/-- The peer that the driver was about to launch when it stopped scanning. -/
def AfterPause.line : AfterPause → List Pending
  | .halt _ => []
  | .launch pending => [pending]

namespace Pipeline

/-- Those who wait. -/
def line (p : Pipeline) : List Pending :=
  match p.control with
  | .stopping next => next.line ++ p.queue
  | _ => p.queue

/-- The fetch whose outcome is still to be told. -/
def outstanding (p : Pipeline) : Option Pending :=
  match p.control with
  | .closing _ (.settle pending _) => some pending
  | _ => p.inFlight.map (·.pending)

/-- True while the link of a cancelled fetch is closed. -/
def cancelling (p : Pipeline) : Bool :=
  match p.control with
  | .closing _ (.halt _) => true
  | _ => false

/-- Who waits and who is fetched from. -/
def roster (p : Pipeline) : Roster :=
  ⟨p.line, p.outstanding, p.cancelling, p.counters, p.nextFetch, p.epoch⟩

/-- The roster as it is while the driver waits for messages. -/
def atRest (p : Pipeline) : Roster :=
  ⟨p.queue, p.inFlight.map (·.pending), false, p.counters, p.nextFetch, p.epoch⟩

variable {p : Pipeline}

/-- Between messages, and in the end, the roster is at rest. -/
theorem roster_of_waiting (h : p.control = .waiting ∨ p.control = .exited) :
    p.roster = p.atRest := by
  rcases h with h | h
  · rw [roster, line, outstanding, cancelling, h]
    rfl
  · rw [roster, line, outstanding, cancelling, h]
    rfl

/-- So it is while scanning starts. -/
theorem roster_of_starting {ticket : Option Ticket} (h : p.control = .starting ticket) :
    p.roster = p.atRest := by
  rw [roster, line, outstanding, cancelling, h]
  rfl

/-- While scanning stops for a fetch, its peer is still the first in line. -/
theorem roster_of_stopping {next : AfterPause} (h : p.control = .stopping next) :
    p.roster = { p.atRest with line := next.line ++ p.queue } := by
  rw [roster, line, outstanding, cancelling, h]
  rfl

/-! ## Records -/

/-- What becomes of a sighting. -/
def reception (p : Pipeline) (cache : Cache) (peer : RadioId) (stamp : Stamp) : Reception :=
  if p.active = false then .ignored
  else if cache.entries.contains stamp then .known
  else if peer ∈ p.atRest.peers then .merged
  else .queued

/-- The sighting that the driver takes in a move, if its stamp is well-formed. -/
def meeting? (p : Pipeline) (cache : Cache) : Move → Option Record
  | .takeSighting =>
    match p.control, p.sightings with
    | .waiting, sighting :: _ =>
      sighting.stamp?.map fun stamp =>
        .met sighting.peer stamp (p.reception cache sighting.peer stamp)
    | _, _ => none
  | _ => none

/-- True if a move ends a fetch that was cancelled. -/
def cancels (p : Pipeline) : Move → Bool
  | .closed _ => p.cancelling
  | _ => false

/-- What a move says of the end of a fetch. -/
def endings (p : Pipeline) (move : Move) : List Record :=
  ((p.tells? move).toList.map fun t => .told t.1 t.2) ++ if p.cancels move then [.cancelled] else []

/-- A stop, if there was one: each takes a number. -/
def stopRecords (p q : Pipeline) : List Record :=
  if q.epoch = p.epoch then [] else [.stopped p.queue]

/-- The fetch that was launched, if any: each takes a number. -/
def launchRecords (p q : Pipeline) : List Record :=
  if q.nextFetch = p.nextFetch then []
  else q.inFlight.toList.map fun g => .launched g.fetch g.pending

end Pipeline

/-- The stamps whose entries are in the first cache and not in the second. -/
def lostStamps (cache cache' : Cache) : List Stamp :=
  cache.entries.keys.filter fun stamp => !cache'.entries.contains stamp

/-- What goes on record of a move. -/
def Pipeline.records (p : Pipeline) (cache : Cache) (move : Move) (s : Step) : List Record :=
  (p.meeting? cache move).toList ++ (lostStamps cache s.cache).map .gone ++ p.endings move ++
    p.stopRecords s.pipeline ++ p.launchRecords s.pipeline

namespace Pipeline

variable {p q : Pipeline} {cache : Cache} {move : Move} {x : Record}

/-- A sighting that is handled goes on record. -/
theorem of_meeting? (h : p.meeting? cache move = some x) :
    ∃ peer stamp, x = .met peer stamp (p.reception cache peer stamp) := by
  cases move with
  | takeSighting =>
    rw [meeting?] at h
    split at h
    · obtain ⟨stamp, -, rfl⟩ := Option.map_eq_some_iff.mp h
      exact ⟨_, stamp, rfl⟩
    · cases h
  | send | hear | takeCommand | scanAnswered | closed => cases h
  | fetchBegins | fetchAnswered | fetchExpires => cases h

/-- The end of a fetch goes on record as an outcome or as cancelled. -/
theorem of_mem_endings (h : x ∈ p.endings move) :
    (∃ pending outcome, x = .told pending outcome) ∨ x = .cancelled := by
  rw [endings] at h
  rcases List.mem_append.mp h with h | h
  · obtain ⟨⟨pending, outcome⟩, -, rfl⟩ := List.mem_map.mp h
    exact .inl ⟨pending, outcome, rfl⟩
  · split at h
    · exact .inr (List.mem_singleton.mp h)
    · cases h

/-- A stop goes on record with those who were still waiting. -/
theorem of_mem_stopRecords (h : x ∈ p.stopRecords q) : x = .stopped p.queue := by
  rw [stopRecords] at h
  split at h
  · cases h
  · exact List.mem_singleton.mp h

/-- So does the launch of a fetch. -/
theorem of_mem_launchRecords (h : x ∈ p.launchRecords q) :
    ∃ g : InFlight, x = .launched g.fetch g.pending := by
  rw [launchRecords] at h
  split at h
  · cases h
  · obtain ⟨g, -, rfl⟩ := List.mem_map.mp h
    exact ⟨g, rfl⟩

end Pipeline

/-! ## The driver -/

/-- A step leaves this roster, or launches the first in its line. -/
inductive Step.Draws (s : Step) (r : Roster) : Prop
  | keeps (roster : s.pipeline.roster = r)
  | launches (g : InFlight) (inFlight : s.pipeline.inFlight = some g)
    (takes : r.Takes (.launched g.fetch g.pending) s.pipeline.roster)

/-- The effects of a step do not bear on the roster. -/
theorem Step.Draws.after {s : Step} {r : Roster} (h : s.Draws r) (effects : List Effect) :
    (s.after effects).Draws r := by
  cases h with
  | keeps roster => exact .keeps roster
  | launches g inFlight takes => exact .launches g inFlight takes

/-- Who is in the line stays in it, or is fetched from. -/
theorem Step.Draws.mem {s : Step} {r : Roster} (h : s.Draws r) {pending : Pending}
    (hmem : pending ∈ r.line) :
    pending ∈ s.pipeline.line ∨ s.pipeline.inFlight.map (·.pending) = some pending := by
  cases h with
  | keeps roster =>
    rw [← roster] at hmem
    exact .inl hmem
  | launches g inFlight takes =>
    rw [takes.line_of_launched] at hmem
    rcases List.mem_cons.mp hmem with rfl | hmem
    · exact .inr (congrArg (Option.map InFlight.pending) inFlight)
    · exact .inl hmem

namespace Pipeline

variable {config : Config} {p : Pipeline} {cache : Cache}

/-- A halt that comes to its end leaves the roster as it is. -/
theorem roster_finishHalt (p : Pipeline) (halt : Halt) (cache : Cache) :
    (p.finishHalt halt cache).pipeline.roster = p.atRest := by
  cases halt with
  | sync ticket => rfl
  | shutdown ticket => rfl

/-- To launch a fetch takes its peer from the head of the line. -/
theorem draws_launch (h : p.inFlight = none) (pending : Pending) (cache : Cache) :
    (p.launch pending cache).Draws { p.atRest with line := pending :: p.queue } := by
  refine .launches ⟨pending, p.nextFetch⟩ rfl (.launched pending p.queue rfl ?_ rfl)
  change p.inFlight.map (·.pending) = none
  rw [h]
  rfl

/-- So does the driver once scanning has stopped for it. -/
theorem draws_afterPause (h : p.inFlight = none) (next : AfterPause) (cache : Cache) :
    (p.afterPause next cache).Draws { p.atRest with line := next.line ++ p.queue } := by
  cases next with
  | halt halt => exact .keeps (roster_finishHalt { p with phase := .idle } halt cache)
  | launch pending => exact draws_launch h pending cache

/-- It is the same whether there is scanning to stop or not. -/
theorem draws_pause (h : p.inFlight = none) (next : AfterPause) (cache : Cache) :
    (p.pause next cache).Draws { p.atRest with line := next.line ++ p.queue } := by
  rw [pause]
  split
  · exact .keeps rfl
  · exact draws_afterPause h next cache

/-- To scan again leaves the roster as it is. -/
theorem roster_resume (p : Pipeline) (config : Config) (ticket : Option Ticket) (cache : Cache) :
    (p.resume config ticket cache).pipeline.roster = p.atRest := by
  rw [resume]
  split
  · rfl
  · rfl

/-- The driver turns to the first in line, if there is anybody. -/
theorem draws_advance (p : Pipeline) (config : Config) (cache : Cache) :
    (p.advance config cache).Draws p.atRest := by
  rw [advance]
  by_cases hbusy : (p.inFlight.isSome || !p.active) = true
  · rw [if_pos hbusy]
    exact .keeps rfl
  rw [if_neg hbusy]
  have hidle : p.inFlight = none := by
    simp only [Bool.or_eq_true, not_or, Option.not_isSome_iff_eq_none] at hbusy
    exact hbusy.1
  rw [atRest]
  rcases p.queue with _ | ⟨pending, queue⟩
  · exact .keeps (roster_resume { p with phase := .scanning, queue := [] } config none cache)
  · dsimp only
    split
    · exact draws_pause (p := { p with queue }) hidle (.launch pending) cache
    · exact draws_launch (p := { p with queue }) hidle pending cache

/-- To turn active leaves the roster as it is. -/
theorem roster_activate (p : Pipeline) (config : Config) (ticket : Ticket) (cache : Cache) :
    (p.activate config ticket cache).pipeline.roster = p.atRest := by
  rw [activate]
  split
  · rfl
  · exact roster_resume { p with active := true, phase := .scanning } config (some ticket) cache

/-- What is told of an outcome. -/
def tidings (cache : Cache) (now : Timestamp) (pending : Pending) : Outcome → List Effect
  | .ok readings =>
    (decodeReadings pending.peer readings).2.map .warn ++
      (cache.fetched now pending.stamp pending.peer
        (decodeReadings pending.peer readings).1).events.map .event
  | .error e => [.warn (.fetchFailed pending.peer e)]

/-- Taking note of an outcome: the counters, the cache, and then the next in the line. -/
theorem settle_eq (p : Pipeline) (config : Config) (now : Timestamp) (pending : Pending)
    (outcome : Outcome) (cache : Cache) :
    p.settle config now pending outcome cache =
      (advance { p with counters := p.counters.settled outcome } config
        (cacheTold cache now pending outcome)).after (tidings cache now pending outcome) := by
  cases outcome with
  | ok readings => rfl
  | error e => cases e <;> rfl

/-- Once an outcome was told, nothing is due, and the driver turns to the next. -/
theorem draws_settle (p : Pipeline) (config : Config) (now : Timestamp) (pending : Pending)
    (outcome : Outcome) (cache : Cache) :
    (p.settle config now pending outcome cache).Draws
      { p.atRest with counters := p.counters.settled outcome } := by
  rw [settle_eq]
  exact (draws_advance { p with counters := p.counters.settled outcome } config _).after _

/-! ## Moves -/

end Pipeline

/-- What leaves the cache does not bear on the roster. -/
theorem Roster.follows_gone (r : Roster) (stamps : List Stamp) :
    r.Follows (stamps.map .gone) r := by
  induction stamps with
  | nil => exact .nil
  | cons stamp rest ih => exact (Takes.gone stamp).follows.trans ih

/-- What is left to draw stays in its epoch. -/
theorem Step.Draws.epoch {s : Step} {r : Roster} (h : s.Draws r) : s.pipeline.epoch = r.epoch := by
  cases h with
  | keeps roster => exact congrArg Roster.epoch roster
  | launches g inFlight takes => exact takes.of_launched.2

/-- What a step does to a roster is on record. -/
theorem Step.Draws.follows {s : Step} {r : Roster} (h : s.Draws r) {p : Pipeline}
    (hnext : r.nextFetch = p.nextFetch) :
    r.Follows (p.launchRecords s.pipeline) s.pipeline.roster := by
  cases h with
  | keeps roster =>
    have hsame : s.pipeline.nextFetch = p.nextFetch :=
      (congrArg Roster.nextFetch roster).trans hnext
    rw [roster, Pipeline.launchRecords, if_pos hsame]
    exact .nil
  | launches g inFlight takes =>
    have hmore : s.pipeline.nextFetch ≠ p.nextFetch := by
      change s.pipeline.roster.nextFetch ≠ p.nextFetch
      rw [takes.of_launched.1, hnext]
      exact Nat.succ_ne_self _
    rw [Pipeline.launchRecords, if_neg hmore, inFlight]
    exact takes.follows

namespace Pipeline

variable {config : Config} {p : Pipeline} {cache : Cache} {move : Move} {s : Step}

/-- A move that stops nothing is put together from a sighting, the end of a fetch, and a launch. -/
theorem follows_of_draws {r r' : Roster}
    (hmeeting : p.roster.Follows (p.meeting? cache move).toList r)
    (hendings : r.Follows (p.endings move) r') (h : s.Draws r')
    (hnext : r'.nextFetch = p.nextFetch) (hepoch : r'.epoch = p.epoch) :
    p.roster.Follows (p.records cache move s) s.pipeline.roster := by
  rw [records, stopRecords, if_pos (h.epoch.trans hepoch), List.append_nil]
  exact ((hmeeting.trans (r.follows_gone _)).trans hendings).trans (h.follows hnext)

/-- A move that leaves the roster alone leaves no trace of it. -/
theorem follows_of_roster (hmeeting : p.meeting? cache move = none) (hendings : p.endings move = [])
    (h : s.pipeline.roster = p.roster) :
    p.roster.Follows (p.records cache move s) s.pipeline.roster := by
  have hmet : p.roster.Follows (p.meeting? cache move).toList p.roster := by
    rw [hmeeting]
    exact .nil
  have hended : p.roster.Follows (p.endings move) p.roster := by
    rw [hendings]
    exact .nil
  exact follows_of_draws hmet hended (.keeps h) rfl rfl

/-- With no fetch in flight, a stop ends scanning, and in a pipeline that is not active it ends at
once. -/
theorem deactivate_of_idle (h : p.inFlight = none) (halt : Halt) (cache : Cache) :
    p.deactivate halt cache =
      if p.active then p.stopped.pause (.halt halt) cache else p.finishHalt halt cache := by
  rw [deactivate]
  rcases hactive : p.active with _ | _
  · rw [if_pos (by simp [h]), if_neg (by simp)]
  · rw [if_neg (by simp), if_pos rfl]
    simp only [h, stopped]

/-- A stop in the course of a fetch closes the link first. -/
theorem deactivate_of_busy {g : InFlight} (h : p.inFlight = some g) (halt : Halt)
    (cache : Cache) :
    p.deactivate halt cache =
      ⟨closing { p.stopped with inFlight := none, fetches := p.fetches.erase g.fetch } g (.halt halt),
        cache, [.cancel g.fetch, .call .driver (p.closeCall g)]⟩ := by
  rw [deactivate, if_neg (by simp [h])]
  simp only [h]
  rw [close_eq (.inr rfl)]
  rfl

/-- A stop is on record, if there was anything to be stopped. -/
theorem follows_deactivate (p : Pipeline) (halt : Halt) (cache : Cache) :
    let s := p.deactivate halt cache
    p.atRest.Follows (p.stopRecords s.pipeline ++ p.launchRecords s.pipeline) s.pipeline.roster := by
  intro s
  have hstop : p.atRest.Takes (.stopped p.queue) _ := .stopped rfl
  have hdue : p.atRest.due = p.inFlight.map (·.pending) := rfl
  rcases hflight : p.inFlight with _ | g
  · have hs : s = _ := deactivate_of_idle hflight halt cache
    by_cases hactive : p.active = true
    · rw [if_pos hactive] at hs
      have hdraws : s.Draws p.stopped.atRest := by
        rw [hs]
        exact draws_pause (p := p.stopped) hflight (.halt halt) cache
      have hepoch : s.pipeline.epoch ≠ p.epoch := by
        rw [hdraws.epoch]
        exact Nat.succ_ne_self _
      have hstopped : p.atRest.Takes (.stopped p.queue) p.stopped.atRest := by
        simpa [atRest, stopped, hflight] using hstop
      rw [stopRecords, if_neg hepoch]
      exact hstopped.follows.trans (hdraws.follows rfl)
    · -- the pipeline was stopped before, and so this stop does not go on record
      rw [if_neg hactive] at hs
      have hroster : s.pipeline.roster = p.atRest := by
        rw [hs]
        exact p.roster_finishHalt halt cache
      have hepoch : s.pipeline.epoch = p.epoch := congrArg Roster.epoch hroster
      have hnext : s.pipeline.nextFetch = p.nextFetch := congrArg Roster.nextFetch hroster
      rw [hroster, stopRecords, if_pos hepoch, launchRecords, if_pos hnext]
      exact .nil
  · -- the fetch in flight is cancelled, and counted once its link is closed
    have hs : s = _ := deactivate_of_busy hflight halt cache
    have hepoch : s.pipeline.epoch ≠ p.epoch := by
      rw [hs]
      exact Nat.succ_ne_self _
    have hnext : s.pipeline.nextFetch = p.nextFetch := by
      rw [hs]
      rfl
    rw [hdue, hflight] at hstop
    rw [stopRecords, if_neg hepoch, launchRecords, if_pos hnext, hs]
    exact hstop.follows

/-- Nothing ends when a command is taken that tells nothing. -/
theorem endings_takeCommand (h : p.tells? .takeCommand = none) : p.endings .takeCommand = [] := by
  rw [endings, h]
  rfl

/-- A report that does not end the fetch in flight is dealt with in passing. -/
theorem roster_onReport {epoch : Nat} {said : Report}
    (hother : ∀ outcome, epoch = p.epoch → said ≠ .finished outcome) (config : Config)
    (now : Timestamp) (cache : Cache) :
    (p.onReport config now epoch said cache).pipeline.roster = p.atRest := by
  rw [onReport.eq_def]
  by_cases hepoch : epoch = p.epoch
  · rw [if_neg (fun hne => hne hepoch)]
    cases said with
    | phase phase =>
      dsimp only
      split
      · rfl
      · rfl
    | finished outcome => exact absurd rfl (hother outcome hepoch)
  · rw [if_pos hepoch]
    rfl

/-- A command that has the pipeline stop. -/
theorem follows_stop {command : Command} (htaken : p.taken? = some command)
    (hother : ∀ id outcome, command ≠ .report id p.epoch (.finished outcome)) {halt : Halt}
    (hs : s = deactivate { p with commands := p.commands.tail } halt cache) :
    p.roster.Follows (p.records cache .takeCommand s) s.pipeline.roster := by
  have hendings := endings_takeCommand (tells?_takeCommand_eq_none htaken hother)
  have hstop := follows_deactivate { p with commands := p.commands.tail } halt cache
  rw [← hs] at hstop
  rw [records, hendings, roster_of_waiting (.inl (of_taken htaken).1), List.append_nil,
    List.append_assoc]
  exact (p.atRest.follows_gone _).trans hstop

/-- **To take a command leads to where its records lead.** -/
theorem follows_takeCommand (hp : p.Coherent) (config : Config) (now : Timestamp) (cache : Cache) :
    let s := p.move config now cache .takeCommand
    p.roster.Follows (p.records cache .takeCommand s) s.pipeline.roster := by
  intro s
  rcases htaken : p.taken? with _ | command
  · have hs : s = ⟨p, cache, []⟩ := move_takeCommand_of_none htaken now cache
    have htells : p.tells? .takeCommand = none := by rw [tells?, htaken]
    refine follows_of_roster rfl (endings_takeCommand htells) ?_
    rw [hs]
  let q := { p with commands := p.commands.tail }
  have hroster : p.roster = q.atRest := roster_of_waiting (.inl (of_taken htaken).1)
  have hs : s = q.onCommand config now command cache := move_takeCommand htaken config now cache
  cases command with
  | sync ticket =>
    have hother : ∀ id outcome, .sync ticket ≠ Command.report id p.epoch (.finished outcome) :=
      fun _ _ hc => by cases hc
    rw [onCommand] at hs
    split at hs
    · exact follows_stop htaken hother hs
    · refine follows_of_roster rfl (endings_takeCommand ?_) ?_
      · exact tells?_takeCommand_eq_none htaken hother
      · rw [hs, hroster]
        exact q.roster_activate config ticket cache
  | shutdown ticket => exact follows_stop htaken (fun _ _ hc => by cases hc) hs
  | report id epoch said =>
    rcases report_cases hp.tracks htaken with ⟨g, outcome, rfl, rfl, hg, -⟩ | hother
    · have hdue : p.atRest.due = some g.pending := congrArg (Option.map InFlight.pending) hg
      cases takesOutcome hg htaken config now cache with
      | closes tells step =>
        -- the fetch is over, and yet outstanding until its link is closed
        refine follows_of_roster rfl (endings_takeCommand tells) ?_
        have hs : s = _ := step
        rw [hs, hroster]
        change Roster.mk p.queue (some g.pending) false p.counters p.nextFetch p.epoch = p.atRest
        rw [← hdue]
        rfl
      | settles tells step =>
        have hs : s = _ := step
        have hdraws := draws_settle { p with commands := p.commands.tail, inFlight := none } config
          now g.pending outcome cache
        rw [← hs] at hdraws
        have hroster' : p.roster = p.atRest := hroster
        refine follows_of_draws .nil ?_ hdraws rfl rfl
        rw [endings, tells, hroster']
        exact (Roster.Takes.told g.pending outcome hdue).follows
    · refine follows_of_roster rfl (endings_takeCommand ?_) ?_
      · refine tells?_takeCommand_eq_none htaken ?_
        rintro _ outcome ⟨⟩
        exact hother outcome rfl rfl
      · rw [hs, hroster]
        exact roster_onReport (p := q) hother config now cache

/-- On a roster at rest are the peer that is fetched from, and those in the queue. -/
theorem peers_atRest (p : Pipeline) :
    p.atRest.peers = p.inFlight.toList.map (·.pending.peer) ++ p.queue.map (·.peer) := by
  rw [Roster.peers, List.map_append, atRest]
  cases p.inFlight with
  | none => rfl
  | some g => rfl

/-- The driver looks in the same places. -/
theorem mem_peers_atRest (p : Pipeline) (peer : RadioId) :
    peer ∈ p.atRest.peers ↔
      (p.inFlight.map fun f => f.pending.peer) = some peer ∨
        p.queue.any (·.peer = peer) = true := by
  rw [peers_atRest, List.mem_append]
  simp

/-- **What the driver does with a sighting** is what is on record of it. -/
theorem draws_onSighting (hrests : p.driver.Rests config) {sighting : Sighting} {stamp : Stamp}
    (hstamp : sighting.stamp? = some stamp) (now : Timestamp) (cache : Cache) :
    ∃ r, p.atRest.Takes
        (.met sighting.peer stamp (p.reception cache sighting.peer stamp)) r ∧
      (p.onSighting config now sighting cache).Draws r := by
  rw [reception]
  by_cases hactive : p.active = false
  · rw [if_pos hactive, onSighting, if_pos (by simp [hactive])]
    obtain ⟨-, hqueue, -, -⟩ := hrests.of_inactive hactive
    exact ⟨p.atRest, .ignored sighting.peer stamp hqueue, .keeps rfl⟩
  have hinactive : ¬(!p.active) = true := by simpa using hactive
  -- the cache is asked once, and has seen the stamp exactly if it is cached
  have hvalue : (cache.haveSeen now stamp sighting.peer).value = cache.entries.contains stamp :=
    cache.value_haveSeen now stamp sighting.peer
  rw [if_neg hactive, onSighting, if_neg hinactive, hstamp]
  dsimp only
  rw [hvalue]
  by_cases hknown : cache.entries.contains stamp = true
  · rw [if_pos hknown, if_pos hknown]
    exact ⟨_, .known sighting.peer stamp, .keeps rfl⟩
  rw [if_neg hknown, if_neg hknown]
  have hmem := p.mem_peers_atRest sighting.peer
  by_cases hflight : (p.inFlight.map fun f => f.pending.peer) = some sighting.peer
  · -- who is fetched from does not wait as well, so that nobody is restamped
    have hnot : sighting.peer ∉ p.queue.map (·.peer) := by
      have hpeers : p.atRest.peers.Nodup := by
        rw [peers_atRest]
        exact hrests.nodup_peers
      obtain ⟨g, hg, hpeer⟩ := Option.map_eq_some_iff.mp hflight
      rw [peers_atRest, hg] at hpeers
      rw [← hpeer]
      exact (List.nodup_cons.mp hpeers).1
    have hline : restamp sighting.peer stamp p.atRest.line = p.queue :=
      Roster.restamp_of_notMem hnot stamp
    have hpeer := hmem.mpr (.inl hflight)
    rw [if_pos hflight, if_pos hpeer]
    refine ⟨_, .merged sighting.peer stamp hpeer, .keeps ?_⟩
    rw [hline]
    rfl
  by_cases hwaits : p.queue.any (·.peer = sighting.peer) = true
  · have hpeer := hmem.mpr (.inr hwaits)
    rw [if_neg hflight, if_pos hwaits, if_pos hpeer]
    exact ⟨_, .merged sighting.peer stamp hpeer, .keeps rfl⟩
  · have hpeer := mt hmem.mp (not_or.mpr ⟨hflight, hwaits⟩)
    rw [if_neg hflight, if_neg hwaits, if_neg hpeer]
    exact ⟨_, .queued sighting.peer stamp hpeer, (draws_advance _ config _).after _⟩

/-- A sighting is taken between messages, the oldest first. -/
theorem move_takeSighting {sighting : Sighting} {rest : List Sighting}
    (hcontrol : p.control = .waiting) (hsightings : p.sightings = sighting :: rest)
    (config : Config) (now : Timestamp) (cache : Cache) :
    p.move config now cache .takeSighting =
      onSighting { p with sightings := rest } config now sighting cache := by
  rw [Pipeline.move.eq_def]
  dsimp only
  split
  · rename_i other more hwaiting hothers
    cases hsightings.symm.trans hothers
    rfl
  · rename_i hnot
    exact (hnot sighting rest hcontrol hsightings).elim

/-- The driver takes a sighting if it is there to be taken, and then this is on record. -/
theorem meeting_cases (p : Pipeline) (config : Config) (now : Timestamp) (cache : Cache) :
    p.meeting? cache .takeSighting = none ∧
        p.move config now cache .takeSighting = ⟨p, cache, []⟩ ∨
      ∃ sighting rest, p.control = .waiting ∧
        p.meeting? cache .takeSighting = (sighting.stamp?.map fun stamp =>
          .met sighting.peer stamp (p.reception cache sighting.peer stamp)) ∧
        p.move config now cache .takeSighting =
          onSighting { p with sightings := rest } config now sighting cache := by
  by_cases htakes : ∃ sighting rest, p.control = .waiting ∧ p.sightings = sighting :: rest
  · obtain ⟨sighting, rest, hcontrol, hsightings⟩ := htakes
    refine .inr ⟨sighting, rest, hcontrol, ?_, move_takeSighting hcontrol hsightings config now cache⟩
    rw [meeting?, hcontrol, hsightings]
  · refine .inl ⟨?_, ?_⟩
    · rw [meeting?]
      split
      · rename_i sighting rest hcontrol hsightings
        exact absurd ⟨sighting, rest, hcontrol, hsightings⟩ htakes
      · rfl
    · rcases p.takeSighting_cases config now cache with
        hstep | ⟨sighting, rest, hcontrol, hsightings, -⟩
      · exact hstep
      · exact absurd ⟨sighting, rest, hcontrol, hsightings⟩ htakes

/-- **To take a sighting leads to where its record leads.** -/
theorem follows_takeSighting (hd : p.driver.Consistent config) (now : Timestamp) (cache : Cache) :
    let s := p.move config now cache .takeSighting
    p.roster.Follows (p.records cache .takeSighting s) s.pipeline.roster := by
  intro s
  rcases p.meeting_cases config now cache with
    ⟨hmeeting, hstep⟩ | ⟨sighting, rest, hcontrol, hmeeting, hstep⟩
  · refine follows_of_roster hmeeting rfl ?_
    rw [show s = _ from hstep]
  let q := { p with sightings := rest }
  have hs : s = q.onSighting config now sighting cache := hstep
  have hroster : p.roster = q.atRest := roster_of_waiting (.inl hcontrol)
  rcases hstamp : sighting.stamp? with _ | stamp
  · refine follows_of_roster ?_ rfl ?_
    · rw [hmeeting, hstamp]
      rfl
    · rw [hs, hroster, onSighting, hstamp]
      split
      · rfl
      · rfl
  · have hrests : q.driver.Rests config := hd.rests hcontrol
    obtain ⟨r, htakes, hdraws⟩ := draws_onSighting hrests hstamp now cache
    rw [← hs] at hdraws
    obtain ⟨hnext, hepoch⟩ := htakes.of_met
    refine follows_of_draws (r := r) ?_ .nil hdraws hnext hepoch
    rw [hmeeting, hstamp, hroster]
    exact htakes.follows

/-- The end of a call to start or stop scanning. -/
theorem follows_scanAnswered (hd : p.driver.Consistent config) (result : Except RadioError Unit)
    (cache : Cache) :
    let s := p.onScanAnswered result cache
    p.roster.Follows (p.records cache (.scanAnswered result) s) s.pipeline.roster := by
  intro s
  have hs : s = p.onScanAnswered result cache := rfl
  rw [onScanAnswered] at hs
  rw [Driver.Consistent, control_driver] at hd
  rcases hcontrol : p.control with _ | ticket | next | ⟨peer, next⟩ | _ <;> rw [hcontrol] at hd hs
  · exact follows_of_roster rfl rfl (by rw [hs])
  · refine follows_of_roster rfl rfl ?_
    rw [hs, roster_of_starting hcontrol]
    cases result with
    | ok _ => rfl
    | error e => rfl
  · have hidle : p.inFlight = none := by
      obtain ⟨-, hprecedes⟩ := hd
      cases next with
      | halt halt => exact hprecedes.inFlight
      | launch pending => exact hprecedes.inFlight
    have hdraws : s.Draws p.roster := by
      have hpause := draws_afterPause hidle next cache
      rw [hs, roster_of_stopping hcontrol]
      cases result with
      | ok _ => exact hpause
      | error e => exact hpause.after _
    exact follows_of_draws .nil .nil hdraws rfl rfl
  · exact follows_of_roster rfl rfl (by rw [hs])
  · exact follows_of_roster rfl rfl (by rw [hs])

/-- The end of an attempt to close a link. -/
theorem follows_closed (hd : p.driver.Consistent config) (now : Timestamp) (closing : Closing)
    (cache : Cache) :
    let s := p.onClosed config now closing cache
    p.roster.Follows (p.records cache (.closed closing) s) s.pipeline.roster := by
  intro s
  rw [Driver.Consistent, control_driver] at hd
  obtain ⟨hclosing, hs⟩ | ⟨peer, halt, hcontrol, hs⟩ | ⟨peer, pending, outcome, hcontrol, hs⟩ :=
    p.onClosed_cases config now closing cache
  · refine follows_of_roster rfl ?_ (by rw [show s = _ from hs])
    rw [isClosing] at hclosing
    rw [endings, tells?, cancels, cancelling]
    rcases hcontrol : p.control with _ | ticket | next | ⟨peer, next⟩ | _ <;> rw [hcontrol] at hclosing
    · rfl
    · rfl
    · rfl
    · cases hclosing
    · rfl
  · -- a cancelled fetch was taken off the record by the stop, and has only to be counted
    rw [hcontrol] at hd
    have hidle : p.inFlight = none := hd.inFlight
    have hroster : p.roster = { p.atRest with cancelling := true } := by
      rw [roster, line, outstanding, cancelling, hcontrol]
      rfl
    have hendings : p.endings (.closed closing) = [.cancelled] := by
      rw [endings, tells?, cancels, cancelling, hcontrol]
      rfl
    have hcancelled : p.roster.Takes .cancelled _ := .cancelled (by rw [hroster])
    let q := { p with counters.fetchesCancelled := p.counters.fetchesCancelled + 1 }
    have hdraws : s.Draws q.atRest := by
      rw [show s = _ from hs]
      exact (draws_pause (p := q) hidle (.halt halt) cache).after _
    refine follows_of_draws .nil ?_ hdraws rfl rfl
    rw [hendings]
    rw [hroster] at hcancelled ⊢
    exact hcancelled.follows
  · -- the outcome was kept until the link was closed, and is told now
    rw [hcontrol] at hd
    have hidle : p.inFlight = none := hd.inFlight
    have hroster : p.roster = { p.atRest with due := some pending } := by
      rw [roster, line, outstanding, cancelling, hcontrol]
      rfl
    have hendings : p.endings (.closed closing) = [.told pending outcome] := by
      rw [endings, tells?, cancels, cancelling, hcontrol]
      rfl
    have htold : p.roster.Takes (.told pending outcome) _ := .told pending outcome (by rw [hroster])
    have hdraws : s.Draws { p.atRest with due := none, counters := p.counters.settled outcome } := by
      have hdue : p.atRest.due = none := congrArg (Option.map InFlight.pending) hidle
      rw [show s = _ from hs, ← hdue]
      exact (p.draws_settle config now pending outcome cache).after _
    refine follows_of_draws .nil ?_ hdraws rfl rfl
    rw [hendings]
    rw [hroster] at htold ⊢
    exact htold.follows

/-- The turn of a fetch is not on record. -/
theorem recordless_of_isTurn (p : Pipeline) (cache : Cache) {move : Move}
    (hturn : move.isTurn = true) : p.meeting? cache move = none ∧ p.endings move = [] := by
  cases move with
  | fetchBegins | fetchAnswered | fetchExpires => exact ⟨rfl, rfl⟩
  | send | hear | takeCommand | takeSighting | scanAnswered | closed => cases hturn

/-- **No move does more to the roster than its records allow.** -/
theorem follows_move (hp : p.Coherent) (hd : p.driver.Consistent config) (now : Timestamp)
    (cache : Cache) (move : Move) :
    let s := p.move config now cache move
    p.roster.Follows (p.records cache move s) s.pipeline.roster := by
  intro s
  by_cases hturn : move.isTurn = true
  · obtain ⟨hmeeting, hendings⟩ := p.recordless_of_isTurn cache hturn
    refine follows_of_roster hmeeting hendings ?_
    rcases p.turn_cases config now cache hturn with hs | ⟨id, epoch, turn, hs, -⟩
    · rw [show s = _ from hs]
    · rw [show s = _ from hs, pipeline_applyTurn]
      rfl
  cases move with
  | send command => exact follows_of_roster rfl rfl rfl
  | hear sighting => exact follows_of_roster rfl rfl rfl
  | takeCommand => exact follows_takeCommand hp config now cache
  | takeSighting => exact follows_takeSighting hd now cache
  | scanAnswered result => exact follows_scanAnswered hd result cache
  | closed closing => exact follows_closed hd now closing cache
  | fetchBegins | fetchAnswered | fetchExpires => exact absurd rfl hturn

end Pipeline

end Nearby.Scan
