import Nearby.Proofs.Scan.Connections

/-!
# The state of the driver between two messages

Whether the pipeline is active, whether the radio scans, the phase, the queue and the fetch in flight
are set by different parts of the driver, each of which may have to wait for the radio before the
next one takes over. While the driver waits for a message they fit together in one of three ways
(`Driver.Rests`): nobody is subscribed; the pipeline waits for sightings; or a fetch is in flight,
and other peers wait for their turn.

While it waits for the radio they need not fit yet. What holds then depends on how the driver goes on
(`Driver.Consistent`), and each part of the driver takes one such state to another (`Step.Fits`),
whether or not the radio does as it is told.
-/

namespace Nearby.Scan

/-- True for the phases of a fetch. -/
def Phase.isFetching : Phase → Bool
  | .connecting | .discovering | .reading => true
  | .idle | .scanning => false

/-- A fetch reports no phases but those of a fetch. -/
def Report.IsOrdinary : Report → Prop
  | .phase entered => entered.isFetching = true
  | .finished _ => True

/-- A report in the mailbox is one that a fetch may make. -/
def Command.IsOrdinary : Command → Prop
  | .report _ _ said => said.IsOrdinary
  | _ => True

/-- True for the call that starts scanning, false for the one that stops it. -/
def Effect.scanSwitch? : Effect → Option Bool
  | .call _ (.startScan _) => some true
  | .call _ .stopScan => some false
  | _ => none

/-- What the driver keeps for itself: the pipeline without mailboxes, fetches and counters. -/
structure Driver where
  active : Bool
  scanning : Bool
  phase : Phase
  queue : List Pending
  inFlight : Option InFlight
  control : Control

/-- The driver of a pipeline. -/
def Pipeline.driver (p : Pipeline) : Driver :=
  ⟨p.active, p.scanning, p.phase, p.queue, p.inFlight, p.control⟩

@[simp] theorem Pipeline.control_driver (p : Pipeline) : p.driver.control = p.control := rfl

namespace Driver

/-- The state of the driver while it waits for a message. -/
inductive Rests (config : Config) (d : Driver) : Prop
  /-- Nobody is subscribed. -/
  | idle (active : d.active = false) (inFlight : d.inFlight = none) (queue : d.queue = [])
    (phase : d.phase = .idle) (scanning : d.scanning = false)
  /-- The pipeline waits for sightings, though the radio may have failed to scan. -/
  | watching (active : d.active = true) (inFlight : d.inFlight = none) (queue : d.queue = [])
    (phase : d.phase = .scanning)
  /-- A fetch is in flight, and its peer is not queued again. -/
  | fetching (active : d.active = true) (g : InFlight) (inFlight : d.inFlight = some g)
    (phase : d.phase.isFetching = true)
    (scanning : config.pauseScanDuringFetch = true → d.scanning = false)
    (peers : (g.pending.peer :: d.queue.map (·.peer)).Nodup)

/-- Everything is dropped, and the pipeline is about to stop. -/
structure Halts (d : Driver) : Prop where
  active : d.active = false
  inFlight : d.inFlight = none
  queue : d.queue = []

/-- No fetch is in flight, and the pipeline is about to turn to these peers. -/
structure TurnsTo (queue : List Pending) (d : Driver) : Prop where
  active : d.active = true
  inFlight : d.inFlight = none
  peers : (queue.map (·.peer)).Nodup

/-- What holds before the driver goes on once scanning has stopped. -/
def Precedes (d : Driver) : AfterPause → Prop
  | .halt _ => d.Halts
  | .launch pending => d.TurnsTo (pending :: d.queue)

/-- **The invariant of the driver**, by what it waits for. -/
def Consistent (config : Config) (d : Driver) : Prop :=
  match d.control with
  | .waiting => d.Rests config
  | .starting _ => d.active = true ∧ d.inFlight = none ∧ d.queue = [] ∧ d.phase = .scanning
  | .stopping next => d.scanning = false ∧ d.Precedes next
  | .closing _ (.halt _) => d.Halts
  | .closing _ (.settle ..) => d.TurnsTo d.queue
  | .exited => d.active = false ∧ d.Rests config

variable {config : Config} {d : Driver}

/-- Between messages the driver rests. -/
theorem Consistent.rests (h : d.Consistent config) (hcontrol : d.control = .waiting) :
    d.Rests config := by
  rwa [Consistent, hcontrol] at h

/-- Where nobody is subscribed, nothing is going on. -/
theorem Rests.of_inactive (h : d.Rests config) (hactive : d.active = false) :
    d.inFlight = none ∧ d.queue = [] ∧ d.phase = .idle ∧ d.scanning = false := by
  cases h with
  | idle active inFlight queue phase scanning => exact ⟨inFlight, queue, phase, scanning⟩
  | watching active => cases hactive.symm.trans active
  | fetching active => cases hactive.symm.trans active

/-- Where no fetch is in flight, nobody waits, and the pipeline hears of peers. -/
theorem Rests.of_free (h : d.Rests config) (hactive : d.active = true) (hfree : d.inFlight = none) :
    d.queue = [] ∧ d.phase = .scanning := by
  cases h with
  | idle active => cases hactive.symm.trans active
  | watching active inFlight queue phase => exact ⟨queue, phase⟩
  | fetching active g inFlight => cases hfree.symm.trans inFlight

/-- While a fetch is in flight, the pipeline is active, and scanning may be paused for it. -/
theorem Rests.of_busy (h : d.Rests config) (hbusy : d.inFlight.isSome = true) :
    d.active = true ∧ d.phase.isFetching = true ∧
      (config.pauseScanDuringFetch = true → d.scanning = false) := by
  cases h with
  | idle active inFlight =>
    rw [inFlight] at hbusy
    cases hbusy
  | watching active inFlight =>
    rw [inFlight] at hbusy
    cases hbusy
  | fetching active g inFlight phase scanning peers => exact ⟨active, phase, scanning⟩

/-- No peer waits twice, nor while it is fetched from. -/
theorem Rests.nodup_peers (h : d.Rests config) :
    (d.inFlight.toList.map (·.pending.peer) ++ d.queue.map (·.peer)).Nodup := by
  cases h with
  | idle active inFlight queue =>
    rw [inFlight, queue]
    exact List.nodup_nil
  | watching active inFlight queue =>
    rw [inFlight, queue]
    exact List.nodup_nil
  | fetching active g inFlight phase scanning peers =>
    rw [inFlight]
    exact peers

/-- While the pipeline is inactive, the driver neither has a fetch in flight nor takes note of one. -/
theorem Consistent.of_inactive (h : d.Consistent config) (hactive : d.active = false) :
    d.inFlight = none ∧
      ∀ peer pending outcome, d.control ≠ .closing peer (.settle pending outcome) := by
  rw [Consistent] at h
  rcases hcontrol : d.control with _ | ticket | next | ⟨peer, next⟩ | _
  · rw [hcontrol] at h
    exact ⟨(h.of_inactive hactive).1, fun _ _ _ hclosing => by cases hclosing⟩
  · rw [hcontrol] at h
    cases hactive.symm.trans h.1
  · rw [hcontrol] at h
    obtain ⟨-, hprecedes⟩ := h
    cases next with
    | halt halt => exact ⟨hprecedes.inFlight, fun _ _ _ hclosing => by cases hclosing⟩
    | launch pending => cases hactive.symm.trans hprecedes.active
  · rw [hcontrol] at h
    cases next with
    | halt halt => exact ⟨h.inFlight, fun _ _ _ hclosing => by cases hclosing⟩
    | settle pending outcome => cases hactive.symm.trans h.active
  · rw [hcontrol] at h
    exact ⟨(h.2.of_inactive hactive).1, fun _ _ _ hclosing => by cases hclosing⟩

end Driver

theorem Phase.isFetching_iff (phase : Phase) :
    phase.isFetching = true ↔ phase ∈ [.connecting, .discovering, .reading] := by
  cases phase <;> decide

/-- A step takes a driver that scans, or not, to a consistent state in which it is active, or not,
and switches scanning at most to where it was not. -/
structure Step.Fits (s : Step) (config : Config) (scanning active : Bool) : Prop where
  consistent : s.pipeline.driver.Consistent config
  active : s.pipeline.active = active
  switches : ∀ e ∈ s.effects, ∀ on, e.scanSwitch? = some on → scanning = !on

namespace Step.Fits

variable {config : Config} {scanning active : Bool} {s : Step}

/-- A step that makes no call. -/
theorem of_silent (h : s.pipeline.driver.Consistent config) (hactive : s.pipeline.active = active)
    (heffects : ∀ e ∈ s.effects, e.scanSwitch? = none) : s.Fits config scanning active where
  consistent := h
  active := hactive
  switches e he on hon := by
    rw [heffects e he] at hon
    cases hon

/-- Effects ahead of a step that do not switch scanning do not matter. -/
theorem after (h : s.Fits config scanning active) {effects : List Effect}
    (heffects : ∀ e ∈ effects, e.scanSwitch? = none) :
    (s.after effects).Fits config scanning active where
  consistent := h.consistent
  active := h.active
  switches e he on hon := by
    rcases List.mem_append.mp he with he | he
    · rw [heffects e he] at hon
      cases hon
    · exact h.switches e he on hon

end Step.Fits

namespace Pipeline

variable {config : Config} {p : Pipeline} {cache : Cache} {scanning : Bool}

/-! ## Going on -/

/-- Rest does not depend on what the driver waits for. -/
theorem rests_finish (h : p.driver.Rests config) (control : Control) :
    { p.finish with control }.driver.Rests config := by
  cases h with
  | idle active inFlight queue phase scanning => exact .idle active inFlight queue phase scanning
  | watching active inFlight queue phase => exact .watching active inFlight queue phase
  | fetching active g inFlight phase scanning peers =>
    exact .fetching active g inFlight phase scanning peers

theorem fits_finish (h : p.driver.Rests config) {effects : List Effect}
    (heffects : ∀ e ∈ effects, e.scanSwitch? = none) :
    Step.Fits ⟨p.finish, cache, effects⟩ config scanning p.active :=
  .of_silent (rests_finish h .waiting) rfl heffects

theorem fits_finishStart (h : p.driver.Rests config) (ticket : Option Ticket) :
    (p.finishStart ticket cache).Fits config scanning p.active :=
  fits_finish h (by simp [Effect.scanSwitch?])

/-- A halt comes to its end in an inactive driver. -/
theorem fits_finishHalt (h : p.driver.Rests config) (hactive : p.active = false) (halt : Halt) :
    (p.finishHalt halt cache).Fits config scanning p.active := by
  cases halt with
  | sync ticket => exact fits_finish h (by simp [Effect.scanSwitch?])
  | shutdown ticket =>
    exact .of_silent ⟨hactive, rests_finish h .exited⟩ rfl
      (by simp [finishHalt, Effect.scanSwitch?])

/-- A fetch may be launched once scanning has stopped, if it is to stop at all. -/
theorem fits_launch {pending : Pending} (h : p.driver.TurnsTo (pending :: p.queue))
    (hscanning : config.pauseScanDuringFetch = true → p.scanning = false) :
    (p.launch pending cache).Fits config p.scanning p.active :=
  .of_silent (Driver.Rests.fetching h.active ⟨pending, p.nextFetch⟩ rfl rfl hscanning h.peers) rfl
    (by simp [launch, Effect.scanSwitch?])

/-- Once the radio has stopped, the driver goes on as it meant to. -/
theorem fits_afterPause {next : AfterPause} (h : p.driver.Precedes next)
    (hscanning : p.scanning = false) :
    (p.afterPause next cache).Fits config p.scanning p.active := by
  cases next with
  | halt halt =>
    obtain ⟨hactive, hidle, hqueue⟩ := h
    exact fits_finishHalt (p := { p with phase := .idle })
      (.idle hactive hidle hqueue rfl hscanning) hactive halt
  | launch pending => exact fits_launch h fun _ => hscanning

/-- Scanning is stopped if there is any, and then the driver goes on. -/
theorem fits_pause {next : AfterPause} (h : p.driver.Precedes next) :
    (p.pause next cache).Fits config p.scanning p.active := by
  rw [pause]
  by_cases hscanning : p.scanning = true
  · rw [if_pos hscanning]
    refine ⟨⟨rfl, ?_⟩, rfl, ?_⟩
    · cases next with
      | halt halt =>
        obtain ⟨hactive, hidle, hqueue⟩ := h
        exact ⟨hactive, hidle, hqueue⟩
      | launch pending =>
        obtain ⟨hactive, hidle, hpeers⟩ := h
        exact ⟨hactive, hidle, hpeers⟩
    · intro e he on hon
      obtain rfl := List.mem_singleton.mp he
      cases hon
      exact hscanning
  · rw [if_neg hscanning]
    exact fits_afterPause h (by simpa using hscanning)

/-- An active pipeline in which nothing is going on scans again. -/
theorem fits_resume (hactive : p.active = true) (hidle : p.inFlight = none) (hqueue : p.queue = [])
    (hphase : p.phase = .scanning) (ticket : Option Ticket) :
    (p.resume config ticket cache).Fits config p.scanning p.active := by
  rw [resume]
  by_cases hscanning : p.scanning = true
  · rw [if_pos hscanning]
    exact fits_finishStart (.watching hactive hidle hqueue hphase) ticket
  · rw [if_neg hscanning]
    refine ⟨⟨hactive, hidle, hqueue, hphase⟩, rfl, fun e he on hon => ?_⟩
    obtain rfl := List.mem_singleton.mp he
    cases hon
    simpa using hscanning

/-- The next in the queue is fetched from, or else the pipeline scans. -/
theorem fits_advance (h : p.driver.TurnsTo p.queue) :
    (p.advance config cache).Fits config p.scanning p.active := by
  obtain ⟨hactive, hidle, hpeers⟩ := h
  have hactive : p.active = true := hactive
  have hidle : p.inFlight = none := hidle
  have hready : ¬(p.inFlight.isSome || !p.active) = true := by simp [hactive, hidle]
  rw [advance, if_neg hready]
  rcases hqueue : p.queue with _ | ⟨pending, queue⟩
  · exact fits_resume (p := { p with phase := .scanning, queue := [] }) hactive hidle rfl rfl none
  · rw [hqueue] at hpeers
    have hnext : { p with queue }.driver.TurnsTo (pending :: queue) := ⟨hactive, hidle, hpeers⟩
    dsimp only
    by_cases hpause : config.pauseScanDuringFetch = true
    · rw [if_pos hpause]
      exact fits_pause (p := { p with queue }) hnext
    · rw [if_neg hpause]
      exact fits_launch (p := { p with queue }) hnext fun h => absurd h hpause

/-- While a fetch is in flight, the queue waits. -/
theorem advance_of_isSome (h : p.inFlight.isSome = true) :
    p.advance config cache = ⟨p.finish, cache, []⟩ := by
  rw [advance, h]
  rfl

/-! ## Commands -/

/-- Who is the first to subscribe has the pipeline scan, and all others find it active. -/
theorem fits_activate (h : p.driver.Rests config) (ticket : Ticket) :
    (p.activate config ticket cache).Fits config p.scanning true := by
  rw [activate]
  by_cases hactive : p.active = true
  · rw [if_pos hactive]
    have hfinish : (p.finishStart (some ticket) cache).Fits config p.scanning p.active :=
      fits_finishStart h (some ticket)
    rwa [hactive] at hfinish
  · rw [if_neg hactive]
    have hinactive : p.active = false := by simpa using hactive
    obtain ⟨hidle, hqueue, -, -⟩ := h.of_inactive hinactive
    exact fits_resume (p := { p with active := true, phase := .scanning }) rfl hidle hqueue rfl
      (some ticket)

/-- Closing a link does not switch scanning. -/
theorem scanSwitch?_closeCall (p : Pipeline) (g : InFlight) (caller : Caller) :
    (Effect.call caller (p.closeCall g)).scanSwitch? = none := by
  rw [closeCall]
  split
  · rfl
  · rfl

/-- A stop empties the queue, and ends scanning and the fetch in flight. -/
theorem fits_deactivate (h : p.driver.Rests config) (halt : Halt) :
    (p.deactivate halt cache).Fits config p.scanning false := by
  rw [deactivate]
  by_cases hnone : (!p.active && p.inFlight.isNone) = true
  · rw [if_pos hnone]
    have hactive : p.active = false := by
      simp only [Bool.and_eq_true, Bool.not_eq_true'] at hnone
      exact hnone.1
    have hfinish : (p.finishHalt halt cache).Fits config p.scanning p.active :=
      fits_finishHalt h hactive halt
    rwa [hactive] at hfinish
  rw [if_neg hnone]
  rcases hfetch : p.inFlight with _ | fetch
  · have hhalts : p.stopped.driver.Precedes (.halt halt) := ⟨rfl, hfetch, rfl⟩
    have hpause : (p.stopped.pause (.halt halt) cache).Fits config p.scanning false :=
      fits_pause hhalts
    simpa only [stopped, hfetch] using hpause
  · -- a link is closed, or an attempt taken back, before scanning stops
    dsimp only
    rw [close_eq (.inr rfl)]
    exact .of_silent ⟨rfl, rfl, rfl⟩ rfl (List.forall_mem_cons.mpr
      ⟨rfl, List.forall_mem_singleton.mpr (scanSwitch?_closeCall _ fetch .driver)⟩)

/-- The outcome of a fetch lets the driver turn to the next. -/
theorem fits_settle (h : p.driver.TurnsTo p.queue) (now : Timestamp) (pending : Pending)
    (outcome : Outcome) :
    (p.settle config now pending outcome cache).Fits config p.scanning p.active := by
  obtain ⟨hactive, hidle, hpeers⟩ := h
  cases outcome with
  | ok readings =>
    refine Step.Fits.after (fits_advance (p := { p with
      counters.fetchesSucceeded := p.counters.fetchesSucceeded + 1 }) ⟨hactive, hidle, hpeers⟩) ?_
    intro e he
    rcases List.mem_append.mp he with he | he
    · obtain ⟨warning, -, rfl⟩ := List.mem_map.mp he
      rfl
    · obtain ⟨event, -, rfl⟩ := List.mem_map.mp he
      rfl
  | error e =>
    refine Step.Fits.after (fits_advance (p := { p with
      counters.fetchesFailed := p.counters.fetchesFailed + 1
      counters.fetchesTimedOut := p.counters.fetchesTimedOut + _ }) ⟨hactive, hidle, hpeers⟩) ?_
    simp [Effect.scanSwitch?]

/-- The fetch in flight is over, and the queue may have its turn. -/
theorem turnsTo_queue {g : InFlight} (h : p.driver.Rests config) (hg : p.inFlight = some g) :
    { p with inFlight := none }.driver.TurnsTo p.queue := by
  cases h with
  | idle active inFlight => cases hg.symm.trans inFlight
  | watching active inFlight => cases hg.symm.trans inFlight
  | fetching active g' inFlight phase scanning peers =>
    exact ⟨active, rfl, (List.nodup_cons.mp peers).2⟩

/-- So it does if a link is to be closed first. -/
theorem fits_fetchFinished (h : p.driver.Rests config) (now : Timestamp) (outcome : Outcome) :
    (p.fetchFinished config now outcome cache).Fits config p.scanning p.active := by
  rcases hg : p.inFlight with _ | g
  · have hfinish : p.fetchFinished config now outcome cache = ⟨p.finish, cache, []⟩ := by
      unfold fetchFinished
      rw [hg]
    rw [hfinish]
    exact fits_finish h (List.forall_mem_nil _)
  have hturns := turnsTo_queue h hg
  rw [fetchFinished_of_some hg]
  by_cases hclose : g.fetch ∈ p.links ∨ timedOut outcome = true
  · rw [close_eq (p := { p with inFlight := none }) hclose]
    exact .of_silent ⟨hturns.active, rfl, hturns.peers⟩ rfl
      (List.forall_mem_singleton.mpr (scanSwitch?_closeCall _ g .driver))
  · obtain ⟨hlink, htime⟩ := not_or.mp hclose
    have htime : timedOut outcome = false := by simpa using htime
    rw [htime, close_eq_otherwise (p := { p with inFlight := none }) hlink]
    exact fits_settle (p := { p with inFlight := none }) hturns now g.pending outcome

/-- A report is taken note of only if it is of the present epoch. -/
theorem fits_onReport (h : p.driver.Rests config) (now : Timestamp) (epoch : Nat) {report : Report}
    (hreport : report.IsOrdinary) :
    (p.onReport config now epoch report cache).Fits config p.scanning p.active := by
  rw [onReport.eq_def]
  by_cases hepoch : epoch = p.epoch
  · rw [if_neg (fun hne => hne hepoch)]
    cases report with
    | phase phase =>
      dsimp only
      by_cases hbusy : p.inFlight.isSome = true
      · rw [if_pos hbusy]
        refine fits_finish (p := { p with phase }) ?_ (List.forall_mem_nil _)
        cases h with
        | idle active inFlight => simp [show p.inFlight = none from inFlight] at hbusy
        | watching active inFlight => simp [show p.inFlight = none from inFlight] at hbusy
        | fetching active g inFlight before scanning peers =>
          exact .fetching active g inFlight hreport scanning peers
      · rw [if_neg hbusy]
        exact fits_finish h (List.forall_mem_nil _)
    | finished outcome => exact fits_fetchFinished h now outcome
  · rw [if_pos hepoch]
    exact fits_finish h (List.forall_mem_nil _)

/-- Whether the pipeline is active once a command was dealt with. -/
def activeAfter (p : Pipeline) (cache : Cache) : Command → Bool
  | .sync _ => !cache.subscriptions.isEmpty
  | .shutdown _ => false
  | .report .. => p.active

/-- Each command takes a driver at rest to a consistent state. -/
theorem fits_onCommand (h : p.driver.Rests config) (now : Timestamp) {command : Command}
    (hcommand : command.IsOrdinary) :
    (p.onCommand config now command cache).Fits config p.scanning (p.activeAfter cache command) := by
  cases command with
  | sync ticket =>
    rw [onCommand, activeAfter]
    by_cases hsubs : cache.subscriptions.isEmpty = true
    · rw [if_pos hsubs, hsubs]
      exact fits_deactivate h (.sync ticket)
    · rw [if_neg hsubs, (Bool.not_eq_true _).mp hsubs]
      exact fits_activate h ticket
  | shutdown ticket => exact fits_deactivate h (.shutdown ticket)
  | report id epoch report => exact fits_onReport h now epoch hcommand

/-! ## Sightings -/

/-- A peer in the queue that takes a new stamp stays where it is. -/
theorem map_peer_restamp (peer : RadioId) (stamp : Stamp) (queue : List Pending) :
    (restamp peer stamp queue).map (·.peer) = queue.map (·.peer) := by
  induction queue with
  | nil => rfl
  | cons pending rest ih =>
    rw [restamp]
    by_cases hpeer : pending.peer = peer
    · rw [if_pos hpeer]
      rfl
    · rw [if_neg hpeer, List.map_cons, List.map_cons, ih]

/-- Only a pipeline with a fetch in flight has a queue. -/
theorem rests_restamp (h : p.driver.Rests config) (peer : RadioId) (stamp : Stamp) :
    { p with queue := restamp peer stamp p.queue }.driver.Rests config := by
  cases h with
  | idle active inFlight queue phase scanning =>
    have hqueue : p.queue = [] := queue
    exact .idle active inFlight (by simp [driver, hqueue, restamp]) phase scanning
  | watching active inFlight queue phase =>
    have hqueue : p.queue = [] := queue
    exact .watching active inFlight (by simp [driver, hqueue, restamp]) phase
  | fetching active g inFlight phase scanning peers =>
    refine .fetching active g inFlight phase scanning ?_
    change (g.pending.peer :: (restamp peer stamp p.queue).map (·.peer)).Nodup
    rw [map_peer_restamp]
    exact peers

/-- A new peer is queued: it is fetched at once if nothing is in flight. -/
theorem fits_enqueue (h : p.driver.Rests config) (hactive : p.active = true) (pending : Pending)
    (hflight : (p.inFlight.map fun g => g.pending.peer) ≠ some pending.peer)
    (hqueue : ¬(p.queue.any (·.peer = pending.peer)) = true) :
    (advance { p with queue := p.queue ++ [pending] } config cache).Fits config p.scanning
      p.active := by
  cases h with
  | idle active => cases hactive.symm.trans active
  | watching active inFlight queue phase =>
    have hnone : p.queue = [] := queue
    refine fits_advance (p := { p with queue := p.queue ++ [pending] }) ⟨active, inFlight, ?_⟩
    rw [hnone]
    exact List.nodup_singleton _
  | fetching active g inFlight phase scanning peers =>
    -- the new peer is neither the one that is fetched from nor in the queue
    have hg : p.inFlight = some g := inFlight
    have hne : pending.peer ≠ g.pending.peer := by
      intro heq
      rw [hg, heq] at hflight
      exact hflight rfl
    have hnotMem : pending.peer ∉ p.queue.map (·.peer) := by
      intro hmem
      obtain ⟨other, hother, heq⟩ := List.mem_map.mp hmem
      exact hqueue (List.any_eq_true.mpr ⟨other, hother, decide_eq_true heq⟩)
    rw [advance_of_isSome (p := { p with queue := p.queue ++ [pending] }) (by rw [hg]; rfl)]
    refine fits_finish (p := { p with queue := p.queue ++ [pending] }) ?_ (List.forall_mem_nil _)
    refine .fetching active g inFlight phase scanning ?_
    change (g.pending.peer :: (p.queue ++ [pending]).map (·.peer)).Nodup
    rw [List.map_append, ← List.cons_append]
    refine List.nodup_append.mpr ⟨peers, List.nodup_singleton _, ?_⟩
    intro a ha b hb heq
    obtain rfl := List.mem_singleton.mp hb
    rcases List.mem_cons.mp ha with rfl | ha
    · exact hne heq.symm
    · rw [heq] at ha
      exact hnotMem ha

/-- A sighting takes a driver at rest to a consistent state. -/
theorem fits_onSighting (h : p.driver.Rests config) (now : Timestamp) (sighting : Sighting) :
    (p.onSighting config now sighting cache).Fits config p.scanning p.active := by
  rw [onSighting]
  by_cases hactive : (!p.active) = true
  · rw [if_pos hactive]
    exact fits_finish h (List.forall_mem_nil _)
  rw [if_neg hactive]
  rcases sighting.stamp? with _ | stamp
  · exact fits_finish h (List.forall_mem_nil _)
  refine Step.Fits.after ?_ (by simp [Effect.scanSwitch?])
  have hcounted : ∀ counters, { p with counters }.driver.Rests config := fun _ => h
  split
  · exact fits_finish (hcounted _) (List.forall_mem_nil _)
  split
  · exact fits_finish (hcounted _) (List.forall_mem_nil _)
  rename_i hflight
  split
  · exact fits_finish (rests_restamp (hcounted _) sighting.peer stamp) (List.forall_mem_nil _)
  · rename_i hqueue
    refine fits_enqueue (hcounted _) ?_ ⟨sighting.peer, stamp⟩ ?_ hqueue
    · simpa using hactive
    · exact hflight

/-! ## Answers to the driver -/

/-- The answer of the radio has the driver go on where it waited for it. -/
theorem fits_onScanAnswered (h : p.driver.Consistent config) (result : Except RadioError Unit) :
    (p.onScanAnswered result cache).Fits config p.scanning p.active := by
  have hkeep : Step.Fits ⟨p, cache, []⟩ config p.scanning p.active :=
    .of_silent h rfl (List.forall_mem_nil _)
  rw [onScanAnswered]
  rw [Driver.Consistent] at h
  rcases hcontrol : p.control with _ | ticket | next | ⟨peer, next⟩ | _
  · exact hkeep
  · rw [control_driver, hcontrol] at h
    obtain ⟨hactive, hidle, hqueue, hphase⟩ := h
    cases result with
    | ok _ =>
      exact fits_finishStart (p := { p with scanning := true })
        (.watching hactive hidle hqueue hphase) ticket
    | error e =>
      exact (fits_finishStart (.watching hactive hidle hqueue hphase) ticket).after
        (by simp [Effect.scanSwitch?])
  · rw [control_driver, hcontrol] at h
    obtain ⟨hscanning, hnext⟩ := h
    have hafter : (p.afterPause next cache).Fits config p.scanning p.active :=
      fits_afterPause hnext hscanning
    cases result with
    | ok _ => exact hafter
    | error e => exact hafter.after (by simp [Effect.scanSwitch?])
  · exact hkeep
  · exact hkeep

/-- So does the end of an attempt to close a link. -/
theorem fits_onClosed (h : p.driver.Consistent config) (now : Timestamp) (closing : Closing) :
    (p.onClosed config now closing cache).Fits config p.scanning p.active := by
  have hquiet (peer : RadioId) : ∀ e ∈ closing.warnings peer, e.scanSwitch? = none := by
    cases closing with
    | answered result => exact List.forall_mem_nil _
    | timedOut => exact List.forall_mem_singleton.mpr rfl
  obtain ⟨-, hs⟩ | ⟨peer, halt, hcontrol, hs⟩ | ⟨peer, pending, outcome, hcontrol, hs⟩ :=
    p.onClosed_cases config now closing cache
  · rw [hs]
    exact .of_silent h rfl (List.forall_mem_nil _)
  · rw [Driver.Consistent, control_driver, hcontrol] at h
    rw [hs]
    have hhalts : p.driver.Precedes (.halt halt) := h
    exact Step.Fits.after (fits_pause (p := { p with
      counters.fetchesCancelled := p.counters.fetchesCancelled + 1 }) hhalts) (hquiet peer)
  · rw [Driver.Consistent, control_driver, hcontrol] at h
    rw [hs]
    exact (fits_settle h now pending outcome).after (hquiet peer)

end Pipeline

/-! ## Moves -/

/-- A fetch reports no phases but those of a fetch. -/
theorem Fetch.Answered.isOrdinary {f : Fetch} {id : FetchId} {answer : Answer} {turn : Fetch.Turn}
    (h : f.Answered id answer turn) : ∀ r ∈ turn.reports, r.IsOrdinary := by
  have hfinished : ∀ (outcome : Outcome) (warnings : List Warning),
      ∀ r ∈ (Fetch.finished outcome warnings).reports, r.IsOrdinary := fun _ _ =>
    List.forall_mem_singleton.mpr trivial
  have hproceed : ∀ (f : Fetch) (warnings : List Warning) (targets : List Target),
      ∀ r ∈ (f.proceed id warnings targets).reports, r.IsOrdinary := by
    intro f warnings targets
    cases targets with
    | nil => exact hfinished _ _
    | cons target rest => exact List.forall_mem_nil _
  cases h with
  | refused stage e => exact hfinished _ _
  | connected stage => exact List.forall_mem_singleton.mpr rfl
  | undiscovered stage e => exact hfinished _ _
  | discovered stage services => exact List.forall_mem_cons.mpr ⟨rfl, hproceed _ _ _⟩
  | read target rest stage value => exact hproceed _ _ _
  | dropped target rest stage e loss => exact hfinished _ _
  | skipped target rest stage e loss => exact hproceed _ _ _

/-- True for the turns of fetches. -/
def Move.isTurn : Move → Bool
  | .fetchBegins _ => true
  | .fetchAnswered .. => true
  | .fetchExpires _ => true
  | _ => false

namespace Pipeline

variable {config : Config} {p : Pipeline} {cache : Cache}

/-- The driver sends no messages to itself. -/
theorem GoesOn.commands {s : Step} (h : p.GoesOn s) : s.pipeline.commands = p.commands := by
  cases h with
  | stays same control closing quiet => exact same.commands
  | launches q pending same idle active pipeline quiet =>
    rw [pipeline]
    exact same.commands

theorem Deals.commands {command : Command} {s : Step} (h : p.Deals command s) :
    s.pipeline.commands = p.commands := by
  cases h with
  | goesOn other step => exact step.commands
  | stops idle step => exact step.commands
  | cancels fetch next inFlight pipeline effects =>
    rw [pipeline]
    rfl
  | settles id outcome fetch report inFlight unlinked inTime step => exact step.commands
  | closes id outcome fetch next report inFlight pipeline effects =>
    rw [pipeline]
    rfl

/-- The mailbox holds no reports but those that a fetch may make. -/
def IsOrdinary (p : Pipeline) : Prop := ∀ command ∈ p.commands, command.IsOrdinary

/-- A fetch sends only reports that the driver takes in its stride. -/
theorem IsOrdinary.applyTurn (h : p.IsOrdinary) {id : FetchId} {epoch : Nat} {turn : Fetch.Turn}
    (hturn : ∀ r ∈ turn.reports, r.IsOrdinary) :
    (p.applyTurn id epoch turn cache).pipeline.IsOrdinary := by
  rw [pipeline_applyTurn]
  refine List.forall_mem_append.mpr ⟨h, fun command hmem => ?_⟩
  obtain ⟨said, hsaid, rfl⟩ := List.mem_map.mp hmem
  exact hturn said hsaid

/-- **Every move leaves ordinary reports in the mailbox.** -/
theorem IsOrdinary.move (h : p.IsOrdinary) (hp : p.Coherent) (now : Timestamp) {move : Move}
    (hmove : move.IsGenuine) : (p.move config now cache move).pipeline.IsOrdinary := by
  have hmoves := hp.moves config now cache move
  generalize p.move config now cache move = s at hmoves
  cases hmoves with
  | rests => exact h
  | sent command =>
    refine List.forall_mem_append.mpr ⟨h, List.forall_mem_singleton.mpr ?_⟩
    cases command with
    | sync ticket => trivial
    | shutdown ticket => trivial
    | report id epoch said => cases hmove
  | heard sighting => exact h
  | dealt command rest s closing commands step =>
    intro c hc
    rw [step.commands] at hc
    refine h c ?_
    rw [commands]
    exact List.mem_cons_of_mem _ hc
  | sighted s closing step => exact fun c hc => h c (step.commands ▸ hc)
  | scanned result s closing step => exact fun c hc => h c (step.commands ▸ hc)
  | closed result s closing step => exact fun c hc => h c (step.commands ▸ hc)
  | begun id f fetch stage => exact h.applyTurn (List.forall_mem_nil _)
  | answered id f fetch answer turn answered => exact h.applyTurn answered.isOrdinary
  | expired id f fetch outcome late =>
    exact h.applyTurn (List.forall_mem_singleton.mpr trivial)

/-- The command that the driver takes if it takes one now. -/
def taken? (p : Pipeline) : Option Command :=
  match p.control with
  | .waiting => p.commands.head?
  | _ => none

/-- Where no command can be taken, nothing happens. -/
theorem move_takeCommand_of_none (h : p.taken? = none) (now : Timestamp) (cache : Cache) :
    p.move config now cache .takeCommand = ⟨p, cache, []⟩ := by
  rcases p.takeCommand_cases config now cache with
    hstep | ⟨command, rest, hcontrol, hcommands, hstep⟩
  · exact hstep
  · rw [taken?, hcontrol, hcommands] at h
    cases h

/-- The driver takes a command only while it waits for one. -/
theorem of_taken {command : Command} (h : p.taken? = some command) :
    p.control = .waiting ∧ p.commands = command :: p.commands.tail := by
  have hcontrol : p.control = .waiting := by
    rw [taken?] at h
    split at h
    · assumption
    · cases h
  rw [taken?, hcontrol] at h
  exact ⟨hcontrol, List.eq_cons_of_mem_head? h⟩

theorem move_takeCommand {command : Command} (h : p.taken? = some command) (config : Config)
    (now : Timestamp) (cache : Cache) :
    p.move config now cache .takeCommand =
      onCommand { p with commands := p.commands.tail } config now command cache := by
  obtain ⟨hcontrol, hcommands⟩ := of_taken h
  unfold Pipeline.move
  rw [hcontrol, hcommands]
  rfl

/-- Whether the pipeline is active after a move: commands apart, it is if it was. -/
def activeNext (p : Pipeline) (cache : Cache) : Move → Bool
  | .takeCommand => (p.taken?.map (p.activeAfter cache)).getD p.active
  | _ => p.active

/-- A turn of a fetch is none of the driver's business, and switches nothing. -/
theorem fits_applyTurn (h : p.driver.Consistent config) {id : FetchId} {epoch : Nat}
    {turn : Fetch.Turn} (hcall : ∀ next call, turn.next = some (next, call) →
      (Effect.call (.fetch id) call).scanSwitch? = none) :
    (p.applyTurn id epoch turn cache).Fits config p.scanning p.active := by
  have hdriver : (p.applyTurn id epoch turn cache).pipeline.driver = p.driver := by
    rw [pipeline_applyTurn]
    rfl
  refine .of_silent (hdriver ▸ h) (congrArg Driver.active hdriver) ?_
  rw [applyTurn]
  rcases hnext : turn.next with _ | ⟨next, call⟩
  · simp [Effect.scanSwitch?]
  · refine List.forall_mem_append.mpr ⟨by simp [Effect.scanSwitch?], ?_⟩
    exact List.forall_mem_singleton.mpr (hcall next call hnext)

/-- A fetch never switches scanning. -/
theorem scanSwitch?_of_answered {f : Fetch} {id : FetchId} {answer : Answer} {turn : Fetch.Turn}
    (h : f.Answered id answer turn) (next : Fetch) (call : Call)
    (hnext : turn.next = some (next, call)) : (Effect.call (.fetch id) call).scanSwitch? = none := by
  have hproceed : ∀ (f : Fetch) (warnings : List Warning) (targets : List Target),
      (f.proceed id warnings targets).next = some (next, call) →
      (Effect.call (.fetch id) call).scanSwitch? = none := by
    intro f warnings targets hnext
    cases targets with
    | nil => cases hnext
    | cons target rest =>
      cases hnext
      rfl
  cases h with
  | refused stage e => cases hnext
  | connected stage =>
    cases hnext
    rfl
  | undiscovered stage e => cases hnext
  | discovered stage services => exact hproceed _ _ _ hnext
  | read target rest stage value => exact hproceed _ _ _ hnext
  | dropped target rest stage e loss => cases hnext
  | skipped target rest stage e loss => exact hproceed _ _ _ hnext

/-- A fetch has its turn, which does not switch scanning, or the move is not possible. -/
theorem turn_cases (p : Pipeline) (config : Config) (now : Timestamp) (cache : Cache) {move : Move}
    (hmove : move.isTurn = true) :
    p.move config now cache move = ⟨p, cache, []⟩ ∨
      ∃ id epoch turn, p.move config now cache move = p.applyTurn id epoch turn cache ∧
        ∀ next call, turn.next = some (next, call) →
          (Effect.call (.fetch id) call).scanSwitch? = none := by
  cases move with
  | fetchBegins id =>
    rw [Pipeline.move.eq_def]
    dsimp only
    split
    · split
      · refine .inr ⟨id, _, _, rfl, fun next call hnext => ?_⟩
        cases hnext
        rfl
      · exact .inl rfl
    · exact .inl rfl
  | fetchAnswered id answer =>
    rw [Pipeline.move.eq_def]
    dsimp only
    split
    · split
      · rename_i turn hturn
        exact .inr ⟨id, _, _, rfl, scanSwitch?_of_answered (Fetch.answered_of_resume hturn)⟩
      · exact .inl rfl
    · exact .inl rfl
  | fetchExpires id =>
    rw [Pipeline.move.eq_def]
    dsimp only
    split
    · exact .inr ⟨id, _, _, rfl, fun next call hnext => by cases hnext⟩
    · exact .inl rfl
  | send | hear | takeCommand | takeSighting | scanAnswered | closed => cases hmove

/-- **Every move keeps the state of the driver consistent**, and starts and stops scanning only where
there is reason to. -/
theorem fits_move (h : p.driver.Consistent config) (hordinary : p.IsOrdinary) (now : Timestamp)
    (cache : Cache) (move : Move) :
    (p.move config now cache move).Fits config p.scanning (p.activeNext cache move) := by
  have hkeep : Step.Fits ⟨p, cache, []⟩ config p.scanning p.active :=
    .of_silent h rfl (List.forall_mem_nil _)
  have hrests : p.control = .waiting → p.driver.Rests config := h.rests
  by_cases hmove : move.isTurn = true
  · have hactive : p.activeNext cache move = p.active := by
      cases move with
      | takeCommand => cases hmove
      | send | hear | takeSighting | scanAnswered | closed => rfl
      | fetchBegins | fetchAnswered | fetchExpires => rfl
    rw [hactive]
    rcases p.turn_cases config now cache hmove with hstep | ⟨id, epoch, turn, hstep, hcall⟩
    · rw [hstep]
      exact hkeep
    · rw [hstep]
      exact fits_applyTurn h hcall
  cases move with
  | send command => exact .of_silent h rfl (List.forall_mem_nil _)
  | hear sighting => exact .of_silent h rfl (List.forall_mem_nil _)
  | takeCommand =>
    rw [activeNext]
    rcases htaken : p.taken? with _ | command
    · rw [move_takeCommand_of_none htaken now cache]
      exact hkeep
    · obtain ⟨hcontrol, hcommands⟩ := of_taken htaken
      have hcommand : command.IsOrdinary := by
        refine hordinary command ?_
        rw [hcommands]
        exact List.mem_cons_self
      rw [move_takeCommand htaken config now cache]
      exact fits_onCommand (p := { p with commands := p.commands.tail }) (hrests hcontrol) now
        hcommand
  | takeSighting =>
    rcases p.takeSighting_cases config now cache with
      hstep | ⟨sighting, rest, hcontrol, hsightings, hstep⟩
    · rw [hstep]
      exact hkeep
    · rw [hstep]
      exact fits_onSighting (p := { p with sightings := rest }) (hrests hcontrol) now sighting
  | scanAnswered result => exact fits_onScanAnswered h result
  | closed closing => exact fits_onClosed h now closing
  | fetchBegins | fetchAnswered | fetchExpires => exact absurd rfl hmove

end Pipeline

/-! ## Runs -/

/-- True for what happens while reports come from fetches. The radio may do as it likes. -/
def Happening.IsGenuine : Happening → Prop
  | .moves _ move => move.IsGenuine
  | _ => True

namespace System

/-- The invariant of a run in which reports come from fetches. -/
structure IsOrderly (config : Config) (s : System) : Prop where
  coherent : s.pipeline.Coherent
  consistent : s.pipeline.driver.Consistent config
  ordinary : s.pipeline.IsOrdinary

variable {config : Config}

theorem isOrderly_initial (cache : Cache) : (initial cache).IsOrderly config where
  coherent := Pipeline.coherent_initial
  consistent := Driver.Rests.idle rfl rfl rfl rfl rfl
  ordinary := List.forall_mem_nil _

/-- Whatever happens leaves a system orderly. -/
theorem IsOrderly.after {s : System} (h : s.IsOrderly config) {happening : Happening}
    (hgenuine : happening.IsGenuine) : (s.after config happening).IsOrderly config := by
  cases happening with
  | moves now move =>
    exact ⟨h.coherent.move config now s.cache hgenuine,
      (Pipeline.fits_move h.consistent h.ordinary now s.cache move).consistent,
      h.ordinary.move h.coherent now hgenuine⟩
  | caches cache => exact ⟨h.coherent, h.consistent, h.ordinary⟩
  | turns link connected => exact ⟨h.coherent, h.consistent, h.ordinary⟩
  | loses link => exact ⟨h.coherent, h.consistent, h.ordinary⟩

theorem IsOrderly.run {s : System} (h : s.IsOrderly config) {happenings : List Happening}
    (hgenuine : ∀ x ∈ happenings, x.IsGenuine) : (s.run config happenings).IsOrderly config := by
  induction happenings generalizing s with
  | nil => exact h
  | cons x rest ih =>
    obtain ⟨hx, hrest⟩ := List.forall_mem_cons.mp hgenuine
    exact ih (h.after hx) hrest

/-- **Between two messages the state of the driver fits together**, whatever happened before and
however the radio answered: an inactive pipeline is idle, an active one without a fetch in flight
waits for sightings with an empty queue, and while a fetch is in flight the pipeline is active, in a
phase of the fetch, and not scanning if scanning is to pause. No peer is to be fetched twice. And at
all times scanning is started only where it does not go on, and stopped only where it does. -/
theorem driver_fits_together (config : Config) (cache : Cache) {happenings : List Happening}
    (hgenuine : ∀ x ∈ happenings, x.IsGenuine) :
    let p := ((initial cache).run config happenings).pipeline
    (p.control = .waiting ∨ p.control = .exited →
      (p.active = false →
        p.inFlight = none ∧ p.queue = [] ∧ p.phase = .idle ∧ p.scanning = false) ∧
      (p.active = true → p.inFlight = none → p.queue = [] ∧ p.phase = .scanning) ∧
      (p.inFlight.isSome = true →
        p.active = true ∧ p.phase ∈ [.connecting, .discovering, .reading] ∧
          (config.pauseScanDuringFetch = true → p.scanning = false)) ∧
      (p.inFlight.toList.map (·.pending.peer) ++ p.queue.map (·.peer)).Nodup) ∧
    ∀ now cache move caller,
      (∀ manufacturerId, .call caller (.startScan manufacturerId) ∈
        (p.move config now cache move).effects → p.scanning = false) ∧
      (.call caller .stopScan ∈ (p.move config now cache move).effects → p.scanning = true) := by
  intro p
  have h : IsOrderly config _ := (isOrderly_initial cache).run hgenuine
  refine ⟨fun hbetween => ?_, fun now cache move caller => ?_⟩
  · have hrests : p.driver.Rests config := by
      have hconsistent := h.consistent
      rw [Driver.Consistent] at hconsistent
      rcases hbetween with hcontrol | hcontrol
      · rwa [show Driver.control _ = p.control from rfl, hcontrol] at hconsistent
      · rw [show Driver.control _ = p.control from rfl, hcontrol] at hconsistent
        exact hconsistent.2
    refine ⟨hrests.of_inactive, hrests.of_free, fun hbusy => ?_, hrests.nodup_peers⟩
    obtain ⟨hactive, hphase, hscanning⟩ := hrests.of_busy hbusy
    exact ⟨hactive, p.phase.isFetching_iff.mp hphase, hscanning⟩
  · have hfits := Pipeline.fits_move h.consistent h.ordinary now cache move
    exact ⟨fun _ hmem => hfits.switches _ hmem true rfl, fun hmem => hfits.switches _ hmem false rfl⟩

/-- Somebody subscribes, and the radio refuses to scan. Two peers are met nevertheless, one of them
twice; the attempt to connect to the first gets through. -/
def rush : List Happening :=
  [.caches { Cache.new .default with subscriptions := [⟨"", ⟨"list"⟩⟩] },
    .moves ⟨0⟩ (.send (.sync 0)), .moves ⟨1⟩ .takeCommand,
    .moves ⟨2⟩ (.scanAnswered (.error (.scan "busy"))),
    .moves ⟨3⟩ (.hear ⟨⟨"aa"⟩, Stamp.payload ⟨7⟩⟩), .moves ⟨3⟩ (.hear ⟨⟨"bb"⟩, Stamp.payload ⟨8⟩⟩),
    .moves ⟨3⟩ (.hear ⟨⟨"bb"⟩, Stamp.payload ⟨9⟩⟩), .moves ⟨4⟩ .takeSighting,
    .moves ⟨4⟩ .takeSighting, .moves ⟨4⟩ .takeSighting, .moves ⟨5⟩ (.fetchBegins 0),
    .moves ⟨6⟩ (.fetchAnswered 0 (.done (.ok ()))), .moves ⟨7⟩ .takeCommand]

theorem driver_fits_rush :
    let p := ((initial (.new .default)).run .default rush).pipeline
    p.inFlight.isSome = true ∧ p.queue = [⟨⟨"bb"⟩, ⟨9⟩⟩] ∧ p.phase = .discovering ∧
      p.active = true ∧ p.scanning = false := by
  intro p
  have hgenuine : ∀ x ∈ rush, x.IsGenuine := by
    simp [rush, Happening.IsGenuine, Move.IsGenuine]
  have hcontrol : p.control = .waiting := by rfl
  have hbusy : p.inFlight.isSome = true := by decide +kernel
  obtain ⟨-, -, hfetching, -⟩ :=
    (driver_fits_together .default (.new .default) hgenuine).1 (.inl hcontrol)
  obtain ⟨hactive, -, hscanning⟩ := hfetching hbusy
  exact ⟨hbusy, by decide +kernel, by decide +kernel, hactive, hscanning rfl⟩

end System

end Nearby.Scan
