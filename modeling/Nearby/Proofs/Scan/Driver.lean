import Nearby.Scan.Pipeline

/-!
# What the driver does with a message

Most of what the driver does is none of the fetches' business: it starts and stops to scan, counts,
tells callers and subscribers, and turns to the next message. Then all stays as it is with fetches,
reports and links (`Pipeline.SameFetches`), save that one fetch may be launched when there is none.
`Pipeline.GoesOn` says so, and it is all that is used of these steps later on.

What else there is concerns the fetch in flight: a stop cancels it, a report ends it, and either may
have its link closed. `Pipeline.Deals` lists the ways in which the driver deals with a command.
-/

namespace Nearby.Scan

/-- True for the calls that open and close links. -/
def Effect.isLinkCall : Effect → Bool
  | .call _ (.connect ..) => true
  | .call _ (.disconnect _) => true
  | .call _ (.cancelConnect _) => true
  | _ => false

/-- The warning about a link that was not closed in time. -/
def Closing.warnings (peer : RadioId) : Closing → List Effect
  | .timedOut => [.warn (.disconnectTimedOut peer)]
  | .answered _ => []

/-- None of the effects opens or closes a link. -/
def IsQuiet (effects : List Effect) : Prop := ∀ e ∈ effects, e.isLinkCall = false

theorem isQuiet_nil : IsQuiet [] := List.forall_mem_nil _

/-- A call that is not about a link, or a warning, is quiet. -/
theorem isQuiet_singleton {e : Effect} (h : e.isLinkCall = false) : IsQuiet [e] :=
  List.forall_mem_singleton.mpr h

theorem IsQuiet.append {a b : List Effect} (ha : IsQuiet a) (hb : IsQuiet b) : IsQuiet (a ++ b) :=
  List.forall_mem_append.mpr ⟨ha, hb⟩

theorem isQuiet_map {α : Type} {f : α → Effect} (h : ∀ a, (f a).isLinkCall = false) (l : List α) :
    IsQuiet (l.map f) := by
  intro e he
  obtain ⟨a, -, rfl⟩ := List.mem_map.mp he
  exact h a

theorem isQuiet_warnings (peer : RadioId) (closing : Closing) : IsQuiet (closing.warnings peer) := by
  cases closing with
  | answered result => exact isQuiet_nil
  | timedOut => exact isQuiet_singleton rfl

namespace Pipeline

/-- With fetches, reports and links, the second pipeline is where the first is. -/
structure SameFetches (p q : Pipeline) : Prop where
  inFlight : q.inFlight = p.inFlight
  epoch : q.epoch = p.epoch
  commands : q.commands = p.commands
  fetches : q.fetches = p.fetches
  links : q.links = p.links
  nextFetch : q.nextFetch = p.nextFetch
  active : p.active = true → q.active = true

theorem SameFetches.refl (p : Pipeline) : p.SameFetches p := ⟨rfl, rfl, rfl, rfl, rfl, rfl, id⟩

/-- To leave the fetches alone twice is to leave them alone. -/
theorem SameFetches.trans {p q r : Pipeline} (h : p.SameFetches q) (k : q.SameFetches r) :
    p.SameFetches r where
  inFlight := k.inFlight.trans h.inFlight
  epoch := k.epoch.trans h.epoch
  commands := k.commands.trans h.commands
  fetches := k.fetches.trans h.fetches
  links := k.links.trans h.links
  nextFetch := k.nextFetch.trans h.nextFetch
  active hp := k.active (h.active hp)

/-- True while the driver waits for a link to be closed. -/
def isClosing (p : Pipeline) : Bool :=
  match p.control with
  | .closing .. => true
  | _ => false

/-- The driver waits for the radio only when no fetch is in flight, and it only stops scanning for a
fetch while it is active. -/
def ControlFits (p : Pipeline) : Prop :=
  match p.control with
  | .waiting => True
  | .stopping (.launch _) => p.inFlight = none ∧ p.active = true
  | _ => p.inFlight = none

/-- No fetch is in flight while a link is closed. -/
theorem ControlFits.idle_of_isClosing {p : Pipeline} (h : p.ControlFits)
    (hclosing : p.isClosing = true) : p.inFlight = none := by
  rw [ControlFits] at h
  rw [isClosing] at hclosing
  split at hclosing
  · rename_i peer next hcontrol
    rw [hcontrol] at h
    exact h
  · cases hclosing

/-- The driver goes on from a pipeline with what does not concern the fetches, or launches one. -/
inductive GoesOn (p : Pipeline) (s : Step) : Prop
  | stays (same : p.SameFetches s.pipeline) (control : s.pipeline.ControlFits)
    (closing : s.pipeline.isClosing = false) (quiet : IsQuiet s.effects)
  | launches (q : Pipeline) (pending : Pending) (same : p.SameFetches q)
    (idle : p.inFlight = none) (active : q.active = true)
    (pipeline : s.pipeline = (q.launch pending s.cache).pipeline) (quiet : IsQuiet s.effects)

namespace GoesOn

variable {p q : Pipeline} {s : Step} {cache : Cache}

/-- What was done before does not matter if it left the fetches alone. -/
theorem of_same (hs : q.GoesOn s) (h : p.SameFetches q) : p.GoesOn s := by
  cases hs with
  | stays same control closing quiet => exact .stays (h.trans same) control closing quiet
  | launches r pending same idle active pipeline quiet =>
    exact .launches r pending (h.trans same) (h.inFlight ▸ idle) active pipeline quiet

/-- Quiet effects ahead of a step do not matter. -/
theorem after (hs : p.GoesOn s) {effects : List Effect} (h : IsQuiet effects) :
    p.GoesOn (s.after effects) := by
  cases hs with
  | stays same control closing quiet => exact .stays same control closing (h.append quiet)
  | launches r pending same idle active pipeline quiet =>
    exact .launches r pending same idle active pipeline (h.append quiet)

/-- To go on is quiet: a fetch that is launched opens its link only later. -/
theorem quiet (hs : p.GoesOn s) : IsQuiet s.effects := by
  cases hs with
  | stays same control closing quiet => exact quiet
  | launches q pending same idle active pipeline quiet => exact quiet

/-- To wait for the next message leaves the fetches alone. -/
theorem finish (p : Pipeline) {effects : List Effect} (h : IsQuiet effects) :
    p.GoesOn ⟨p.finish, cache, effects⟩ :=
  .stays ⟨rfl, rfl, rfl, rfl, rfl, rfl, id⟩ trivial rfl h

theorem finishStart (p : Pipeline) (ticket : Option Ticket) :
    p.GoesOn (p.finishStart ticket cache) :=
  finish p (isQuiet_map (fun _ => rfl) _)

/-- A halt may come to its end only when no fetch is in flight. -/
theorem finishHalt (h : p.inFlight = none) (halt : Halt) : p.GoesOn (p.finishHalt halt cache) := by
  cases halt with
  | sync ticket => exact finish p (isQuiet_singleton rfl)
  | shutdown ticket =>
    exact .stays ⟨rfl, rfl, rfl, rfl, rfl, rfl, id⟩ h rfl (isQuiet_singleton rfl)

/-- A fetch may be launched when there is none. -/
theorem launch (h : p.inFlight = none) (hactive : p.active = true) (pending : Pending) :
    p.GoesOn (p.launch pending cache) :=
  .launches p pending (.refl p) h hactive rfl (isQuiet_singleton rfl)

/-- Once scanning has stopped, the driver ends a halt, or launches the fetch it has stopped for. -/
theorem afterPause (h : p.inFlight = none) {next : AfterPause}
    (hnext : ∀ pending, next = .launch pending → p.active = true) :
    p.GoesOn (p.afterPause next cache) := by
  cases next with
  | halt halt =>
    exact (finishHalt (p := { p with phase := .idle }) h halt).of_same
      ⟨rfl, rfl, rfl, rfl, rfl, rfl, id⟩
  | launch pending => exact launch h (hnext pending rfl) pending

/-- So it is also where there is nothing to stop. -/
theorem pause (h : p.inFlight = none) {next : AfterPause}
    (hnext : ∀ pending, next = .launch pending → p.active = true) :
    p.GoesOn (p.pause next cache) := by
  rw [Pipeline.pause]
  by_cases hscan : p.scanning = true
  · rw [if_pos hscan]
    refine .stays ⟨rfl, rfl, rfl, rfl, rfl, rfl, id⟩ ?_ rfl (isQuiet_singleton rfl)
    cases next with
    | halt halt => exact h
    | launch pending => exact ⟨h, hnext pending rfl⟩
  · rw [if_neg hscan]
    exact afterPause h hnext

/-- To start scanning again leaves the fetches alone, whether the radio is asked or not. -/
theorem resume (h : p.inFlight = none) (config : Config) (ticket : Option Ticket) :
    p.GoesOn (p.resume config ticket cache) := by
  rw [Pipeline.resume]
  by_cases hscan : p.scanning = true
  · rw [if_pos hscan]
    exact finishStart p ticket
  · rw [if_neg hscan]
    exact .stays ⟨rfl, rfl, rfl, rfl, rfl, rfl, id⟩ h rfl (isQuiet_singleton rfl)

/-- The driver turns to the next in the queue, or goes on scanning. -/
theorem advance (p : Pipeline) (config : Config) : p.GoesOn (p.advance config cache) := by
  rw [Pipeline.advance]
  by_cases hbusy : (p.inFlight.isSome || !p.active) = true
  · rw [if_pos hbusy]
    exact finish p isQuiet_nil
  rw [if_neg hbusy]
  obtain ⟨hidle, hactive⟩ : p.inFlight = none ∧ p.active = true := by simpa using hbusy
  rcases p.queue with _ | ⟨pending, queue⟩
  · exact (resume (p := { p with phase := .scanning, queue := [] }) hidle config none).of_same
      ⟨rfl, rfl, rfl, rfl, rfl, rfl, id⟩
  · refine of_same (q := { p with queue }) ?_ ⟨rfl, rfl, rfl, rfl, rfl, rfl, id⟩
    dsimp only
    by_cases hpause : config.pauseScanDuringFetch = true
    · rw [if_pos hpause]
      exact pause (p := { p with queue }) hidle fun _ _ => hactive
    · rw [if_neg hpause]
      exact launch (p := { p with queue }) hidle hactive pending

/-- The driver turns active, unless it is so already. -/
theorem activate (h : p.active = false → p.inFlight = none) (config : Config) (ticket : Ticket) :
    p.GoesOn (p.activate config ticket cache) := by
  rw [Pipeline.activate]
  by_cases hactive : p.active = true
  · rw [if_pos hactive]
    exact finishStart p (some ticket)
  · rw [if_neg hactive]
    have hidle : p.inFlight = none := h (by simpa using hactive)
    exact (resume (p := { p with active := true, phase := .scanning }) hidle config
      (some ticket)).of_same ⟨rfl, rfl, rfl, rfl, rfl, rfl, fun _ => rfl⟩

/-- The outcome of a fetch is counted, the cache is told, and the driver turns to the next. -/
theorem settle (p : Pipeline) (config : Config) (now : Timestamp) (pending : Pending)
    (outcome : Outcome) : p.GoesOn (p.settle config now pending outcome cache) := by
  cases outcome with
  | ok readings =>
    have hquiet := (isQuiet_map (f := Effect.warn) (fun _ => rfl)
      (decodeReadings pending.peer readings).2).append
      (isQuiet_map (f := Effect.event) (fun _ => rfl) (cache.fetched now pending.stamp pending.peer
        (decodeReadings pending.peer readings).1).events)
    exact of_same ((advance _ config).after hquiet) ⟨rfl, rfl, rfl, rfl, rfl, rfl, id⟩
  | error e =>
    exact of_same ((advance _ config).after (isQuiet_singleton rfl))
      ⟨rfl, rfl, rfl, rfl, rfl, rfl, id⟩

/-- A sighting joins the queue, or has a fetch launched, or makes no difference. -/
theorem onSighting (p : Pipeline) (config : Config) (now : Timestamp) (sighting : Sighting) :
    p.GoesOn (p.onSighting config now sighting cache) := by
  rw [Pipeline.onSighting]
  by_cases hactive : (!p.active) = true
  · rw [if_pos hactive]
    exact finish p isQuiet_nil
  rw [if_neg hactive]
  rcases sighting.stamp? with _ | stamp
  · exact finish p isQuiet_nil
  refine after ?_ (isQuiet_map (fun _ => rfl) _)
  split
  · exact of_same (finish _ isQuiet_nil) ⟨rfl, rfl, rfl, rfl, rfl, rfl, id⟩
  split
  · exact of_same (finish _ isQuiet_nil) ⟨rfl, rfl, rfl, rfl, rfl, rfl, id⟩
  split
  · exact of_same (finish _ isQuiet_nil) ⟨rfl, rfl, rfl, rfl, rfl, rfl, id⟩
  · exact of_same (advance _ config) ⟨rfl, rfl, rfl, rfl, rfl, rfl, id⟩

end GoesOn

/-! ## Closing links -/

/-- The driver waits for the link of a fetch to be closed. -/
def closing (p : Pipeline) (fetch : InFlight) (next : AfterClose) : Pipeline :=
  { p with links := p.links.erase fetch.fetch, control := .closing fetch.pending.peer next }

/-- What closes the link of a fetch, or takes the attempt to open one back. -/
def closeCall (p : Pipeline) (fetch : InFlight) : Call :=
  if fetch.fetch ∈ p.links then .disconnect fetch.fetch else .cancelConnect fetch.pending.peer

/-- A link that is held is closed, and an attempt to open one that was abandoned is taken back. -/
theorem close_eq {p : Pipeline} {fetch : InFlight} {abandoned : Bool}
    (h : fetch.fetch ∈ p.links ∨ abandoned = true) (next : AfterClose)
    (otherwise : Pipeline → Step) (cache : Cache) :
    p.close fetch abandoned next otherwise cache =
      ⟨p.closing fetch next, cache, [.call .driver (p.closeCall fetch)]⟩ := by
  rw [close, closing, closeCall]
  by_cases hlink : fetch.fetch ∈ p.links
  · rw [if_pos hlink, if_pos hlink]
  · have habandoned : abandoned = true := h.resolve_left hlink
    rw [if_neg hlink, if_pos habandoned, if_neg hlink, List.erase_of_not_mem hlink]

/-- Where there is nothing to close, the driver goes on at once. -/
theorem close_eq_otherwise {p : Pipeline} {fetch : InFlight} (h : fetch.fetch ∉ p.links)
    (next : AfterClose) (otherwise : Pipeline → Step) (cache : Cache) :
    p.close fetch false next otherwise cache = otherwise p := by
  rw [close, if_neg h]
  rfl

/-! ## Commands -/

/-- True if a fetch took too long. -/
def timedOut : Outcome → Bool
  | .error (.timeout _) => true
  | _ => false

/-- The pipeline as a stop leaves it before it turns to the fetch in flight. -/
def stopped (p : Pipeline) : Pipeline :=
  { p with active := false, epoch := p.epoch + 1, queue := [] }

/-- The ways in which the driver deals with a command that it has taken from its mailbox. -/
inductive Deals (p : Pipeline) (command : Command) (s : Step) : Prop
  /-- The command is not about the fetch in flight. -/
  | goesOn (other : ∀ id outcome, command = .report id p.epoch (.finished outcome) →
      p.inFlight = none) (step : p.GoesOn s)
  /-- A stop, with no fetch in flight. -/
  | stops (idle : p.inFlight = none) (step : p.stopped.GoesOn s)
  /-- A stop, which cancels the fetch in flight. -/
  | cancels (fetch : InFlight) (next : AfterClose) (inFlight : p.inFlight = some fetch)
    (pipeline : s.pipeline =
      closing { p.stopped with inFlight := none, fetches := p.fetches.erase fetch.fetch } fetch next)
    (effects : s.effects = [.cancel fetch.fetch, .call .driver (p.closeCall fetch)])
  /-- The fetch in flight is over, and holds no link. -/
  | settles (id : FetchId) (outcome : Outcome) (fetch : InFlight)
    (report : command = .report id p.epoch (.finished outcome)) (inFlight : p.inFlight = some fetch)
    (unlinked : fetch.fetch ∉ p.links) (inTime : timedOut outcome = false)
    (step : GoesOn { p with inFlight := none } s)
  /-- The fetch in flight is over, and what it holds is given back. -/
  | closes (id : FetchId) (outcome : Outcome) (fetch : InFlight) (next : AfterClose)
    (report : command = .report id p.epoch (.finished outcome)) (inFlight : p.inFlight = some fetch)
    (pipeline : s.pipeline = closing { p with inFlight := none } fetch next)
    (effects : s.effects = [.call .driver (p.closeCall fetch)])

variable {p : Pipeline} {cache : Cache}

/-- A stop cancels the fetch in flight, if there is one. -/
theorem deals_deactivate {command : Command}
    (hc : ∀ id epoch report, command ≠ .report id epoch report) (halt : Halt) :
    p.Deals command (p.deactivate halt cache) := by
  rw [deactivate]
  by_cases hnone : (!p.active && p.inFlight.isNone) = true
  · rw [if_pos hnone]
    have hidle : p.inFlight = none := by
      simp only [Bool.and_eq_true, Option.isNone_iff_eq_none] at hnone
      exact hnone.2
    exact .goesOn (fun id outcome h => absurd h (hc id _ _)) (.finishHalt hidle halt)
  rw [if_neg hnone]
  -- a cancelled fetch is always abandoned: what it has is given back whether or not it is a link
  rcases hfetch : p.inFlight with _ | fetch
  · have hpause : p.stopped.GoesOn (p.stopped.pause (.halt halt) cache) :=
      .pause (p := p.stopped) hfetch fun pending hpending => by cases hpending
    exact .stops hfetch (by simpa only [stopped, hfetch] using hpause)
  · dsimp only
    rw [close_eq (.inr rfl)]
    exact .cancels fetch (.halt halt) hfetch rfl rfl

/-- What a fetch in flight holds is closed before its outcome is dealt with. -/
theorem fetchFinished_of_some {fetch : InFlight} (h : p.inFlight = some fetch) (config : Config)
    (now : Timestamp) (outcome : Outcome) :
    p.fetchFinished config now outcome cache =
      { p with inFlight := none }.close fetch (timedOut outcome) (.settle fetch.pending outcome)
        (fun p => p.settle config now fetch.pending outcome cache) cache := by
  unfold fetchFinished
  rw [h]
  rfl

/-- The outcome of a fetch ends it, and may have its link closed. -/
theorem deals_fetchFinished (config : Config) (now : Timestamp) (id : FetchId) (outcome : Outcome) :
    p.Deals (.report id p.epoch (.finished outcome))
      (p.fetchFinished config now outcome cache) := by
  rcases hfetch : p.inFlight with _ | fetch
  · have hfinish : p.fetchFinished config now outcome cache = ⟨p.finish, cache, []⟩ := by
      unfold fetchFinished
      rw [hfetch]
    rw [hfinish]
    exact .goesOn (fun _ _ _ => hfetch) (.finish p isQuiet_nil)
  rw [fetchFinished_of_some hfetch]
  by_cases hclose : fetch.fetch ∈ p.links ∨ timedOut outcome = true
  · rw [close_eq (p := { p with inFlight := none }) hclose]
    exact .closes id outcome fetch (.settle fetch.pending outcome) rfl hfetch rfl rfl
  · obtain ⟨hlink, htime⟩ := not_or.mp hclose
    have htime : timedOut outcome = false := by simpa using htime
    rw [htime, close_eq_otherwise (p := { p with inFlight := none }) hlink]
    exact .settles id outcome fetch rfl hfetch hlink htime (.settle _ config now _ outcome)

/-- Any other report is dealt with in passing: a phase is taken note of, and what was reported before
the last stop is dropped. -/
theorem goesOn_onReport {epoch : Nat} {said : Report}
    (hother : ∀ outcome, epoch = p.epoch → said ≠ .finished outcome) (config : Config)
    (now : Timestamp) : p.GoesOn (p.onReport config now epoch said cache) := by
  rw [onReport.eq_def]
  by_cases hepoch : epoch = p.epoch
  · rw [if_neg (fun hne => hne hepoch)]
    cases said with
    | phase phase =>
      dsimp only
      by_cases hbusy : p.inFlight.isSome = true
      · rw [if_pos hbusy]
        exact (GoesOn.finish _ isQuiet_nil).of_same ⟨rfl, rfl, rfl, rfl, rfl, rfl, id⟩
      · rw [if_neg hbusy]
        exact .finish p isQuiet_nil
    | finished outcome => exact absurd rfl (hother outcome hepoch)
  · rw [if_pos hepoch]
    exact .finish p isQuiet_nil

/-- **The driver deals with every command in one of these ways.** -/
theorem deals_onCommand (h : p.active = false → p.inFlight = none) (config : Config)
    (now : Timestamp) (command : Command) :
    p.Deals command (p.onCommand config now command cache) := by
  cases command with
  | sync ticket =>
    rw [onCommand]
    by_cases hsubs : cache.subscriptions.isEmpty = true
    · rw [if_pos hsubs]
      exact deals_deactivate (fun _ _ _ h => by cases h) (.sync ticket)
    · rw [if_neg hsubs]
      exact .goesOn (fun _ _ h => by cases h) (.activate h config ticket)
  | shutdown ticket => exact deals_deactivate (fun _ _ _ h => by cases h) (.shutdown ticket)
  | report fetch epoch report =>
    by_cases hover : ∃ outcome, epoch = p.epoch ∧ report = .finished outcome
    · obtain ⟨outcome, rfl, rfl⟩ := hover
      rw [onCommand, onReport.eq_def, if_neg (fun h => h rfl)]
      exact deals_fetchFinished config now fetch outcome
    · have hother : ∀ outcome, epoch = p.epoch → report ≠ .finished outcome :=
        fun outcome hepoch hreport => hover ⟨outcome, hepoch, hreport⟩
      refine .goesOn (fun _ outcome h => ?_) (goesOn_onReport hother config now)
      cases h
      exact absurd rfl (hother outcome rfl)

/-! ## Sightings -/

/-- **What the driver does with a sighting**: apart from counting, and from restamping a peer that
waits, it is through at once, or it has the queue with the new peer have its turn. -/
theorem onSighting_cases (p : Pipeline) (config : Config) (now : Timestamp) (sighting : Sighting)
    (cache : Cache) :
    (∃ counters queue seen, ∃ events : List Event, p.onSighting config now sighting cache =
      ⟨finish { p with counters, queue }, seen, events.map .event⟩) ∨
    ∃ counters queue seen, ∃ events : List Event, queue ≠ [] ∧ p.active = true ∧
      p.onSighting config now sighting cache =
        (advance { p with counters, queue } config seen).after (events.map .event) := by
  have hthrough : ∀ (counters : Counters) (queue : List Pending) (seen : Cache)
      (events : List Event),
      Step.after (events.map .event) ⟨finish { p with counters, queue }, seen, []⟩ =
        ⟨finish { p with counters, queue }, seen, events.map .event⟩ := by
    intro counters queue seen events
    rw [Step.after, List.append_nil]
  rw [onSighting]
  by_cases hactive : (!p.active) = true
  · rw [if_pos hactive]
    exact .inl ⟨p.counters, p.queue, cache, [], rfl⟩
  rw [if_neg hactive]
  rcases sighting.stamp? with _ | stamp
  · exact .inl ⟨p.counters, p.queue, cache, [], rfl⟩
  dsimp only
  split
  · exact .inl ⟨_, _, _, _, hthrough _ _ _ _⟩
  split
  · exact .inl ⟨_, _, _, _, hthrough _ _ _ _⟩
  split
  · exact .inl ⟨_, _, _, _, hthrough _ _ _ _⟩
  · refine .inr ⟨_, _, _, _, ?_, ?_, rfl⟩
    · simp
    · simpa using hactive

/-! ## Answers to the driver -/

/-- The answer to a call that starts or stops scanning has the driver go on; if there was no such
call, nothing happens. -/
theorem goesOn_onScanAnswered (h : p.ControlFits) (result : Except RadioError Unit)
    (cache : Cache) :
    p.onScanAnswered result cache = ⟨p, cache, []⟩ ∨
      p.isClosing = false ∧ p.GoesOn (p.onScanAnswered result cache) := by
  rw [ControlFits] at h
  rw [onScanAnswered, isClosing]
  rcases hcontrol : p.control with _ | ticket | next | ⟨peer, next⟩ | _
  · exact .inl rfl
  · refine .inr ⟨rfl, ?_⟩
    cases result with
    | ok _ =>
      exact (GoesOn.finishStart { p with scanning := true } ticket).of_same
        ⟨rfl, rfl, rfl, rfl, rfl, rfl, id⟩
    | error e => exact (GoesOn.finishStart p ticket).after (isQuiet_singleton rfl)
  · rw [hcontrol] at h
    have hafter : p.GoesOn (p.afterPause next cache) := by
      cases next with
      | halt halt => exact .afterPause h fun _ hpending => by cases hpending
      | launch pending => exact .afterPause h.1 fun _ _ => h.2
    refine .inr ⟨rfl, ?_⟩
    cases result with
    | ok _ => exact hafter
    | error e => exact hafter.after (isQuiet_singleton rfl)
  · exact .inl rfl
  · exact .inl rfl

/-- The ways in which an attempt to close a link ends, if there is any. -/
theorem onClosed_cases (p : Pipeline) (config : Config) (now : Timestamp) (closing : Closing)
    (cache : Cache) :
    p.isClosing = false ∧ p.onClosed config now closing cache = ⟨p, cache, []⟩ ∨
      (∃ peer halt, p.control = .closing peer (.halt halt) ∧
        p.onClosed config now closing cache =
          (pause { p with counters.fetchesCancelled := p.counters.fetchesCancelled + 1 }
            (.halt halt) cache).after (closing.warnings peer)) ∨
      ∃ peer pending outcome, p.control = .closing peer (.settle pending outcome) ∧
        p.onClosed config now closing cache =
          (p.settle config now pending outcome cache).after (closing.warnings peer) := by
  rw [onClosed.eq_def, isClosing]
  rcases p.control with _ | ticket | next | ⟨peer, halt | ⟨pending, outcome⟩⟩ | _
  · exact .inl ⟨rfl, rfl⟩
  · exact .inl ⟨rfl, rfl⟩
  · exact .inl ⟨rfl, rfl⟩
  · refine .inr (.inl ⟨peer, halt, rfl, ?_⟩)
    cases closing with
    | answered | timedOut => rfl
  · refine .inr (.inr ⟨peer, pending, outcome, rfl, ?_⟩)
    cases closing with
    | answered | timedOut => rfl
  · exact .inl ⟨rfl, rfl⟩

/-- The end of an attempt to close a link has the driver go on, if it waits for it. -/
theorem goesOn_onClosed (h : p.ControlFits) (config : Config) (now : Timestamp)
    (closing : Closing) (cache : Cache) :
    p.isClosing = false ∧ p.onClosed config now closing cache = ⟨p, cache, []⟩ ∨
      p.isClosing = true ∧ p.GoesOn (p.onClosed config now closing cache) := by
  rw [ControlFits] at h
  obtain hrests | ⟨peer, halt, hcontrol, hs⟩ | ⟨peer, pending, outcome, hcontrol, hs⟩ :=
    p.onClosed_cases config now closing cache
  · exact .inl hrests
  · rw [hcontrol] at h
    rw [hs, isClosing, hcontrol]
    let q := { p with counters.fetchesCancelled := p.counters.fetchesCancelled + 1 }
    have hpause : q.GoesOn (q.pause (.halt halt) cache) :=
      .pause (p := q) h fun _ hpending => by cases hpending
    have hafter := hpause.after (isQuiet_warnings peer closing)
    exact .inr ⟨rfl, hafter.of_same ⟨rfl, rfl, rfl, rfl, rfl, rfl, id⟩⟩
  · rw [hs, isClosing, hcontrol]
    have hsettle : p.GoesOn (p.settle config now pending outcome cache) :=
      .settle p config now pending outcome
    exact .inr ⟨rfl, hsettle.after (isQuiet_warnings peer closing)⟩

end Pipeline

end Nearby.Scan
