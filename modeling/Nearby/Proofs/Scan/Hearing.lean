import Nearby.Proofs.Scan.Chronicle

/-!
# A radio that refused to scan

Subscribers hear of peers only while the radio scans or a fetch is under way. The radio may refuse
to scan, and then the driver gives a warning and goes on: the pipeline is active, no fetch is in
flight, and nobody listens (`Pipeline.IsDeaf`). An active pipeline takes it that scanning goes on, so
it does nothing about this when it is asked to look after its subscribers again. A fetch or a stop
has it start over, and nothing else does.

`Hearing` keeps beside a run whether the radio refused to scan since the last launch or stop. That is
so exactly while the driver is deaf, and it is what decides whether looking after the subscribers has
any effect.
-/

namespace Nearby.Scan

/-- True for what has the driver start over: a launch, or a stop. -/
def Occurrence.begins (x : Occurrence) : Bool := x.isStop || x.launch?.isSome

/-- The driver waits for messages, the pipeline is active, and nobody listens. -/
structure Pipeline.IsDeaf (p : Pipeline) : Prop where
  waiting : p.control = .waiting
  active : p.active = true
  inFlight : p.inFlight = none
  scanning : p.scanning = false

/-- The radio is called to scan only where it does not. -/
def Pipeline.StartsSilent (p : Pipeline) : Prop :=
  ∀ ticket, p.control = .starting ticket → p.scanning = false

/-- A step leaves a driver that is not deaf. -/
structure Step.IsAttentive (s : Step) : Prop where
  hears : ¬s.pipeline.IsDeaf
  starts : s.pipeline.StartsSilent

namespace Step.IsAttentive

variable {config : Config} {s : Step}

/-- Effects ahead of a step do not matter. -/
theorem after (h : s.IsAttentive) (effects : List Effect) : (s.after effects).IsAttentive :=
  ⟨h.hears, h.starts⟩

/-- Nobody needs to listen while the pipeline is inactive. -/
theorem of_inactive (h : s.pipeline.driver.Consistent config)
    (hactive : s.pipeline.active = false) : s.IsAttentive where
  hears hdeaf := by cases hactive.symm.trans hdeaf.active
  starts := by
    intro ticket hcontrol
    rw [Driver.Consistent, Pipeline.control_driver, hcontrol] at h
    cases hactive.symm.trans h.1

end Step.IsAttentive

namespace Pipeline

variable {config : Config} {p : Pipeline} {cache : Cache}

/-! ## The driver -/

/-- A pipeline that fetches is not deaf. -/
theorem isAttentive_launch (p : Pipeline) (pending : Pending) (cache : Cache) :
    (p.launch pending cache).IsAttentive where
  hears hdeaf := by cases hdeaf.inFlight
  starts _ hcontrol := by cases hcontrol

/-- Nor is one that is about to fetch. -/
theorem isAttentive_pause (p : Pipeline) (pending : Pending) (cache : Cache) :
    (p.pause (.launch pending) cache).IsAttentive := by
  rw [pause]
  split
  · refine ⟨fun hdeaf => ?_, fun _ hcontrol => ?_⟩
    · cases hdeaf.waiting
    · cases hcontrol
  · exact p.isAttentive_launch pending cache

/-- Either the radio scans already, or it is called to. -/
theorem isAttentive_resume (p : Pipeline) (config : Config) (ticket : Option Ticket)
    (cache : Cache) : (p.resume config ticket cache).IsAttentive := by
  rw [resume]
  by_cases hscanning : p.scanning = true
  · rw [if_pos hscanning]
    refine ⟨fun hdeaf => ?_, fun _ hcontrol => ?_⟩
    · cases hscanning.symm.trans hdeaf.scanning
    · cases hcontrol
  · rw [if_neg hscanning]
    refine ⟨fun hdeaf => ?_, fun _ _ => ?_⟩
    · cases hdeaf.waiting
    · simpa using hscanning

/-- An active pipeline has the radio scan when there is nothing to fetch. -/
theorem isAttentive_advance (hidle : p.inFlight = none) (hactive : p.active = true)
    (config : Config) (cache : Cache) : (p.advance config cache).IsAttentive := by
  rw [advance, if_neg (by simp [hidle, hactive])]
  rcases p.queue with _ | ⟨pending, queue⟩
  · exact isAttentive_resume { p with phase := .scanning, queue := [] } config none cache
  · dsimp only
    split
    · exact isAttentive_pause { p with queue } pending cache
    · exact isAttentive_launch { p with queue } pending cache

/-- So it does when a fetch is over. -/
theorem isAttentive_settle (hidle : p.inFlight = none) (hactive : p.active = true)
    (config : Config) (now : Timestamp) (pending : Pending) (outcome : Outcome) (cache : Cache) :
    (p.settle config now pending outcome cache).IsAttentive := by
  cases outcome with
  | ok readings =>
    exact (isAttentive_advance (p := { p with
      counters.fetchesSucceeded := p.counters.fetchesSucceeded + 1 }) hidle hactive config
      (cacheTold cache now pending (.ok readings))).after _
  | error e =>
    exact (isAttentive_advance (p := { p with
      counters.fetchesFailed := p.counters.fetchesFailed + 1
      counters.fetchesTimedOut := p.counters.fetchesTimedOut + _ }) hidle hactive config
      (cacheTold cache now pending (.error e))).after _

/-- A peer in the queue is fetched from at once if nobody listens. -/
theorem launchedBy_advance (hidle : p.inFlight = none) (hactive : p.active = true)
    (hscanning : p.scanning = false) (hqueue : p.queue ≠ []) (config : Config) (cache : Cache) :
    ∃ x ∈ p.launchedBy (p.advance config cache).pipeline, x.begins = true := by
  have hlaunch : ∀ (queue : List Pending) (pending : Pending),
      ∃ x ∈ p.launchedBy (launch { p with queue } pending cache).pipeline, x.begins = true := by
    intro queue pending
    refine ⟨.launched p.nextFetch pending, ?_, rfl⟩
    rw [launchedBy, if_neg]
    · exact List.mem_singleton_self _
    · exact Nat.succ_ne_self p.nextFetch
  rw [advance, if_neg (by simp [hidle, hactive])]
  rcases hcons : p.queue with _ | ⟨pending, queue⟩
  · exact absurd hcons hqueue
  · dsimp only
    split
    · rw [pause, if_neg (by simp [hscanning])]
      exact hlaunch queue pending
    · exact hlaunch queue pending

/-! ## Moves -/

/-- What a move has to do with listening: it changes nothing about it and has nobody start over, or
it leaves a driver that is not deaf, and has it start over if it was. -/
inductive Heeds (p : Pipeline) (cache : Cache) (move : Move) (s : Step) : Prop
  | rests (same : s.pipeline.IsDeaf ↔ p.IsDeaf) (starts : s.pipeline.StartsSilent)
    (notes : ∀ x ∈ p.notes cache none move s.pipeline, x.begins = false)
  | acts (attentive : s.IsAttentive)
    (reason : p.IsDeaf → ∃ x ∈ p.notes cache none move s.pipeline, x.begins = true)

/-- Where the driver is as before and has taken no command, it is as deaf as before. -/
theorem Heeds.of_driver {move : Move} {s : Step} (h : p.StartsSilent)
    (hdriver : s.pipeline.driver = p.driver) (hnext : s.pipeline.nextFetch = p.nextFetch)
    (htakes : p.takes? move = none) (htells : p.tells? move = none) :
    p.Heeds cache move s := by
  have hcontrol : s.pipeline.control = p.control := congrArg Driver.control hdriver
  have hscanning : s.pipeline.scanning = p.scanning := congrArg Driver.scanning hdriver
  have hactive : s.pipeline.active = p.active := congrArg Driver.active hdriver
  have hinFlight : s.pipeline.inFlight = p.inFlight := congrArg Driver.inFlight hdriver
  refine .rests ⟨fun hdeaf => ?_, fun hdeaf => ?_⟩ (fun ticket hstarts => ?_) ?_
  · obtain ⟨hw, ha, hf, hs⟩ := hdeaf
    exact ⟨hcontrol ▸ hw, hactive ▸ ha, hinFlight ▸ hf, hscanning ▸ hs⟩
  · obtain ⟨hw, ha, hf, hs⟩ := hdeaf
    exact ⟨hcontrol.trans hw, hactive.trans ha, hinFlight.trans hf, hscanning.trans hs⟩
  · exact hscanning.trans (h ticket (hcontrol ▸ hstarts))
  · rw [notes_of_takes?_eq_none htakes, htells, launchedBy_of_eq hnext]
    exact List.forall_mem_nil _

/-- The driver is through with a message that was none of its listening's business. -/
theorem isDeaf_finish {q : Pipeline} (hcontrol : p.control = .waiting)
    (hactive : q.active = p.active) (hinFlight : q.inFlight = p.inFlight)
    (hscanning : q.scanning = p.scanning) : q.finish.IsDeaf ↔ p.IsDeaf := by
  constructor
  · rintro ⟨-, ha, hf, hs⟩
    exact ⟨hcontrol, hactive.symm.trans ha, hinFlight.symm.trans hf, hscanning.symm.trans hs⟩
  · rintro ⟨-, ha, hf, hs⟩
    exact ⟨rfl, hactive.trans ha, hinFlight.trans hf, hscanning.trans hs⟩

/-- A driver that waits for messages does not wait for the radio to start. -/
theorem startsSilent_finish (p : Pipeline) : p.finish.StartsSilent := by
  rintro ticket ⟨⟩

/-- A command that the driver deals with in passing. -/
theorem Heeds.of_finish {command : Command} (htaken : p.taken? = some command)
    (hother : ∀ id outcome, command ≠ .report id p.epoch (.finished outcome))
    (hnote : ∀ x, command.note? cache = some x → x.begins = false) {q : Pipeline} {s : Step}
    (hs : s.pipeline = q.finish) (hactive : q.active = p.active)
    (hinFlight : q.inFlight = p.inFlight) (hscanning : q.scanning = p.scanning)
    (hnext : q.nextFetch = p.nextFetch) : p.Heeds cache .takeCommand s := by
  refine .rests ?_ (hs ▸ q.startsSilent_finish) ?_
  · rw [hs]
    exact isDeaf_finish (of_taken htaken).1 hactive hinFlight hscanning
  · have hlaunched : p.launchedBy s.pipeline = [] := launchedBy_of_eq (by rw [hs]; exact hnext)
    rw [notes_takeCommand htaken, tells?_takeCommand_eq_none htaken hother, hlaunched]
    intro x hx
    exact hnote x (by simpa using hx)

/-- A command that has the pipeline stop. -/
theorem Heeds.of_stop {s : Step} (hs : s.Fits config p.scanning false) {command : Command}
    (htaken : p.taken? = some command) {x : Occurrence} (hnote : command.note? cache = some x)
    (hstop : x.isStop = true) : p.Heeds cache .takeCommand s := by
  refine .acts (.of_inactive hs.consistent hs.active) fun _ => ⟨x, ?_, ?_⟩
  · rw [notes_takeCommand htaken, hnote]
    simp
  · rw [Occurrence.begins, hstop, Bool.true_or]

/-- What comes of listening when a command is taken. -/
theorem heeds_takeCommand (htracks : p.Tracks) (hd : p.driver.Consistent config)
    (hordinary : p.IsOrdinary) (hstarts : p.StartsSilent) (now : Timestamp) (cache : Cache) :
    p.Heeds cache .takeCommand (p.move config now cache .takeCommand) := by
  rcases htaken : p.taken? with _ | command
  · rw [move_takeCommand_of_none htaken now cache]
    refine .of_driver hstarts rfl rfl htaken ?_
    rw [tells?, htaken]
  have hfits := fits_move hd hordinary now cache .takeCommand
  rw [activeNext, htaken] at hfits
  have hstep := move_takeCommand htaken config now cache
  cases command with
  | sync ticket =>
    by_cases hsubs : cache.subscriptions.isEmpty = true
    · rw [Option.map_some, activeAfter, hsubs] at hfits
      refine .of_stop hfits htaken (x := .synced false) ?_ rfl
      rw [Command.note?, hsubs]
      rfl
    rw [hstep, onCommand, if_neg hsubs, activate]
    by_cases hactive : p.active = true
    · -- the pipeline is active, and nothing is done, whether or not the radio scans
      rw [if_pos hactive]
      refine .of_finish htaken (fun _ _ hc => by cases hc) ?_ rfl rfl rfl rfl rfl
      intro x hx
      rw [Command.note?, (Bool.not_eq_true _).mp hsubs] at hx
      cases hx
      rfl
    · rw [if_neg hactive]
      exact .acts (isAttentive_resume _ config (some ticket) cache) fun hdeaf =>
        absurd hdeaf.active hactive
  | shutdown ticket => exact .of_stop hfits htaken rfl rfl
  -- a report can only change what the driver listens to if it ends the fetch in flight
  | report id epoch said =>
    rcases report_cases htracks htaken with ⟨g, outcome, rfl, rfl, hg, -⟩ | hother
    · have hbusy : ¬p.IsDeaf := fun hdeaf => by cases hdeaf.inFlight.symm.trans hg
      cases takesOutcome hg htaken config now cache with
      | closes tells step =>
        rw [step]
        refine .acts ⟨fun hdeaf => ?_, fun _ hcontrol => ?_⟩ fun hdeaf => absurd hdeaf hbusy
        · cases hdeaf.waiting
        · cases hcontrol
      | settles tells step =>
        rw [step]
        refine .acts (isAttentive_settle ?_ ?_ config now g.pending outcome cache)
          fun hdeaf => absurd hdeaf hbusy
        · rfl
        · exact htracks.active g hg
    · have hreport : ∀ id' outcome,
          Command.report id epoch said ≠ .report id' p.epoch (.finished outcome) := by
        rintro id' outcome ⟨⟩
        exact hother outcome rfl rfl
      have hnote : ∀ x, (Command.report id epoch said).note? cache = some x → x.begins = false :=
        fun x hx => by cases hx
      rw [hstep, onCommand, onReport.eq_def]
      split
      · exact .of_finish htaken hreport hnote rfl rfl rfl rfl rfl
      rename_i hepoch
      cases said with
      | phase phase =>
        dsimp only
        split
        · exact .of_finish (q := { p with commands := p.commands.tail, phase }) htaken hreport hnote
            rfl rfl rfl rfl rfl
        · exact .of_finish htaken hreport hnote rfl rfl rfl rfl rfl
      | finished outcome => exact absurd rfl (hother outcome (not_not.mp hepoch))

/-- A sighting that brings a new peer has it fetched if nobody listens. -/
theorem heeds_takeSighting (hstarts : p.StartsSilent) (config : Config) (now : Timestamp)
    (cache : Cache) : p.Heeds cache .takeSighting (p.move config now cache .takeSighting) := by
  rcases p.takeSighting_cases config now cache with
    hstep | ⟨sighting, rest, hcontrol, -, hstep⟩
  · rw [hstep]
    exact .of_driver hstarts rfl rfl rfl rfl
  have hthrough : ∀ {q : Pipeline} {s : Step}, s.pipeline = q.finish → q.active = p.active →
      q.inFlight = p.inFlight → q.scanning = p.scanning → q.nextFetch = p.nextFetch →
      p.Heeds cache .takeSighting s := by
    intro q s hs hactive hinFlight hscanning hnext
    refine .rests ?_ (hs ▸ q.startsSilent_finish) ?_
    · rw [hs]
      exact isDeaf_finish hcontrol hactive hinFlight hscanning
    · rw [notes_of_takes?_eq_none rfl, launchedBy_of_eq (by rw [hs]; exact hnext)]
      exact List.forall_mem_nil _
  rw [hstep]
  -- the sighting is only counted, or it joins the queue and may be launched at once
  rcases onSighting_cases { p with sightings := rest } config now sighting cache with
    ⟨counters, queue, seen, events, hs⟩ | ⟨counters, queue, seen, events, hqueue, hactive, hs⟩
  · rw [hs]
    exact hthrough rfl rfl rfl rfl rfl
  rw [hs]
  set q : Pipeline := { p with sightings := rest, counters, queue }
  rcases hflight : q.inFlight with _ | g
  · refine .acts ((isAttentive_advance (p := q) hflight hactive config seen).after _)
      fun hdeaf => ?_
    obtain ⟨x, hx, hbegins⟩ :=
      launchedBy_advance (p := q) hflight hactive hdeaf.scanning hqueue config seen
    exact ⟨x, List.mem_append_right _ hx, hbegins⟩
  · rw [advance_of_isSome (by rw [hflight]; rfl)]
    exact hthrough rfl rfl rfl rfl rfl

/-- The end of an attempt to close a link. -/
theorem heeds_closed (hd : p.driver.Consistent config) (hstarts : p.StartsSilent)
    (now : Timestamp) (closing : Closing) (cache : Cache) :
    p.Heeds cache (.closed closing) (p.onClosed config now closing cache) := by
  have hfits : (p.onClosed config now closing cache).Fits config p.scanning p.active :=
    fits_onClosed hd now closing
  obtain ⟨hclosing, hs⟩ | ⟨peer, halt, hcontrol, hs⟩ | ⟨peer, pending, outcome, hcontrol, hs⟩ :=
    p.onClosed_cases config now closing cache
  · have htells : p.tells? (.closed closing) = none := by
      rw [tells?]
      split
      · rename_i hcontrol
        rw [isClosing, hcontrol] at hclosing
        cases hclosing
      · rfl
    rw [hs]
    exact .of_driver hstarts rfl rfl rfl htells
  · rw [Driver.Consistent, control_driver, hcontrol] at hd
    have hactive : p.active = false := Driver.Halts.active hd
    exact .acts (.of_inactive hfits.consistent (hfits.active.trans hactive)) fun hdeaf => by
      cases hcontrol.symm.trans hdeaf.waiting
  · rw [Driver.Consistent, control_driver, hcontrol] at hd
    have hsettle := isAttentive_settle (Driver.TurnsTo.inFlight hd) (Driver.TurnsTo.active hd)
      config now pending outcome cache
    rw [hs]
    exact .acts (hsettle.after _) fun hdeaf => by cases hcontrol.symm.trans hdeaf.waiting

/-- True where the radio refuses to scan. -/
def refuses (p : Pipeline) : Move → Bool
  | .scanAnswered (.error _) =>
    match p.control with
    | .starting _ => true
    | _ => false
  | _ => false

/-- A refusal is the answer to an attempt to start. -/
theorem of_refuses {move : Move} (h : p.refuses move = true) :
    ∃ e ticket, move = .scanAnswered (.error e) ∧ p.control = .starting ticket := by
  rw [refuses.eq_def] at h
  split at h
  · rename_i e
    split at h
    · rename_i ticket hcontrol
      exact ⟨e, ticket, rfl, hcontrol⟩
    · cases h
  · cases h

/-- The answer to a call to start or stop scanning, unless the radio refuses to scan. -/
theorem heeds_scanAnswered (hd : p.driver.Consistent config) (hstarts : p.StartsSilent)
    {result : Except RadioError Unit} (hrefuses : p.refuses (.scanAnswered result) = false)
    (cache : Cache) : p.Heeds cache (.scanAnswered result) (p.onScanAnswered result cache) := by
  have hrests : p.Heeds cache (.scanAnswered result) ⟨p, cache, []⟩ :=
    .of_driver hstarts rfl rfl rfl rfl
  have hfits : (p.onScanAnswered result cache).Fits config p.scanning p.active :=
    fits_onScanAnswered hd result
  rw [onScanAnswered] at hfits ⊢
  rw [Driver.Consistent] at hd
  rcases hcontrol : p.control with _ | ticket | next | ⟨peer, next⟩ | _
  · exact hrests
  · cases result with
    | ok _ =>
      refine .acts ⟨fun hdeaf => ?_, fun _ hstarting => ?_⟩ fun hdeaf => ?_
      · cases hdeaf.scanning
      · cases hstarting
      · cases hcontrol.symm.trans hdeaf.waiting
    | error e =>
      rw [refuses, hcontrol] at hrefuses
      cases hrefuses
  · -- the driver waited for the radio to stop scanning, so it was not deaf
    have hbusy : ¬p.IsDeaf := fun hdeaf => by cases hcontrol.symm.trans hdeaf.waiting
    rw [control_driver, hcontrol] at hd
    rw [hcontrol] at hfits
    refine .acts ?_ fun hdeaf => absurd hdeaf hbusy
    cases next with
    | halt halt => exact .of_inactive hfits.consistent (hfits.active.trans hd.2.active)
    | launch pending =>
      cases result with
      | ok _ => exact p.isAttentive_launch pending cache
      | error e => exact (p.isAttentive_launch pending cache).after _
  · exact hrests
  · exact hrests

/-- **Every move heeds whether somebody listens**, unless the radio refuses to. -/
theorem heeds_move (hp : p.Coherent) (hd : p.driver.Consistent config) (hordinary : p.IsOrdinary)
    (hstarts : p.StartsSilent) (now : Timestamp) (cache : Cache) {move : Move}
    (hrefuses : p.refuses move = false) :
    p.Heeds cache move (p.move config now cache move) := by
  by_cases hmove : move.isTurn = true
  · obtain ⟨htakes, htells⟩ := p.silent_of_isTurn hmove
    rcases p.turn_cases config now cache hmove with hs | ⟨id, epoch, turn, hs, -⟩
    · rw [hs]
      exact .of_driver hstarts rfl rfl htakes htells
    · rw [hs]
      refine .of_driver hstarts ?_ ?_ htakes htells
      · rw [pipeline_applyTurn]
        rfl
      · rw [pipeline_applyTurn]
  cases move with
  | send command => exact .of_driver hstarts rfl rfl rfl rfl
  | hear sighting => exact .of_driver hstarts rfl rfl rfl rfl
  | takeCommand => exact heeds_takeCommand hp.tracks hd hordinary hstarts now cache
  | takeSighting => exact heeds_takeSighting hstarts config now cache
  | scanAnswered result => exact heeds_scanAnswered hd hstarts hrefuses cache
  | closed closing => exact heeds_closed hd hstarts now closing cache
  | fetchBegins | fetchAnswered | fetchExpires => exact absurd rfl hmove

/-- Whether the radio refused to scan and the driver has not started over since. -/
def refusedAfter (p : Pipeline) (cache : Cache) (refused : Bool) (move : Move) (q : Pipeline) :
    Bool :=
  p.refuses move || refused && !(p.notes cache none move q).any Occurrence.begins

/-- **The driver is deaf just as long as it has not started over.** -/
theorem refusedAfter_iff (hp : p.Coherent) (hd : p.driver.Consistent config)
    (hordinary : p.IsOrdinary) (hstarts : p.StartsSilent) {refused : Bool}
    (h : refused = true ↔ p.IsDeaf) (now : Timestamp) (cache : Cache) (move : Move) :
    let q := (p.move config now cache move).pipeline
    q.StartsSilent ∧ (p.refusedAfter cache refused move q = true ↔ q.IsDeaf) := by
  intro q
  rw [refusedAfter]
  rcases hrefuses : p.refuses move with _ | _
  · -- the radio refuses nothing: the flag goes if the driver starts over
    rw [Bool.false_or, Bool.and_eq_true, Bool.not_eq_true', h]
    cases heeds_move hp hd hordinary hstarts now cache hrefuses with
    | rests same starts notes =>
      have hnone : (p.notes cache none move q).any Occurrence.begins = false := by
        simpa using notes
      rw [hnone]
      exact ⟨starts, by simp [same, q]⟩
    | acts attentive reason =>
      refine ⟨attentive.starts, fun hdeaf => ?_, fun hdeaf => absurd hdeaf attentive.hears⟩
      obtain ⟨x, hx, hbegins⟩ := reason hdeaf.1
      have hsome := List.any_eq_true.mpr ⟨x, hx, hbegins⟩
      rw [hsome] at hdeaf
      cases hdeaf.2
  · -- the radio refuses to scan: the driver gives a warning, and goes on
    obtain ⟨e, ticket, rfl, hcontrol⟩ := of_refuses hrefuses
    rw [Driver.Consistent, control_driver, hcontrol] at hd
    obtain ⟨hactive, hidle, -, -⟩ := hd
    have hq : q = p.finish := by
      change (p.onScanAnswered (.error e) cache).pipeline = _
      rw [onScanAnswered, hcontrol]
      rfl
    rw [hq, Bool.true_or]
    exact ⟨p.startsSilent_finish, fun _ => ⟨rfl, hactive, hidle, hstarts ticket hcontrol⟩,
      fun _ => rfl⟩

/-- The driver looks after subscribers: unless the pipeline is active, it calls the radio to scan. -/
theorem driver_sync (hd : p.driver.Consistent config) {ticket : Ticket}
    (htaken : p.taken? = some (.sync ticket)) (hsubs : cache.subscriptions ≠ []) (now : Timestamp) :
    let d := (p.move config now cache .takeCommand).pipeline.driver
    (p.active = true → d = p.driver) ∧ (p.active = false → d.control = .starting (some ticket)) := by
  intro d
  have hcontrol := (of_taken htaken).1
  rw [Driver.Consistent, control_driver, hcontrol] at hd
  have hstep := move_takeCommand htaken config now cache
  rw [onCommand, if_neg (by simpa using hsubs), activate] at hstep
  refine ⟨fun hactive => ?_, fun hactive => ?_⟩
  · rw [if_pos hactive] at hstep
    have hdriver : d = { p.driver with control := .waiting } := by
      simp only [d, hstep]
      rfl
    rw [hdriver, ← hcontrol]
    rfl
  · obtain ⟨-, -, -, hscanning⟩ := hd.of_inactive hactive
    have hscanning : p.scanning = false := hscanning
    rw [if_neg (by simp [hactive]), resume, if_neg (by simp [hscanning])] at hstep
    simp only [d, hstep]
    rfl

/-- The radio has started to scan, if the driver waits for that. -/
theorem onScanAnswered_ok (p : Pipeline) (cache : Cache) :
    (p.control = .waiting → (p.onScanAnswered (.ok ()) cache).pipeline = p) ∧
      ∀ ticket, p.control = .starting ticket →
        (p.onScanAnswered (.ok ()) cache).pipeline = finish { p with scanning := true } := by
  refine ⟨fun hcontrol => ?_, fun ticket hcontrol => ?_⟩
  · rw [onScanAnswered, hcontrol]
  · rw [onScanAnswered, hcontrol]
    rfl

end Pipeline

/-! ## Runs -/

/-- True for what happens without the driver. -/
def Happening.sparesDriver : Happening → Bool
  | .moves _ .takeCommand => false
  | .moves _ .takeSighting => false
  | .moves _ (.scanAnswered _) => false
  | .moves _ (.closed _) => false
  | _ => true

/-- What spares the driver leaves it as it is. -/
theorem System.driver_after {s : System} {happening : Happening}
    (h : happening.sparesDriver = true) (config : Config) :
    (s.after config happening).pipeline.driver = s.pipeline.driver := by
  cases happening with
  | moves now move =>
    by_cases hmove : move.isTurn = true
    · rcases s.pipeline.turn_cases config now s.cache hmove with hs | ⟨id, epoch, turn, hs, -⟩
      · rw [after, hs]
      · rw [after, hs, Pipeline.pipeline_applyTurn]
        rfl
    cases move with
    | send | hear => rfl
    | takeCommand | takeSighting | scanAnswered | closed => cases h
    | fetchBegins | fetchAnswered | fetchExpires => exact absurd rfl hmove
  | caches cache => rfl
  | turns link connected => rfl
  | loses link => rfl

/-- So does a list of such happenings. -/
theorem System.driver_run {s : System} {happenings : List Happening}
    (h : ∀ x ∈ happenings, x.sparesDriver = true) (config : Config) :
    (s.run config happenings).pipeline.driver = s.pipeline.driver := by
  induction happenings generalizing s with
  | nil => rfl
  | cons x rest ih =>
    obtain ⟨hx, hrest⟩ := List.forall_mem_cons.mp h
    exact (ih hrest).trans (s.driver_after hx config)

/-- A system, and whether its radio refused to scan and the driver has not started over since. -/
structure Hearing where
  system : System
  refused : Bool

namespace Hearing

/-- Before anyone subscribes. -/
def initial (cache : Cache) : Hearing := ⟨.initial cache, false⟩

/-- What comes of a happening. -/
def after (config : Config) (h : Hearing) : Happening → Hearing
  | .moves now move =>
    let system := h.system.after config (.moves now move)
    ⟨system, h.system.pipeline.refusedAfter h.system.cache h.refused move system.pipeline⟩
  | other => { h with system := h.system.after config other }

/-- What comes of a list of happenings. -/
def run (config : Config) (h : Hearing) (happenings : List Happening) : Hearing :=
  happenings.foldl (after config) h

/-- The invariant of a run: the driver is deaf just as long as the refusal counts. -/
structure IsOrderly (config : Config) (h : Hearing) : Prop where
  system : h.system.IsOrderly config
  starts : h.system.pipeline.StartsSilent
  refused : h.refused = true ↔ h.system.pipeline.IsDeaf

variable {config : Config}

theorem isOrderly_initial (cache : Cache) : (initial cache).IsOrderly config where
  system := System.isOrderly_initial cache
  starts := by rintro ticket ⟨⟩
  refused := ⟨fun hrefused => (by cases hrefused), fun hdeaf => (by cases hdeaf.active)⟩

/-- Whatever happens leaves a hearing orderly. -/
theorem IsOrderly.after {h : Hearing} (hh : h.IsOrderly config) {happening : Happening}
    (hgenuine : happening.IsGenuine) : (h.after config happening).IsOrderly config := by
  obtain ⟨hsystem, hstarts, hrefused⟩ := hh
  have hnext := hsystem.after hgenuine
  cases happening with
  | moves now move =>
    obtain ⟨hp, hd, hordinary⟩ := hsystem
    obtain ⟨starts, refused⟩ :=
      Pipeline.refusedAfter_iff hp hd hordinary hstarts hrefused now h.system.cache move
    exact ⟨hnext, starts, refused⟩
  | caches cache => exact ⟨hnext, hstarts, hrefused⟩
  | turns link connected => exact ⟨hnext, hstarts, hrefused⟩
  | loses link => exact ⟨hnext, hstarts, hrefused⟩

theorem IsOrderly.run {h : Hearing} (hh : h.IsOrderly config) {happenings : List Happening}
    (hgenuine : ∀ x ∈ happenings, x.IsGenuine) : (h.run config happenings).IsOrderly config := by
  induction happenings generalizing h with
  | nil => exact hh
  | cons x rest ih =>
    obtain ⟨hx, hrest⟩ := List.forall_mem_cons.mp hgenuine
    exact ih (hh.after hx) hrest

/-- **Looking after subscribers has somebody listen, unless the radio refused to scan and the driver
has not started over since.** This holds whatever happened before, and however the radio answered.
There is a subscription, the driver takes the command from its mailbox, and the radio scans if it is
called to; meanwhile anything may happen without the driver. Then the driver waits for messages, and
either a fetch is in flight or the radio scans, exactly if no refusal counts. -/
theorem listens_iff (config : Config) (cache : Cache) {happenings : List Happening}
    (hgenuine : ∀ x ∈ happenings, x.IsGenuine) {meanwhile : List Happening}
    (hmeanwhile : ∀ x ∈ meanwhile, x.sparesDriver = true) (now answered : Timestamp)
    (ticket : Ticket) :
    let h := (initial cache).run config happenings
    h.system.pipeline.taken? = some (.sync ticket) → h.system.cache.subscriptions ≠ [] →
      let p := (h.system.run config (.moves now .takeCommand :: meanwhile ++
        [.moves answered (.scanAnswered (.ok ()))])).pipeline
      p.control = .waiting ∧
        (p.inFlight.isSome = true ∨ p.scanning = true ↔ h.refused = false) := by
  intro h htaken hsubs p
  obtain ⟨hsystem, -, hrefused⟩ : h.IsOrderly config :=
    (isOrderly_initial cache).run hgenuine
  have hcontrol := (Pipeline.of_taken htaken).1
  -- what happens meanwhile leaves the driver as it is
  let s := (h.system.after config (.moves now .takeCommand)).run config meanwhile
  have hs : s.pipeline.driver =
      (h.system.pipeline.move config now h.system.cache .takeCommand).pipeline.driver :=
    System.driver_run hmeanwhile config
  have hp : p = (s.pipeline.onScanAnswered (.ok ()) s.cache).pipeline := by
    simp only [p, s, System.run, List.cons_append, List.foldl_cons, List.foldl_append,
      List.foldl_nil]
    rfl
  obtain ⟨hkeeps, hbegins⟩ := Pipeline.driver_sync hsystem.consistent htaken hsubs now
  obtain ⟨hthrough, hscans⟩ := s.pipeline.onScanAnswered_ok s.cache
  rcases hactive : h.system.pipeline.active with _ | _
  · -- the pipeline was inactive, so that no refusal counts, and the radio is called
    have hfinish := hscans _ ((congrArg Driver.control hs).trans (hbegins hactive))
    have hnot : h.refused = false := by
      rw [← Bool.not_eq_true, hrefused]
      exact fun hdeaf => by cases hactive.symm.trans hdeaf.active
    rw [hp, hfinish]
    exact ⟨rfl, fun _ => hnot, fun _ => .inr rfl⟩
  · -- the pipeline was active, and the driver is as it was
    have hdriver := hs.trans (hkeeps hactive)
    have hwaits : s.pipeline.control = .waiting := (congrArg Driver.control hdriver).trans hcontrol
    have hflight : s.pipeline.inFlight = h.system.pipeline.inFlight :=
      congrArg Driver.inFlight hdriver
    have hscanning : s.pipeline.scanning = h.system.pipeline.scanning :=
      congrArg Driver.scanning hdriver
    rw [hp, hthrough hwaits, hflight, hscanning]
    refine ⟨hwaits, fun hlistens => ?_, fun hnot => ?_⟩
    · rw [← Bool.not_eq_true, hrefused]
      rintro ⟨-, -, hidle, hsilent⟩
      simp [hidle, hsilent] at hlistens
    · by_contra hnobody
      obtain ⟨hidle, hsilent⟩ := not_or.mp hnobody
      have hdeaf : h.system.pipeline.IsDeaf :=
        ⟨hcontrol, hactive, by simpa using hidle, by simpa using hsilent⟩
      cases hnot.symm.trans (hrefused.mpr hdeaf)

/-- Somebody subscribes, and the radio refuses to scan. Then the driver is asked to look after its
subscribers again. -/
def refusal : List Happening :=
  [.caches { Cache.new .default with subscriptions := [⟨"", ⟨"list"⟩⟩] },
    .moves ⟨0⟩ (.send (.sync 0)), .moves ⟨1⟩ .takeCommand,
    .moves ⟨2⟩ (.scanAnswered (.error (.scan "busy"))), .moves ⟨3⟩ (.send (.sync 1))]

/-- In between, the subscriber leaves and comes back. -/
def recess : List Happening :=
  [.caches { Cache.new .default with subscriptions := [⟨"", ⟨"list"⟩⟩] },
    .moves ⟨0⟩ (.send (.sync 0)), .moves ⟨1⟩ .takeCommand,
    .moves ⟨2⟩ (.scanAnswered (.error (.scan "busy"))), .caches (.new .default),
    .moves ⟨3⟩ (.send (.sync 1)), .moves ⟨4⟩ .takeCommand,
    .caches { Cache.new .default with subscriptions := [⟨"", ⟨"list"⟩⟩] },
    .moves ⟨5⟩ (.send (.sync 2))]

theorem listens_recess :
    ((initial (.new .default)).run .default recess).refused = false ∧
      (System.run .default ((initial (.new .default)).run .default recess).system
        (.moves ⟨6⟩ .takeCommand :: [.moves ⟨6⟩ (.hear ⟨⟨"aa"⟩, Stamp.payload ⟨7⟩⟩)] ++
          [.moves ⟨7⟩ (.scanAnswered (.ok ()))])).pipeline.scanning = true := by
  have hgenuine : ∀ x ∈ recess, x.IsGenuine := by
    simp [recess, Happening.IsGenuine, Move.IsGenuine]
  have hmeanwhile : ∀ x ∈ [Happening.moves ⟨6⟩ (.hear ⟨⟨"aa"⟩, Stamp.payload ⟨7⟩⟩)],
      x.sparesDriver = true := List.forall_mem_singleton.mpr rfl
  obtain ⟨-, hlistens⟩ := listens_iff .default (.new .default) hgenuine hmeanwhile ⟨6⟩ ⟨7⟩ 2
    (by rfl) (by decide +kernel)
  have hrefused : ((initial (.new .default)).run .default recess).refused = false := by
    decide +kernel
  refine ⟨hrefused, (hlistens.mpr hrefused).resolve_left ?_⟩
  decide +kernel

/-- **A start that failed is not made up for**: though the radio would scan by now, it is not called
when the driver looks after its subscribers again. -/
theorem not_always_listens :
    ¬∀ (config : Config) (cache : Cache) (happenings : List Happening) (now answered : Timestamp)
      (ticket : Ticket), (∀ x ∈ happenings, x.IsGenuine) →
      let s := (System.initial cache).run config happenings
      s.pipeline.taken? = some (.sync ticket) → s.cache.subscriptions ≠ [] →
        let p := (s.run config [.moves now .takeCommand,
          .moves answered (.scanAnswered (.ok ()))]).pipeline
        p.inFlight.isSome = true ∨ p.scanning = true := by
  intro hall
  have hgenuine : ∀ x ∈ refusal, x.IsGenuine := by
    simp [refusal, Happening.IsGenuine, Move.IsGenuine]
  have hlistens := hall .default (.new .default) refusal ⟨4⟩ ⟨5⟩ 1 hgenuine (by rfl)
    (by decide +kernel)
  revert hlistens
  decide +kernel

end Hearing

end Nearby.Scan
