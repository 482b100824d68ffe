import Nearby.Proofs.Scan.Driver
import Nearby.Proofs.Scan.Fetch
import Nearby.Proofs.Table

/-!
# The fetch in flight and its reports

A fetch runs beside the driver and reports to it through the mailbox, where reports may wait for any
time. The driver tells by the epoch alone whether a report counts. That is enough, because whatever
waits in the mailbox with the present epoch comes from the fetch in flight (`Pipeline.Tracks`): as
long as the fetch is under way these are phases, and once it is over its outcome is the last of them.
A stop begins a new epoch, and thereby all reports of before are void.

Every move keeps this, so long as nobody but fetches sends reports.
-/

namespace Nearby.Scan

/-- A report of the given epoch, with the fetch that sent it. -/
def Command.reportOf? (epoch : Nat) : Command → Option (FetchId × Report)
  | .report fetch e said => if e = epoch then some (fetch, said) else none
  | _ => none

/-- What is read off as a report is one. -/
theorem Command.reportOf?_eq_some_iff {command : Command} {epoch : Nat} {id : FetchId}
    {said : Report} :
    command.reportOf? epoch = some (id, said) ↔ command = .report id epoch said := by
  cases command with
  | sync ticket => simp [reportOf?]
  | shutdown ticket => simp [reportOf?]
  | report fetch e r =>
    by_cases he : e = epoch
    · simp [reportOf?, he]
    · simp [reportOf?, he]

namespace Pipeline

/-- The reports in the mailbox that count, with the fetches that sent them. -/
def reports (p : Pipeline) : List (FetchId × Report) :=
  p.commands.filterMap (Command.reportOf? p.epoch)

/-- Where the fetch in flight is: it is the only one there is, or it is over; and what waits in the
mailbox is what it reported. -/
inductive Attends (p : Pipeline) (g : InFlight) : Prop
  | underway (f : Fetch)
    (fetches : ∀ id, p.fetches.get? id = if id = g.fetch then some f else none)
    (peer : f.peer = g.pending.peer) (epoch : f.epoch = p.epoch)
    (reports : ∀ r ∈ p.reports, r.1 = g.fetch ∧ r.2.isPhase = true)
  | ended (phases : List (FetchId × Report)) (outcome : Outcome)
    (fetches : ∀ id, p.fetches.get? id = none)
    (reports : p.reports = phases ++ [(g.fetch, .finished outcome)])
    (hphases : ∀ r ∈ phases, r.1 = g.fetch ∧ r.2.isPhase = true)

/-- The driver has track of its fetches: there is none beside the one in flight, and every report
that counts is from that one. -/
structure Tracks (p : Pipeline) : Prop where
  active : ∀ g, p.inFlight = some g → p.active = true
  past : ∀ id epoch report, Command.report id epoch report ∈ p.commands → epoch ≤ p.epoch
  idle : p.inFlight = none → (∀ id, p.fetches.get? id = none) ∧ p.reports = []
  busy : ∀ g, p.inFlight = some g → p.Attends g

/-- The invariant of the pipeline: the driver has track of its fetches, and waits for the radio only
when none is in flight. -/
structure Coherent (p : Pipeline) : Prop where
  tracks : p.Tracks
  control : p.ControlFits

theorem coherent_initial : Coherent initial where
  tracks :=
    { active := fun g h => by cases h
      past := fun _ _ _ h => by cases h
      idle := fun _ => ⟨fun _ => rfl, rfl⟩
      busy := fun g h => by cases h }
  control := trivial

variable {p q : Pipeline}

/-- Reports are a matter of mailbox and epoch. -/
theorem SameFetches.reports (h : p.SameFetches q) : q.reports = p.reports := by
  rw [Pipeline.reports, h.commands, h.epoch]
  rfl

theorem SameFetches.attends (h : p.SameFetches q) {g : InFlight} (hp : p.Attends g) :
    q.Attends g := by
  cases hp with
  | underway f fetches peer epoch reports =>
    exact .underway f (h.fetches ▸ fetches) peer (epoch.trans h.epoch.symm) (h.reports ▸ reports)
  | ended phases outcome fetches reports hphases =>
    exact .ended phases outcome (h.fetches ▸ fetches) (h.reports.trans reports) hphases

/-- Who leaves the fetches alone keeps track of them. -/
theorem SameFetches.tracks (h : p.SameFetches q) (hp : p.Tracks) : q.Tracks where
  active g hg := h.active (hp.active g (h.inFlight ▸ hg))
  past id epoch report hmem := by
    rw [h.epoch]
    exact hp.past id epoch report (h.commands ▸ hmem)
  idle hq := by
    rw [h.reports, h.fetches]
    exact hp.idle (h.inFlight ▸ hq)
  busy g hg := h.attends (hp.busy g (h.inFlight ▸ hg))

/-- A fetch that was launched is the one that is kept track of. -/
theorem tracks_launch (h : p.Tracks) (hidle : p.inFlight = none) (hactive : p.active = true)
    (pending : Pending) (cache : Cache) : (p.launch pending cache).pipeline.Tracks := by
  obtain ⟨hfetches, hreports⟩ := h.idle hidle
  refine ⟨fun _ _ => hactive, h.past, fun hnone => (by cases hnone), fun g hg => ?_⟩
  cases hg
  refine .underway (.new pending.peer p.epoch) (fun id => ?_) rfl rfl ?_
  · change (p.fetches.insert p.nextFetch _).get? id = _
    rw [Table.get?_insert, hfetches]
  · change ∀ r ∈ p.reports, _
    rw [hreports]
    exact List.forall_mem_nil _

/-- **Going on keeps track of the fetches.** -/
theorem GoesOn.coherent {s : Step} (hs : p.GoesOn s) (h : p.Tracks) :
    s.pipeline.Coherent ∧ s.pipeline.isClosing = false := by
  cases hs with
  | stays same control closing quiet => exact ⟨⟨same.tracks h, control⟩, closing⟩
  | launches q pending same idle active pipeline quiet =>
    rw [pipeline]
    exact ⟨⟨tracks_launch (same.tracks h) (same.inFlight.trans idle) active pending s.cache, trivial⟩,
      rfl⟩

/-! ## Commands -/

/-- The reports that wait are those of the first command and those of the rest. -/
theorem reports_cons {command : Command} {rest : List Command}
    (h : p.commands = command :: rest) :
    p.reports = (command.reportOf? p.epoch).toList ++ reports { p with commands := rest } := by
  rw [reports, h, List.filterMap_cons]
  rcases command.reportOf? p.epoch with _ | r
  · rfl
  · rfl

/-- Taking a command from the mailbox, other than the outcome of the fetch in flight. -/
theorem Tracks.take {command : Command} {rest : List Command} (h : p.Tracks)
    (hcommands : p.commands = command :: rest)
    (hother : ∀ id outcome, command = .report id p.epoch (.finished outcome) →
      p.inFlight = none) : Tracks { p with commands := rest } := by
  have hreports := reports_cons hcommands
  refine ⟨h.active, fun id epoch report hmem => ?_, fun hidle => ?_, fun g hg => ?_⟩
  · refine h.past id epoch report ?_
    rw [hcommands]
    exact List.mem_cons_of_mem _ hmem
  · obtain ⟨hfetches, hnone⟩ := h.idle hidle
    rw [hnone] at hreports
    exact ⟨hfetches, (List.append_eq_nil_iff.mp hreports.symm).2⟩
  · cases h.busy g hg with
    | underway f hfetches hpeer hepoch hphases =>
      refine .underway f hfetches hpeer hepoch fun r hr => hphases r ?_
      rw [hreports]
      exact List.mem_append_right _ hr
    | ended phases outcome hfetches hover hphases =>
      rw [hover] at hreports
      rcases hr : command.reportOf? p.epoch with _ | r
      · rw [hr] at hreports
        exact .ended phases outcome hfetches hreports.symm hphases
      · -- the outcome is the last report that counts, and it is not the one that is taken
        rw [hr] at hreports
        cases phases with
        | nil =>
          obtain ⟨rfl, -⟩ := List.cons.inj hreports
          have hnone := hother g.fetch outcome (Command.reportOf?_eq_some_iff.mp hr)
          cases hnone.symm.trans hg
        | cons first phases =>
          obtain ⟨-, hrest⟩ := List.cons.inj hreports
          exact .ended phases outcome hfetches hrest.symm fun r hr =>
            hphases r (List.mem_cons_of_mem _ hr)

/-- **An outcome that counts is the outcome of the fetch in flight**, and the last that is heard of
it. -/
theorem Tracks.takeOutcome {id : FetchId} {outcome : Outcome} {rest : List Command} {g : InFlight}
    (h : p.Tracks) (hcommands : p.commands = .report id p.epoch (.finished outcome) :: rest)
    (hg : p.inFlight = some g) :
    id = g.fetch ∧ Tracks { p with commands := rest, inFlight := none } := by
  have hreports := reports_cons hcommands
  rw [Command.reportOf?_eq_some_iff.mpr rfl] at hreports
  have hpast : ∀ id epoch report, Command.report id epoch report ∈ rest → epoch ≤ p.epoch := by
    intro id epoch report hmem
    refine h.past id epoch report ?_
    rw [hcommands]
    exact List.mem_cons_of_mem _ hmem
  cases h.busy g hg with
  | underway f hfetches hpeer hepoch hphases =>
    -- a fetch under way has not told its outcome
    have hhead := hphases (id, .finished outcome) (by rw [hreports]; exact List.mem_cons_self)
    cases hhead.2
  | ended phases last hfetches hover hphases =>
    rw [hover] at hreports
    cases phases with
    | nil =>
      obtain ⟨hhead, hrest⟩ := List.cons.inj hreports
      cases hhead
      exact ⟨rfl, fun _ hnone => (by cases hnone), hpast, fun _ => ⟨hfetches, hrest.symm⟩,
        fun _ hnone => (by cases hnone)⟩
    | cons first phases =>
      -- nor is the outcome told before a phase
      obtain ⟨hhead, -⟩ := List.cons.inj hreports
      have hphase := (hphases first List.mem_cons_self).2
      rw [hhead] at hphase
      cases hphase

/-- **A new epoch makes all reports void.** -/
theorem tracks_of_past (hidle : p.inFlight = none) (hfetches : ∀ id, p.fetches.get? id = none)
    (hpast : ∀ id epoch report, Command.report id epoch report ∈ p.commands → epoch < p.epoch) :
    p.Tracks := by
  refine ⟨fun g hg => ?_, fun id epoch report hmem => ?_, fun _ => ⟨hfetches, ?_⟩, fun g hg => ?_⟩
  · cases hidle.symm.trans hg
  · exact Nat.le_of_lt (hpast id epoch report hmem)
  · rw [reports, List.filterMap_eq_nil_iff]
    intro command hmem
    rcases hr : command.reportOf? p.epoch with _ | ⟨id, said⟩
    · rfl
    · rw [Command.reportOf?_eq_some_iff.mp hr] at hmem
      exact absurd (hpast id p.epoch said hmem) (Nat.lt_irrefl _)
  · cases hidle.symm.trans hg

/-- While a link is closed, no fetch is in flight. -/
theorem coherent_closing (h : p.Tracks) (hidle : p.inFlight = none) (g : InFlight)
    (next : AfterClose) : (p.closing g next).Coherent where
  tracks := ⟨h.active, h.past, h.idle, fun _ hg => (by cases hidle.symm.trans hg)⟩
  control := hidle

/-- No fetch is left when the one in flight is cancelled. -/
theorem Attends.get?_erase {g : InFlight} (h : p.Attends g) (id : FetchId) :
    (p.fetches.erase g.fetch).get? id = none := by
  rw [Table.get?_erase]
  by_cases hid : id = g.fetch
  · rw [if_pos hid]
  · rw [if_neg hid]
    cases h with
    | underway f hfetches hpeer hepoch hphases => rw [hfetches, if_neg hid]
    | ended phases outcome hfetches hover hphases => exact hfetches id

/-- **Dealing with a command keeps track of the fetches.** -/
theorem Deals.coherent {command : Command} {rest : List Command} {s : Step} (h : p.Tracks)
    (hcommands : p.commands = command :: rest) (hs : Deals { p with commands := rest } command s) :
    s.pipeline.Coherent := by
  have hpast : ∀ id epoch report, Command.report id epoch report ∈ rest → epoch < p.epoch + 1 := by
    intro id epoch report hmem
    refine Nat.lt_succ_of_le (h.past id epoch report ?_)
    rw [hcommands]
    exact List.mem_cons_of_mem _ hmem
  cases hs with
  | goesOn other step => exact (step.coherent (h.take hcommands other)).1
  | stops idle step =>
    exact (step.coherent (tracks_of_past idle (h.idle idle).1 hpast)).1
  | cancels g next inFlight pipeline effects =>
    rw [pipeline]
    exact coherent_closing (tracks_of_past rfl (h.busy g inFlight).get?_erase hpast) rfl g next
  | settles id outcome g report inFlight unlinked inTime step =>
    subst report
    exact (step.coherent (h.takeOutcome hcommands inFlight).2).1
  | closes id outcome g next report inFlight pipeline effects =>
    subst report
    rw [pipeline]
    exact coherent_closing (h.takeOutcome hcommands inFlight).2 rfl g next

/-! ## Turns -/

/-- A fetch that is under way is the one in flight. -/
theorem Tracks.underway (h : p.Tracks) {id : FetchId} {f : Fetch} (hf : p.fetches.get? id = some f) :
    ∃ g, p.inFlight = some g ∧ id = g.fetch ∧ f.peer = g.pending.peer ∧ f.epoch = p.epoch ∧
      (∀ j, p.fetches.get? j = if j = g.fetch then some f else none) ∧
      ∀ r ∈ p.reports, r.1 = g.fetch ∧ r.2.isPhase = true := by
  rcases hg : p.inFlight with _ | g
  · rw [(h.idle hg).1] at hf
    cases hf
  cases h.busy g hg with
  | underway f' hfetches hpeer hepoch hphases =>
    rw [hfetches] at hf
    by_cases hid : id = g.fetch
    · rw [if_pos hid] at hf
      cases hf
      exact ⟨g, rfl, hid, hpeer, hepoch, hfetches, hphases⟩
    · rw [if_neg hid] at hf
      cases hf
  | ended phases outcome hfetches hover hphases =>
    rw [hfetches] at hf
    cases hf

/-- What a turn leaves of the pipeline, apart from the effects. -/
theorem pipeline_applyTurn (p : Pipeline) (id : FetchId) (epoch : Nat) (turn : Fetch.Turn)
    (cache : Cache) :
    (p.applyTurn id epoch turn cache).pipeline =
      { p with
        commands := p.commands ++ turn.reports.map (Command.report id epoch)
        links := if turn.linked then p.links ++ [id] else p.links
        fetches := match turn.next with
          | none => p.fetches.erase id
          | some (fetch, _) => p.fetches.insert id fetch } := by
  rw [applyTurn]
  rcases turn.next with _ | ⟨fetch, call⟩
  · rfl
  · rfl

/-- A fetch has its turn, and its reports are the last to wait. -/
theorem reports_applyTurn {id : FetchId} {epoch : Nat} (hepoch : epoch = p.epoch)
    (turn : Fetch.Turn) (cache : Cache) :
    (p.applyTurn id epoch turn cache).pipeline.reports =
      p.reports ++ turn.reports.map (Prod.mk id) := by
  have hsaid : Command.reportOf? p.epoch ∘ Command.report id epoch = some ∘ Prod.mk id := by
    funext said
    exact Command.reportOf?_eq_some_iff.mpr (by rw [hepoch])
  rw [pipeline_applyTurn, reports, List.filterMap_append, List.filterMap_map]
  dsimp only
  rw [hsaid, List.filterMap_eq_map, reports]

/-- **The turn of a fetch keeps track of it.** -/
theorem Tracks.applyTurn (h : p.Tracks) {id : FetchId} {f : Fetch}
    (hf : p.fetches.get? id = some f) {turn : Fetch.Turn} (hturn : turn.Fits f) (cache : Cache) :
    (p.applyTurn id f.epoch turn cache).pipeline.Tracks := by
  obtain ⟨g, hg, hid, hpeer, hepoch, hfetches, hphases⟩ := h.underway hf
  have hreports : (p.applyTurn id f.epoch turn cache).pipeline.reports = _ :=
    reports_applyTurn hepoch turn cache
  -- what it reports before its outcome are phases, and they wait behind those that it has reported
  have hphases' : ∀ reports : List Report, (∀ r ∈ reports, r.isPhase = true) →
      ∀ r ∈ p.reports ++ reports.map (Prod.mk id), r.1 = g.fetch ∧ r.2.isPhase = true := by
    intro reports hall
    refine List.forall_mem_append.mpr ⟨hphases, fun r hr => ?_⟩
    obtain ⟨said, hsaid, rfl⟩ := List.mem_map.mp hr
    exact ⟨hid, hall said hsaid⟩
  -- it goes on and stays in the table, or it ends and leaves it
  have hbusy : (p.applyTurn id f.epoch turn cache).pipeline.Attends g := by
    cases hturn with
    | goesOn next call hnext hpeer' hepoch' hall =>
      refine .underway next (fun j => ?_) (hpeer'.trans hpeer) ?_ ?_
      · rw [pipeline_applyTurn, hnext]
        dsimp only
        rw [Table.get?_insert, hfetches, hid]
        by_cases hj : j = g.fetch
        · rw [if_pos hj, if_pos hj]
        · rw [if_neg hj, if_neg hj, if_neg hj]
      · rw [pipeline_applyTurn]
        exact hepoch'.trans hepoch
      · rw [hreports]
        exact hphases' turn.reports hall
    | ends phases outcome hnext hlast hall =>
      refine .ended (p.reports ++ phases.map (Prod.mk id)) outcome (fun j => ?_) ?_
        (hphases' phases hall)
      · rw [pipeline_applyTurn, hnext, hid]
        exact (h.busy g hg).get?_erase j
      · rw [hreports, hlast, List.map_append, List.append_assoc, hid]
        rfl
  have hinFlight : (p.applyTurn id f.epoch turn cache).pipeline.inFlight = some g := by
    rw [pipeline_applyTurn, hg]
  refine ⟨fun g' hg' => ?_, fun j epoch said hmem => ?_, fun hnone => ?_, fun g' hg' => ?_⟩
  · rw [pipeline_applyTurn]
    exact h.active g hg
  · rw [pipeline_applyTurn] at hmem ⊢
    rcases List.mem_append.mp hmem with hmem | hmem
    · exact h.past j epoch said hmem
    · obtain ⟨said', -, heq⟩ := List.mem_map.mp hmem
      cases heq
      exact Nat.le_of_eq hepoch
  · cases hnone.symm.trans hinFlight
  · cases hg'.symm.trans hinFlight
    exact hbusy

/-! ## Moves -/

end Pipeline

/-- Reports are sent by fetches, and by nobody else. -/
def Move.IsGenuine : Move → Prop
  | .send (.report ..) => False
  | _ => True

/-- Only fetches send reports. -/
theorem Move.IsGenuine.reportOf?_eq_none {command : Command} (h : (Move.send command).IsGenuine)
    (epoch : Nat) : command.reportOf? epoch = none := by
  cases command with
  | sync ticket => rfl
  | shutdown ticket => rfl
  | report id epoch said => cases h

namespace Pipeline

variable {p : Pipeline}

/-- A turn does not concern the driver. -/
theorem controlFits_applyTurn (h : p.ControlFits) (id : FetchId) (epoch : Nat) (turn : Fetch.Turn)
    (cache : Cache) : (p.applyTurn id epoch turn cache).pipeline.ControlFits := by
  rw [pipeline_applyTurn]
  exact h

/-- A fetch that goes on as fetches do is still kept track of. -/
theorem Coherent.applyTurn (h : p.Coherent) {id : FetchId} {f : Fetch}
    (hf : p.fetches.get? id = some f) {turn : Fetch.Turn} (hturn : turn.Fits f) (cache : Cache) :
    (p.applyTurn id f.epoch turn cache).pipeline.Coherent :=
  ⟨h.tracks.applyTurn hf hturn cache, controlFits_applyTurn h.control id f.epoch turn cache⟩

/-- A command that is no report adds none. -/
theorem reports_send {command : Command} (h : ∀ epoch, command.reportOf? epoch = none) :
    reports { p with commands := p.commands ++ [command] } = p.reports := by
  rw [reports, List.filterMap_append, List.filterMap_cons, h]
  exact List.append_nil _

/-- A command that is not a report may be put into the mailbox at any time. -/
theorem Coherent.send (h : p.Coherent) {command : Command}
    (hcommand : ∀ epoch, command.reportOf? epoch = none) :
    Coherent { p with commands := p.commands ++ [command] } := by
  have hreports := reports_send (p := p) hcommand
  refine ⟨⟨h.tracks.active, fun id epoch said hmem => ?_, fun hidle => ?_, fun g hg => ?_⟩,
    h.control⟩
  · rcases List.mem_append.mp hmem with hmem | hmem
    · exact h.tracks.past id epoch said hmem
    · have := Command.reportOf?_eq_some_iff.mpr (List.mem_singleton.mp hmem).symm
      cases (hcommand epoch).symm.trans this
  · rw [hreports]
    exact h.tracks.idle hidle
  · cases h.tracks.busy g hg with
    | underway f hfetches hpeer hepoch hphases =>
      exact .underway f hfetches hpeer hepoch (hreports ▸ hphases)
    | ended phases outcome hfetches hover hphases =>
      exact .ended phases outcome hfetches (hreports.trans hover) hphases

/-- Where a move is an answer about a link, nobody waits for it. -/
def Ignores (p : Pipeline) : Move → Prop
  | .closed _ => p.isClosing = false
  | .fetchAnswered id answer => ∀ f, p.fetches.get? id = some f → f.resume id answer = none
  | _ => True

/-- The ways in which a move comes about. -/
inductive Moves (p : Pipeline) (cache : Cache) : Move → Step → Prop
  /-- The move is not possible at present. -/
  | rests (move : Move) (ignores : p.Ignores move) : Moves p cache move ⟨p, cache, []⟩
  | sent (command : Command) :
    Moves p cache (.send command) ⟨{ p with commands := p.commands ++ [command] }, cache, []⟩
  | heard (sighting : Sighting) :
    Moves p cache (.hear sighting) ⟨{ p with sightings := p.sightings ++ [sighting] }, cache, []⟩
  | dealt (command : Command) (rest : List Command) (s : Step) (closing : p.isClosing = false)
    (commands : p.commands = command :: rest)
    (step : Deals { p with commands := rest } command s) : Moves p cache .takeCommand s
  | sighted (s : Step) (closing : p.isClosing = false) (step : p.GoesOn s) :
    Moves p cache .takeSighting s
  | scanned (result : Except RadioError Unit) (s : Step) (closing : p.isClosing = false)
    (step : p.GoesOn s) : Moves p cache (.scanAnswered result) s
  | closed (result : Closing) (s : Step) (closing : p.isClosing = true) (step : p.GoesOn s) :
    Moves p cache (.closed result) s
  | begun (id : FetchId) (f : Fetch) (fetch : p.fetches.get? id = some f) (stage : f.stage = .ready) :
    Moves p cache (.fetchBegins id) (p.applyTurn id f.epoch (f.begin id) cache)
  | answered (id : FetchId) (f : Fetch) (fetch : p.fetches.get? id = some f) (answer : Answer)
    (turn : Fetch.Turn) (answered : f.Answered id answer turn) :
    Moves p cache (.fetchAnswered id answer) (p.applyTurn id f.epoch turn cache)
  | expired (id : FetchId) (f : Fetch) (fetch : p.fetches.get? id = some f) (outcome : Outcome)
    (late : timedOut outcome = true) :
    Moves p cache (.fetchExpires id)
      (p.applyTurn id f.epoch (Fetch.finished outcome []) cache)

/-- To take a command is to take the first, between messages. -/
theorem takeCommand_cases (p : Pipeline) (config : Config) (now : Timestamp) (cache : Cache) :
    p.move config now cache .takeCommand = ⟨p, cache, []⟩ ∨
      ∃ command rest, p.control = .waiting ∧ p.commands = command :: rest ∧
        p.move config now cache .takeCommand =
          onCommand { p with commands := rest } config now command cache := by
  unfold Pipeline.move
  dsimp only
  split
  · rename_i command rest hcontrol hcommands
    exact .inr ⟨command, rest, hcontrol, hcommands, rfl⟩
  · exact .inl rfl

/-- To take a sighting is to take the first, between messages. -/
theorem takeSighting_cases (p : Pipeline) (config : Config) (now : Timestamp) (cache : Cache) :
    p.move config now cache .takeSighting = ⟨p, cache, []⟩ ∨
      ∃ sighting rest, p.control = .waiting ∧ p.sightings = sighting :: rest ∧
        p.move config now cache .takeSighting =
          onSighting { p with sightings := rest } config now sighting cache := by
  unfold Pipeline.move
  dsimp only
  split
  · rename_i sighting rest hcontrol hsightings
    exact .inr ⟨sighting, rest, hcontrol, hsightings, rfl⟩
  · exact .inl rfl

/-- **Every move comes about in one of these ways.** -/
theorem Coherent.moves (h : p.Coherent) (config : Config) (now : Timestamp) (cache : Cache)
    (move : Move) : p.Moves cache move (p.move config now cache move) := by
  cases move with
  | send command => exact .sent command
  | hear sighting => exact .heard sighting
  | takeCommand =>
    have hactive : p.active = false → p.inFlight = none := by
      intro hinactive
      rcases hg : p.inFlight with _ | g
      · rfl
      · cases hinactive.symm.trans (h.tracks.active g hg)
    rcases p.takeCommand_cases config now cache with
      hstep | ⟨command, rest, hcontrol, hcommands, hstep⟩
    · rw [hstep]
      exact .rests _ trivial
    · have hclosing : p.isClosing = false := by rw [isClosing, hcontrol]
      rw [hstep]
      exact .dealt command rest _ hclosing hcommands
        (deals_onCommand (p := { p with commands := rest }) hactive config now command)
  | takeSighting =>
    rcases p.takeSighting_cases config now cache with
      hstep | ⟨sighting, rest, hcontrol, hsightings, hstep⟩
    · rw [hstep]
      exact .rests _ trivial
    · have hclosing : p.isClosing = false := by rw [isClosing, hcontrol]
      rw [hstep]
      exact .sighted _ hclosing ((GoesOn.onSighting { p with sightings := rest } config now
        sighting).of_same ⟨rfl, rfl, rfl, rfl, rfl, rfl, id⟩)
  | scanAnswered result =>
    rcases goesOn_onScanAnswered h.control result cache with hstep | ⟨hclosing, hstep⟩
    · rw [Pipeline.move, hstep]
      exact .rests _ trivial
    · exact .scanned result _ hclosing hstep
  | closed result =>
    rcases goesOn_onClosed h.control config now result cache with
      ⟨hclosing, hstep⟩ | ⟨hclosing, hstep⟩
    · rw [Pipeline.move, hstep]
      exact .rests _ hclosing
    · exact .closed result _ hclosing hstep
  | fetchBegins id =>
    rw [Pipeline.move.eq_def]
    dsimp only
    -- a fetch that is over has left the table, and has no turn any more
    rcases hf : p.fetches.get? id with _ | f
    · exact .rests _ trivial
    dsimp only
    by_cases hstage : f.stage = .ready
    · rw [if_pos hstage]
      exact .begun id f hf hstage
    · rw [if_neg hstage]
      exact .rests _ trivial
  | fetchAnswered id answer =>
    rw [Pipeline.move.eq_def]
    dsimp only
    rcases hf : p.fetches.get? id with _ | f
    · refine .rests _ fun f hf' => ?_
      cases hf.symm.trans hf'
    dsimp only
    rcases hturn : f.resume id answer with _ | turn
    · refine .rests _ fun f' hf' => ?_
      cases hf.symm.trans hf'
      exact hturn
    · exact .answered id f hf answer turn (Fetch.answered_of_resume hturn)
  | fetchExpires id =>
    rw [Pipeline.move.eq_def]
    dsimp only
    rcases hf : p.fetches.get? id with _ | f
    · exact .rests _ trivial
    · exact .expired id f hf _ rfl

/-- **Every move keeps the invariant of the pipeline.** -/
theorem Coherent.move (h : p.Coherent) (config : Config) (now : Timestamp) (cache : Cache)
    {move : Move} (hmove : move.IsGenuine) : (p.move config now cache move).pipeline.Coherent := by
  have hmoves := h.moves config now cache move
  generalize p.move config now cache move = s at hmoves
  cases hmoves with
  | rests => exact h
  | sent command => exact h.send hmove.reportOf?_eq_none
  | heard sighting =>
    have same : p.SameFetches { p with sightings := p.sightings ++ [sighting] } :=
      ⟨rfl, rfl, rfl, rfl, rfl, rfl, id⟩
    exact ⟨same.tracks h.tracks, h.control⟩
  | dealt command rest s closing commands step => exact step.coherent h.tracks commands
  | sighted s closing step => exact (step.coherent h.tracks).1
  | scanned result s closing step => exact (step.coherent h.tracks).1
  | closed result s closing step => exact (step.coherent h.tracks).1
  | begun id f fetch stage => exact h.applyTurn fetch (f.fits_begin id) cache
  | answered id f fetch answer turn answered => exact h.applyTurn fetch answered.fits cache
  | expired id f fetch outcome late => exact h.applyTurn fetch (f.fits_finished outcome []) cache

end Pipeline

end Nearby.Scan
