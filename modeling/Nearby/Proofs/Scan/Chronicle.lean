import Nearby.Proofs.Scan.Account
import Nearby.Proofs.Scan.Telling

/-!
# A run and what is noted of it

The outcome of a fetch is a while under way: the fetch puts it into the mailbox, the driver takes it
out, may have to wait for a link to be closed, and only then tells the cache. Meanwhile the pipeline
may be stopped and started again, and other peers be met.

A `Chronicle` notes, along a run, which fetches were launched and for whom, what the cache was told
and on whose report, and when the driver was to look after subscribers or to stop. Whatever happens,
it reads like an `Account`: a fetch is launched while no outcome is due, what the cache is told is
the outcome of the fetch that is due, told for the peer and the stamp it was launched for, and after
a stop nothing is due any more.
-/

namespace Nearby.Scan

/-- What a command has the driver do for subscribers. -/
def Command.note? (cache : Cache) : Command → Option Occurrence
  | .sync _ => some (.synced !cache.subscriptions.isEmpty)
  | .shutdown _ => some .shutDown
  | .report .. => none

/-- The fetch that sent a report. -/
def Command.sender? : Command → Option FetchId
  | .report id _ _ => some id
  | _ => none

namespace Pipeline

/-- The fetch that was launched between two states: each launch takes a number. -/
def launchedBy (p q : Pipeline) : List Occurrence :=
  if q.nextFetch = p.nextFetch then []
  else q.inFlight.toList.map fun g => .launched g.fetch g.pending

/-- The fetch that sent the last command the driver took. -/
def senderAfter (p : Pipeline) (sender : Option FetchId) (move : Move) : Option FetchId :=
  match p.takes? move with
  | some command => command.sender?
  | none => sender

/-- What is noted of a move that leads to the second pipeline. -/
def notes (p : Pipeline) (cache : Cache) (sender : Option FetchId) (move : Move) (q : Pipeline) :
    List Occurrence :=
  ((p.takes? move).bind (Command.note? cache)).toList ++
    ((p.tells? move).toList.map fun t => .told (p.senderAfter sender move) t.1 t.2) ++
    p.launchedBy q

end Pipeline

/-- A system with what was noted of it so far. -/
structure Chronicle where
  system : System
  /-- The fetch that sent the last command the driver took. -/
  sender : Option FetchId
  /-- What was noted, oldest first. -/
  log : List Occurrence

namespace Chronicle

/-- The pipeline of the system. -/
def pipeline (c : Chronicle) : Pipeline := c.system.pipeline

/-- The chronicle before anyone subscribes. -/
def initial (cache : Cache) : Chronicle := ⟨.initial cache, none, []⟩

/-- What comes of a happening, and what is noted of it. -/
def after (config : Config) (c : Chronicle) : Happening → Chronicle
  | .moves now move =>
    let system := c.system.after config (.moves now move)
    ⟨system, c.pipeline.senderAfter c.sender move,
      c.log ++ c.pipeline.notes c.system.cache c.sender move system.pipeline⟩
  | other => { c with system := c.system.after config other }

/-- The chronicle of a list of happenings. -/
def run (config : Config) (c : Chronicle) (happenings : List Happening) : Chronicle :=
  happenings.foldl (after config) c

end Chronicle

/-! ## The account of a run -/

namespace Pipeline

variable {config : Config} {p : Pipeline}

/-- The fetch whose outcome the cache is still to be told: the one in flight, or the one whose link is
being closed. -/
def due (p : Pipeline) (sender : Option FetchId) : Option InFlight :=
  match p.control with
  | .closing _ (.settle pending _) => sender.map fun id => ⟨pending, id⟩
  | _ => p.inFlight

/-- What was noted of a pipeline adds up. -/
structure Accounts (p : Pipeline) (sender : Option FetchId) (log : List Occurrence) : Prop where
  account : Account log p.nextFetch (p.due sender)
  /-- While a link is closed, it is known whose outcome is to be told. -/
  sent : ∀ peer pending outcome, p.control = .closing peer (.settle pending outcome) →
    ∃ id, sender = some id

variable {q : Pipeline} {sender : Option FetchId} {log : List Occurrence}

/-- Where no outcome waits for a link, the fetch in flight is the one that is due. -/
theorem Accounts.of_account (h : Account log p.nextFetch p.inFlight)
    (hcontrol : ∀ peer pending outcome, p.control ≠ .closing peer (.settle pending outcome)) :
    p.Accounts sender log := by
  refine ⟨?_, fun peer pending outcome hclosing => absurd hclosing (hcontrol peer pending outcome)⟩
  rw [due]
  split
  · rename_i peer pending outcome hclosing
    exact absurd hclosing (hcontrol peer pending outcome)
  · exact h

/-- The other way round, what is due is the fetch in flight. -/
theorem Accounts.account_inFlight (h : p.Accounts sender log)
    (hcontrol : ∀ peer pending outcome, p.control ≠ .closing peer (.settle pending outcome)) :
    Account log p.nextFetch p.inFlight := by
  have haccount := h.account
  rw [due] at haccount
  split at haccount
  · rename_i peer pending outcome hclosing
    exact absurd hclosing (hcontrol peer pending outcome)
  · exact haccount

/-- The account depends on nothing else of the pipeline. -/
theorem Accounts.of_eq (h : p.Accounts sender log) (hinFlight : q.inFlight = p.inFlight)
    (hcontrol : q.control = p.control) (hnext : q.nextFetch = p.nextFetch) :
    q.Accounts sender log where
  account := by
    have hdue : q.due sender = p.due sender := by rw [due, hcontrol, hinFlight]; rfl
    rw [hdue, hnext]
    exact h.account
  sent peer pending outcome hclosing := h.sent peer pending outcome (hcontrol ▸ hclosing)

/-- The driver does not wait for a link. -/
theorem ne_of_isClosing_eq_false (h : p.isClosing = false) (peer : RadioId) (next : AfterClose) :
    p.control ≠ .closing peer next := by
  intro hcontrol
  rw [isClosing, hcontrol] at h
  cases h

/-- Nothing was launched if the number of the next fetch is the same. -/
theorem launchedBy_of_eq (h : q.nextFetch = p.nextFetch) : p.launchedBy q = [] := if_pos h

/-- **Going on from an account leads to an account**, a launch included. -/
theorem GoesOn.accounts {s : Step} (hs : q.GoesOn s) (hnext : q.nextFetch = p.nextFetch)
    (h : Account log q.nextFetch q.inFlight) :
    s.pipeline.Accounts sender (log ++ p.launchedBy s.pipeline) := by
  cases hs with
  | stays same control closing quiet =>
    rw [launchedBy_of_eq (same.nextFetch.trans hnext), List.append_nil]
    refine .of_account ?_ fun peer pending outcome => ne_of_isClosing_eq_false closing peer _
    rw [same.nextFetch, same.inFlight]
    exact h
  | launches r pending same idle active pipeline quiet =>
    have hfetch : r.nextFetch = p.nextFetch := same.nextFetch.trans hnext
    have hlaunched : p.launchedBy s.pipeline = [.launched r.nextFetch pending] := by
      rw [pipeline, launchedBy, if_neg]
      · rfl
      · exact fun heq => Nat.succ_ne_self r.nextFetch (heq.trans hfetch.symm)
    rw [hlaunched, pipeline]
    rw [idle, ← same.nextFetch] at h
    exact .of_account (.launched h pending) fun _ _ _ hclosing => by cases hclosing

/-- A stop leaves nothing due. -/
theorem nextFetch_deactivate (h : p.driver.Rests config) (halt : Halt) (cache : Cache) :
    let s := p.deactivate halt cache
    s.pipeline.nextFetch = p.nextFetch ∧ s.pipeline.inFlight = none ∧
      ∀ peer pending outcome, s.pipeline.control ≠ .closing peer (.settle pending outcome) := by
  intro s
  have hfits : s.Fits config p.scanning false := fits_deactivate h halt
  obtain ⟨hidle, hcontrol⟩ := hfits.consistent.of_inactive hfits.active
  have hgoesOn : ∀ {q : Pipeline}, q.GoesOn s → s.pipeline.nextFetch = q.nextFetch := by
    intro q hs
    cases hs with
    | stays same control closing quiet => exact same.nextFetch
    | launches r pending same idle active pipeline quiet =>
      rw [pipeline] at hidle
      cases hidle
  refine ⟨?_, hidle, hcontrol⟩
  have hdeals : p.Deals (.sync 0) s := deals_deactivate (fun _ _ _ hc => by cases hc) halt
  cases hdeals with
  | goesOn other step => exact hgoesOn step
  | stops idle step =>
    have hnext : s.pipeline.nextFetch = p.stopped.nextFetch := hgoesOn step
    exact hnext
  | cancels fetch next inFlight pipeline effects =>
    rw [pipeline]
    rfl
  | settles id outcome fetch report => cases report
  | closes id outcome fetch next report => cases report

/-- A command that is taken names the fetch that it comes from. -/
theorem senderAfter_takeCommand {command : Command} (h : p.taken? = some command) :
    p.senderAfter sender .takeCommand = command.sender? := by
  rw [senderAfter, takes?, h]

/-- To take a command is noted, and so is what the cache is told, and what is launched. -/
theorem notes_takeCommand {command : Command} (h : p.taken? = some command) (cache : Cache) :
    p.notes cache sender .takeCommand q = (command.note? cache).toList ++
      ((p.tells? .takeCommand).toList.map fun t => .told command.sender? t.1 t.2) ++
      p.launchedBy q := by
  rw [notes, senderAfter_takeCommand h, takes?, h]
  rfl

/-- A command that has the pipeline stop. -/
theorem Accounts.stops (h : Account log p.nextFetch p.inFlight) {command : Command}
    (htaken : p.taken? = some command) (hrests : p.driver.Rests config) {cache : Cache}
    {x : Occurrence} (hnote : command.note? cache = some x) (hstop : x.isStop = true)
    (hreport : ∀ id epoch said, command ≠ .report id epoch said) (halt : Halt) :
    let s := deactivate { p with commands := p.commands.tail } halt cache
    s.pipeline.Accounts (p.senderAfter sender .takeCommand)
      (log ++ p.notes cache sender .takeCommand s.pipeline) := by
  intro s
  obtain ⟨hnext, hidle, hcontrol⟩ :=
    nextFetch_deactivate (p := { p with commands := p.commands.tail }) hrests halt cache
  have hlaunched : p.launchedBy s.pipeline = [] := launchedBy_of_eq hnext
  have hnotes : p.notes cache sender .takeCommand s.pipeline = [x] := by
    rw [notes_takeCommand htaken, hnote, hlaunched,
      tells?_takeCommand_eq_none htaken fun id outcome => hreport id _ _]
    rfl
  rw [hnotes]
  refine .of_account ?_ hcontrol
  rw [hnext, hidle]
  exact .stopped h hstop

/-- A command that the driver deals with in passing. -/
theorem Accounts.passes (h : Account log p.nextFetch p.inFlight) {command : Command}
    (htaken : p.taken? = some command)
    (hother : ∀ id outcome, command ≠ .report id p.epoch (.finished outcome)) {cache : Cache}
    (hnote : ∀ x, command.note? cache = some x → x = .synced true) {s : Step}
    (hs : GoesOn { p with commands := p.commands.tail } s) :
    s.pipeline.Accounts (p.senderAfter sender .takeCommand)
      (log ++ p.notes cache sender .takeCommand s.pipeline) := by
  rw [notes_takeCommand htaken, tells?_takeCommand_eq_none htaken hother, Option.toList_none,
    List.map_nil, List.append_nil, ← List.append_assoc]
  refine hs.accounts rfl ?_
  rcases hx : command.note? cache with _ | x
  · rw [Option.toList_none, List.append_nil]
    exact h
  · rw [hnote x hx]
    exact .subscribed h

/-- **The account still adds up once a command was taken.** -/
theorem Accounts.takeCommand (h : p.Accounts sender log) (htracks : p.Tracks)
    (hrests : p.control = .waiting → p.driver.Rests config) (now : Timestamp) (cache : Cache) :
    let s := p.move config now cache .takeCommand
    s.pipeline.Accounts (p.senderAfter sender .takeCommand)
      (log ++ p.notes cache sender .takeCommand s.pipeline) := by
  intro s
  rcases htaken : p.taken? with _ | command
  · have hs : s = ⟨p, cache, []⟩ := move_takeCommand_of_none htaken now cache
    have hnotes : p.notes cache sender .takeCommand p = [] := by
      rw [notes, launchedBy_of_eq rfl, takes?, tells?, htaken]
      rfl
    have hsender : p.senderAfter sender .takeCommand = sender := by
      rw [senderAfter, takes?, htaken]
    rw [hs, hsender, hnotes, List.append_nil]
    exact h
  obtain ⟨hcontrol, hcommands⟩ := of_taken htaken
  have hrests := hrests hcontrol
  have haccount : Account log p.nextFetch p.inFlight :=
    h.account_inFlight fun _ _ _ hclosing => by cases hcontrol.symm.trans hclosing
  have hs : s = onCommand { p with commands := p.commands.tail } config now command cache :=
    move_takeCommand htaken config now cache
  have hinactive : p.active = false → p.inFlight = none := fun hactive =>
    (hrests.of_inactive hactive).1
  cases command with
  | sync ticket =>
    rw [hs, onCommand]
    by_cases hsubs : cache.subscriptions.isEmpty = true
    · rw [if_pos hsubs]
      refine Accounts.stops haccount htaken hrests (x := .synced false) ?_ rfl
        (fun _ _ _ hc => by cases hc) (.sync ticket)
      rw [Command.note?, hsubs]
      rfl
    · rw [if_neg hsubs]
      refine Accounts.passes haccount htaken (fun _ _ hc => by cases hc) ?_
        (.activate (p := { p with commands := p.commands.tail }) hinactive config ticket)
      intro x hx
      rw [Command.note?, (Bool.not_eq_true _).mp hsubs] at hx
      cases hx
      rfl
  | shutdown ticket =>
    rw [hs]
    exact Accounts.stops haccount htaken hrests rfl rfl (fun _ _ _ hc => by cases hc)
      (.shutdown ticket)
  | report id epoch said =>
    -- only the outcome of the fetch in flight is news for the cache
    rcases report_cases htracks htaken with ⟨g, outcome, rfl, rfl, hg, rfl⟩ | hother
    · have hsender : p.senderAfter sender .takeCommand = some g.fetch :=
        senderAfter_takeCommand htaken
      rw [hg] at haccount
      cases takesOutcome hg htaken config now cache with
      | closes tells step =>
        -- the link comes first, and until it is closed the sender is kept in mind
        have hnext : s.pipeline.nextFetch = p.nextFetch := congrArg (·.pipeline.nextFetch) step
        have hnotes : p.notes cache sender .takeCommand s.pipeline = [] := by
          rw [notes_takeCommand htaken, launchedBy_of_eq hnext, tells]
          rfl
        rw [hnotes, hsender, List.append_nil, show s = _ from step]
        exact ⟨haccount, fun _ _ _ _ => ⟨g.fetch, rfl⟩⟩
      | settles tells step =>
        rw [notes_takeCommand htaken, tells, ← List.append_assoc, show s = _ from step]
        exact GoesOn.accounts (.settle _ config now g.pending outcome) rfl (.told haccount outcome)
    · rw [hs]
      refine Accounts.passes haccount htaken ?_ (fun x hx => by cases hx)
        (goesOn_onReport (p := { p with commands := p.commands.tail }) hother config now)
      intro id outcome hc
      cases hc
      exact hother outcome rfl rfl

/-- A move that takes no command leaves the sender as it was. -/
theorem senderAfter_of_takes?_eq_none {move : Move} (h : p.takes? move = none) :
    p.senderAfter sender move = sender := by
  rw [senderAfter, h]

/-- All that is noted of such a move is what the cache is told, and what is launched. -/
theorem notes_of_takes?_eq_none {move : Move} (h : p.takes? move = none) (cache : Cache) :
    p.notes cache sender move q =
      ((p.tells? move).toList.map fun t => .told sender t.1 t.2) ++ p.launchedBy q := by
  rw [notes, senderAfter_of_takes?_eq_none h, h]
  rfl

/-- A move that changes neither the fetch in flight nor what the driver waits for. -/
theorem Accounts.keeps (h : p.Accounts sender log) (move : Move) (htakes : p.takes? move = none)
    (htells : p.tells? move = none) {s : Step} (hinFlight : s.pipeline.inFlight = p.inFlight)
    (hcontrol : s.pipeline.control = p.control) (hnext : s.pipeline.nextFetch = p.nextFetch)
    (cache : Cache) :
    s.pipeline.Accounts (p.senderAfter sender move)
      (log ++ p.notes cache sender move s.pipeline) := by
  have hnotes : p.notes cache sender move s.pipeline = [] := by
    rw [notes_of_takes?_eq_none htakes, htells, launchedBy_of_eq hnext]
    rfl
  rw [senderAfter_of_takes?_eq_none htakes, hnotes, List.append_nil]
  exact h.of_eq hinFlight hcontrol hnext

/-- A move that has the driver go on without a word to the cache. -/
theorem Accounts.goesOn (h : p.Accounts sender log) {move : Move} (htakes : p.takes? move = none)
    (htells : p.tells? move = none) (hclosing : p.isClosing = false) {s : Step} (hs : p.GoesOn s)
    (cache : Cache) :
    s.pipeline.Accounts (p.senderAfter sender move)
      (log ++ p.notes cache sender move s.pipeline) := by
  rw [notes_of_takes?_eq_none htakes, htells]
  exact hs.accounts rfl
    (h.account_inFlight fun peer _ _ => ne_of_isClosing_eq_false hclosing peer _)

/-- The end of an attempt to close a link. -/
theorem Accounts.closed (h : p.Accounts sender log) (hcontrol : p.ControlFits) (now : Timestamp)
    (closing : Closing) (cache : Cache) :
    let s := p.onClosed config now closing cache
    s.pipeline.Accounts sender (log ++ p.notes cache sender (.closed closing) s.pipeline) := by
  intro s
  rcases goesOn_onClosed hcontrol config now closing cache with
    ⟨hclosing, hs⟩ | ⟨hclosing, hs⟩
  · have htells : p.tells? (.closed closing) = none := by
      rw [tells?]
      split
      · rename_i peer pending outcome hcontrol
        exact absurd hcontrol (ne_of_isClosing_eq_false hclosing peer _)
      · rfl
    rw [show s = _ from hs]
    exact h.keeps (.closed closing) rfl htells (s := ⟨p, cache, []⟩) rfl rfl rfl cache
  have hidle : p.inFlight = none := hcontrol.idle_of_isClosing hclosing
  rw [notes_of_takes?_eq_none rfl, ← List.append_assoc]
  refine GoesOn.accounts hs rfl ?_
  rw [isClosing] at hclosing
  split at hclosing
  · rename_i peer next hcontrol
    have haccount := h.account
    rw [tells?, hcontrol]
    rw [due, hcontrol] at haccount
    -- what is due while a link is closed depends on why it is
    cases next with
    | halt halt =>
      rw [hidle] at haccount ⊢
      simpa using haccount
    | settle pending outcome =>
      obtain ⟨id, hid⟩ := h.sent peer pending outcome hcontrol
      rw [hid] at haccount ⊢
      rw [hidle]
      exact .told haccount outcome
  · cases hclosing

/-- **Every move leads from an account to an account.** -/
theorem Accounts.move (h : p.Accounts sender log) (hp : p.Coherent)
    (hd : p.driver.Consistent config) (now : Timestamp) (cache : Cache) (move : Move) :
    let s := p.move config now cache move
    s.pipeline.Accounts (p.senderAfter sender move)
      (log ++ p.notes cache sender move s.pipeline) := by
  intro s
  -- a move that is not possible leaves nothing to note
  have hrests : ∀ {s : Step}, s = ⟨p, cache, []⟩ → p.takes? move = none → p.tells? move = none →
      s.pipeline.Accounts (p.senderAfter sender move)
        (log ++ p.notes cache sender move s.pipeline) := by
    intro s hs htakes htells
    subst hs
    exact h.keeps move htakes htells (s := ⟨p, cache, []⟩) rfl rfl rfl cache
  by_cases hmove : move.isTurn = true
  · obtain ⟨htakes, htells⟩ := p.silent_of_isTurn hmove
    rcases p.turn_cases config now cache hmove with hs | ⟨id, epoch, turn, hs, -⟩
    · exact hrests hs htakes htells
    · have hpipeline : s.pipeline = _ := (congrArg Step.pipeline hs).trans (pipeline_applyTurn ..)
      refine h.keeps move htakes htells ?_ ?_ ?_ cache
      · rw [hpipeline]
      · rw [hpipeline]
      · rw [hpipeline]
  cases move with
  | send command => exact h.keeps _ rfl rfl rfl rfl rfl cache
  | hear sighting => exact h.keeps _ rfl rfl rfl rfl rfl cache
  | takeCommand =>
    exact h.takeCommand hp.tracks hd.rests now cache
  | takeSighting =>
    rcases p.takeSighting_cases config now cache with
      hs | ⟨sighting, rest, hcontrol, hsightings, hs⟩
    · exact hrests hs rfl rfl
    · rw [show s = _ from hs]
      refine h.goesOn rfl rfl (by rw [isClosing, hcontrol]) ?_ cache
      exact (GoesOn.onSighting { p with sightings := rest } config now sighting).of_same
        ⟨rfl, rfl, rfl, rfl, rfl, rfl, id⟩
  | scanAnswered result =>
    rcases goesOn_onScanAnswered hp.control result cache with hs | ⟨hclosing, hs⟩
    · exact hrests hs rfl rfl
    · exact h.goesOn rfl rfl hclosing hs cache
  | closed closing => exact h.closed hp.control now closing cache
  | fetchBegins | fetchAnswered | fetchExpires => exact absurd rfl hmove

end Pipeline

/-! ## Runs -/

namespace Pipeline

variable {config : Config} {p : Pipeline} {sender : Option FetchId} {log : List Occurrence}

/-- **An active pipeline has subscribers**, for all the driver knows. -/
theorem subscribed_move (h : p.active = true → Occurrence.subscribed log = true)
    (hd : p.driver.Consistent config) (hordinary : p.IsOrdinary) (now : Timestamp) (cache : Cache)
    (move : Move) :
    let s := p.move config now cache move
    s.pipeline.active = true →
      Occurrence.subscribed (log ++ p.notes cache sender move s.pipeline) = true := by
  intro s hactive
  rw [show s.pipeline.active = _ from (fits_move hd hordinary now cache move).active] at hactive
  -- what is noted besides the command has no bearing on who is subscribed
  have hother : ∀ x ∈ ((p.tells? move).toList.map fun t =>
      Occurrence.told (p.senderAfter sender move) t.1 t.2) ++ p.launchedBy s.pipeline,
      ∀ now, x ≠ .synced now := by
    intro x hx now hsynced
    rcases List.mem_append.mp hx with hx | hx
    · obtain ⟨t, -, rfl⟩ := List.mem_map.mp hx
      cases hsynced
    · rw [launchedBy] at hx
      split at hx
      · cases hx
      · obtain ⟨g, -, rfl⟩ := List.mem_map.mp hx
        cases hsynced
  rw [notes, List.append_assoc, ← List.append_assoc, Occurrence.subscribed_append hother]
  rcases htakes : p.takes? move with _ | command
  · rw [Option.bind_none, Option.toList_none, List.append_nil]
    refine h ?_
    cases move with
    | takeCommand =>
      rw [takes?] at htakes
      rwa [activeNext, htakes] at hactive
    | send | hear | takeSighting | scanAnswered | closed | fetchBegins | fetchAnswered
    | fetchExpires => exact hactive
  · cases move with
    | takeCommand =>
      rw [takes?] at htakes
      rw [activeNext, htakes] at hactive
      cases command with
      | sync ticket =>
        rw [Option.bind_some, Command.note?, Occurrence.subscribed, List.foldl_append]
        exact hactive
      | shutdown ticket => cases hactive
      | report id epoch said =>
        rw [Option.bind_some, Command.note?, Option.toList_none, List.append_nil]
        exact h hactive
    | send | hear | takeSighting | scanAnswered | closed | fetchBegins | fetchAnswered
    | fetchExpires => cases htakes

/-- A move that deals with what is left of the time when there were subscribers. -/
def DealsWithLeftover (p : Pipeline) (move : Move) : Prop :=
  move = .takeSighting ∨
    move = .takeCommand ∧ ∃ id epoch said, p.taken? = some (.report id epoch said)

/-- **While nobody is subscribed, what is left over comes to nothing.** -/
theorem move_leftover (hp : p.Coherent) (hd : p.driver.Consistent config)
    (hactive : p.active = false) {move : Move} (hmove : p.DealsWithLeftover move) (now : Timestamp)
    (cache : Cache) :
    let s := p.move config now cache move
    s.effects = [] ∧ s.cache = cache := by
  intro s
  rcases hmove with rfl | ⟨rfl, id, epoch, said, htaken⟩
  · rcases p.takeSighting_cases config now cache with
      hs | ⟨sighting, rest, hcontrol, hsightings, hs⟩
    · rw [show s = _ from hs]
      exact ⟨rfl, rfl⟩
    · rw [onSighting, if_pos (by rw [hactive]; rfl)] at hs
      rw [show s = _ from hs]
      exact ⟨rfl, rfl⟩
  · have hs : s = _ := move_takeCommand htaken config now cache
    have hepoch : epoch ≠ p.epoch := by
      rintro rfl
      obtain ⟨g, hg, -⟩ := hp.tracks.sender (mem_commands_of_taken htaken)
      cases (hd.of_inactive hactive).1.symm.trans hg
    rw [onCommand, onReport.eq_def, if_pos hepoch] at hs
    rw [hs]
    exact ⟨rfl, rfl⟩

/-- A phase is taken note of only if it is a phase of the fetch in flight. -/
theorem phase_move (hp : p.Coherent) {id : FetchId} {epoch : Nat} {phase : Phase}
    (htaken : p.taken? = some (.report id epoch (.phase phase))) (now : Timestamp) (cache : Cache) :
    (p.move config now cache .takeCommand).pipeline.phase = p.phase ∨
      ∃ g, p.inFlight = some g ∧ g.fetch = id := by
  by_cases hepoch : epoch = p.epoch
  · subst hepoch
    exact .inr (hp.tracks.sender (mem_commands_of_taken htaken))
  · rw [move_takeCommand htaken config now cache, onCommand, onReport.eq_def, if_pos hepoch]
    exact .inl rfl

end Pipeline

namespace Chronicle

/-- The invariant of a run with what is noted of it. -/
structure IsOrderly (config : Config) (c : Chronicle) : Prop where
  system : c.system.IsOrderly config
  accounts : c.pipeline.Accounts c.sender c.log
  subscribed : c.pipeline.active = true → Occurrence.subscribed c.log = true

variable {config : Config}

theorem isOrderly_initial (cache : Cache) : (initial cache).IsOrderly config where
  system := System.isOrderly_initial cache
  accounts := .of_account .nil fun _ _ _ hcontrol => by cases hcontrol
  subscribed hactive := by cases hactive

/-- Whatever happens leaves a chronicle orderly. -/
theorem IsOrderly.after {c : Chronicle} (h : c.IsOrderly config) {happening : Happening}
    (hgenuine : happening.IsGenuine) : (c.after config happening).IsOrderly config := by
  have hsystem := h.system.after hgenuine
  cases happening with
  | moves now move =>
    obtain ⟨hp, hd, hordinary⟩ := h.system
    exact ⟨hsystem, h.accounts.move hp hd now c.system.cache move,
      Pipeline.subscribed_move h.subscribed hd hordinary now c.system.cache move⟩
  | caches cache => exact ⟨hsystem, h.accounts, h.subscribed⟩
  | turns link connected => exact ⟨hsystem, h.accounts, h.subscribed⟩
  | loses link => exact ⟨hsystem, h.accounts, h.subscribed⟩

theorem IsOrderly.run {c : Chronicle} (h : c.IsOrderly config) {happenings : List Happening}
    (hgenuine : ∀ x ∈ happenings, x.IsGenuine) : (c.run config happenings).IsOrderly config := by
  induction happenings generalizing c with
  | nil => exact h
  | cons x rest ih =>
    obtain ⟨hx, hrest⟩ := List.forall_mem_cons.mp hgenuine
    exact ih (h.after hx) hrest

/-- What a run keeps apart: the fetches with their reports and outcomes, and the times with
subscribers and without. -/
structure KeepsApart (config : Config) (c : Chronicle) : Prop where
  /-- A report of the present epoch in the mailbox was sent by the fetch in flight. -/
  sender : ∀ id said, .report id c.pipeline.epoch said ∈ c.pipeline.commands →
    ∃ g, c.pipeline.inFlight = some g ∧ g.fetch = id
  /-- An outcome of the present epoch finds its fetch in flight, and is for the peer and the stamp
  that fetch was launched for: the cache is told at once, or as soon as the link is closed. -/
  outcome : ∀ id outcome,
    c.pipeline.taken? = some (.report id c.pipeline.epoch (.finished outcome)) →
    ∃ pending, c.pipeline.inFlight = some ⟨pending, id⟩ ∧ .launched id pending ∈ c.log ∧
      ∀ now cache, c.pipeline.TakesOutcome config now cache ⟨pending, id⟩ outcome
  /-- A phase is taken note of only if the fetch that entered it is in flight. -/
  phase : ∀ id epoch phase, c.pipeline.taken? = some (.report id epoch (.phase phase)) →
    ∀ now cache,
      (c.pipeline.move config now cache .takeCommand).pipeline.phase = c.pipeline.phase ∨
        ∃ g, c.pipeline.inFlight = some g ∧ g.fetch = id
  /-- No two fetches have the same number. -/
  launches : (c.log.filterMap Occurrence.launch?).Nodup
  /-- On the report of one fetch, the cache is told something once at most. -/
  once : (c.log.filterMap Occurrence.sender?).Nodup
  /-- What the cache was told is the outcome of a fetch launched for this peer and this stamp, with
  no stop since. -/
  told : ∀ earlier later sender pending outcome,
    c.log = earlier ++ .told sender pending outcome :: later →
    ∃ id before since, sender = some id ∧ earlier = before ++ .launched id pending :: since ∧
      ∀ x ∈ since, x.isStop = false
  /-- Where the log has it that the cache is told something, it is, once. -/
  tells : ∀ now cache move pending outcome, c.pipeline.tells? move = some (pending, outcome) →
    (c.pipeline.move config now cache move).Leaves (cacheTold cache now pending outcome)
      (c.pipeline.counters.told + 1)
  /-- Where the log has nothing of the kind, the cache learns at most that a stamp was seen. -/
  silent : ∀ now cache move, c.pipeline.tells? move = none →
    (c.pipeline.move config now cache move).Leaves cache c.pipeline.counters.told ∨
      ∃ stamp peer, move = .takeSighting ∧
        (c.pipeline.move config now cache move).Leaves (cache.haveSeen now stamp peer).cache
          c.pipeline.counters.told
  /-- Once the driver found no subscribers, and until it finds some, sightings and reports have it
  make no call, and leave the cache as it is. -/
  deserted : ∀ before since, c.log = before ++ .synced false :: since → .synced true ∉ since →
    ∀ now cache move, c.pipeline.DealsWithLeftover move →
      (c.pipeline.move config now cache move).effects = [] ∧
        (c.pipeline.move config now cache move).cache = cache

/-- An orderly chronicle keeps the fetches apart. -/
theorem IsOrderly.keepsApart {c : Chronicle} (h : c.IsOrderly config) : c.KeepsApart config := by
  obtain ⟨hp, hd, hordinary⟩ := h.system
  refine ⟨fun id said hmem => hp.tracks.sender hmem, fun id outcome htaken => ?_,
    fun id epoch phase htaken now cache => Pipeline.phase_move hp htaken now cache, ?_,
    h.accounts.account.senders.1, fun earlier later sender pending outcome hlog =>
      h.accounts.account.launched_of_told hlog, fun now cache move pending outcome htells =>
      Pipeline.leaves_move_of_tells htells config now cache, fun now cache move htells =>
      Pipeline.leaves_move_of_silent hp htells config now cache,
    fun before since hlog hsince now cache move hmove => ?_⟩
  · obtain ⟨⟨pending, id⟩, hg, rfl⟩ :=
      hp.tracks.sender (Pipeline.mem_commands_of_taken htaken)
    have hcontrol := (Pipeline.of_taken htaken).1
    have haccount := h.accounts.account_inFlight fun _ _ _ hclosing => by
      cases hcontrol.symm.trans hclosing
    obtain ⟨before, since, hlog, -⟩ := haccount.launched_of_due hg
    refine ⟨pending, hg, ?_, fun now cache => Pipeline.takesOutcome hg htaken config now cache⟩
    rw [hlog]
    exact List.mem_append_right _ List.mem_cons_self
  · rw [h.accounts.account.launches]
    exact List.nodup_range
  · have hsubscribed : Occurrence.subscribed c.log = false := by
      rw [hlog]
      exact Occurrence.subscribed_eq_false hsince
    have hactive : c.pipeline.active = false := by
      rcases hactive : c.pipeline.active with _ | _
      · rfl
      · cases hsubscribed.symm.trans (h.subscribed hactive)
    exact Pipeline.move_leftover hp hd hactive hmove now cache

/-- **Stale results are discarded, and every result goes to its own fetch**, in whatever order
commands, sightings and reports arrive and are taken. -/
theorem outcomes_kept_apart (config : Config) (cache : Cache) {happenings : List Happening}
    (hgenuine : ∀ x ∈ happenings, x.IsGenuine) :
    ((initial cache).run config happenings).KeepsApart config :=
  ((isOrderly_initial cache).run hgenuine).keepsApart

/-- A fetch runs out of time when its subscriber has already left. The next subscriber comes while
the outcome is still in the mailbox, and the peer is met again; this time it refuses to connect. -/
def comeback : List Happening :=
  [.caches { Cache.new .default with subscriptions := [⟨"", ⟨"list"⟩⟩] },
    .moves ⟨0⟩ (.send (.sync 0)), .moves ⟨1⟩ .takeCommand, .moves ⟨2⟩ (.scanAnswered (.ok ())),
    .moves ⟨3⟩ (.hear ⟨⟨"aa"⟩, Stamp.payload ⟨7⟩⟩), .moves ⟨4⟩ .takeSighting,
    .moves ⟨5⟩ (.scanAnswered (.ok ())), .moves ⟨6⟩ (.fetchBegins 0),
    .caches (.new .default), .moves ⟨7⟩ (.send (.sync 1)), .moves ⟨8⟩ (.fetchExpires 0),
    .moves ⟨9⟩ .takeCommand, .moves ⟨10⟩ (.closed (.answered (.ok ()))),
    .caches { Cache.new .default with subscriptions := [⟨"", ⟨"list"⟩⟩] },
    .moves ⟨11⟩ (.send (.sync 2)), .moves ⟨12⟩ .takeCommand, .moves ⟨13⟩ .takeCommand,
    .moves ⟨14⟩ (.scanAnswered (.ok ())), .moves ⟨15⟩ (.hear ⟨⟨"aa"⟩, Stamp.payload ⟨8⟩⟩),
    .moves ⟨16⟩ .takeSighting, .moves ⟨17⟩ (.scanAnswered (.ok ())), .moves ⟨18⟩ (.fetchBegins 1),
    .moves ⟨19⟩ (.fetchAnswered 1 (.done (.error (.connectFailed "aa" "refused")))),
    .moves ⟨20⟩ .takeCommand]

theorem outcomes_kept_apart_comeback :
    let log := ((initial (.new .default)).run .default comeback).log
    log.filterMap Occurrence.launch? = [0, 1] ∧ log.filterMap Occurrence.sender? = [1] ∧
      ∀ earlier later sender pending outcome,
        log = earlier ++ .told sender pending outcome :: later →
        .launched 1 pending ∈ earlier := by
  intro log
  have hgenuine : ∀ x ∈ comeback, x.IsGenuine := by
    simp [comeback, Happening.IsGenuine, Move.IsGenuine]
  have hapart := outcomes_kept_apart .default (.new .default) hgenuine
  have hsenders : log.filterMap Occurrence.sender? = [1] := by decide +kernel
  refine ⟨by decide +kernel, hsenders, fun earlier later sender pending outcome hlog => ?_⟩
  obtain ⟨id, before, since, rfl, rfl, -⟩ := hapart.told earlier later sender pending outcome hlog
  have hmem : .told (some id) pending outcome ∈ log := by
    rw [hlog]
    exact List.mem_append_right _ List.mem_cons_self
  have hid : id ∈ log.filterMap Occurrence.sender? := List.mem_filterMap.mpr ⟨_, hmem, rfl⟩
  obtain rfl : id = 1 := List.mem_singleton.mp (hsenders ▸ hid)
  exact List.mem_append_right _ List.mem_cons_self

end Chronicle

end Nearby.Scan
