import Nearby.Proofs.Scan.Consistent

/-!
# Commands and the callers that wait for them

A caller sends a command with a ticket and waits until the ticket is acknowledged. In between the
command waits in the mailbox, and then the driver may have to wait for the radio before it is through
with it. What the driver owes to callers is the command in hand and those in the mailbox
(`Pipeline.owed`); every move takes what it acknowledges off the front of that list, and puts nothing
in (`Pipeline.pays_move`).

The same steps tell two more things of the driver. It takes the radio to scan exactly while the radio
has agreed to scan and not yet been called off (`Pipeline.radioOn`). The call to stop may fail, and
the driver does not come back to it; so the radio also scans where scanning lingers, and otherwise
it does not (`Pipeline.radioNext_eq`). And each command keeps the driver waiting for the radio twice
at most (`Pipeline.load`), so the mailbox is emptied in the end if the driver is left to it.
-/

namespace Nearby.Scan

/-- The ticket of a command. -/
def Halt.ticket : Halt → Ticket
  | .sync ticket => ticket
  | .shutdown ticket => ticket

/-- The command of a caller. -/
def Command.halt? : Command → Option Halt
  | .sync ticket => some (.sync ticket)
  | .shutdown ticket => some (.shutdown ticket)
  | .report .. => none

/-- The command in hand while scanning stops. -/
def AfterPause.halt? : AfterPause → Option Halt
  | .halt order => some order
  | .launch _ => none

/-- The command in hand while a link is closed. -/
def AfterClose.halt? : AfterClose → Option Halt
  | .halt order => some order
  | .settle .. => none

namespace Control

/-- The command in hand: the driver waits for the radio on its account. -/
def halt? : Control → Option Halt
  | .starting ticket => ticket.map .sync
  | .stopping next => next.halt?
  | .closing _ next => next.halt?
  | .waiting => none
  | .exited => none

/-- True while the radio was called off and has not answered. -/
def isStopping : Control → Bool
  | .stopping _ => true
  | _ => false

/-- How often the driver still waits for the radio before it takes another message. -/
def load : Control → Nat
  | .starting _ => 1
  | .stopping _ => 1
  | .closing .. => 2
  | .waiting => 0
  | .exited => 0

/-- True once the driver has stopped for good. -/
def isExited : Control → Bool
  | .exited => true
  | _ => false

theorem eq_exited_of_isExited {c : Control} (h : c.isExited = true) : c = .exited := by
  cases c with
  | exited => rfl
  | waiting | starting | stopping | closing => cases h

end Control

namespace Pipeline

/-- What the driver owes to callers, oldest first. -/
def owed (p : Pipeline) : List Halt :=
  p.control.halt?.toList ++ p.commands.filterMap Command.halt?

/-- True while the radio scans, so far as the driver knows. -/
def radioOn (p : Pipeline) : Bool := p.scanning || p.control.isStopping

/-- How much is left for the driver to do, the sightings apart. -/
def load (p : Pipeline) : Nat := 3 * p.commands.length + p.control.load

end Pipeline

/-- The ticket that an effect acknowledges. -/
def Effect.acknowledged? : Effect → Option Ticket
  | .acknowledge ticket => some ticket
  | _ => none

/-- Effects of a kind that acknowledges nothing acknowledge nothing together. -/
theorem filterMap_acknowledged?_map {α : Type} {effect : α → Effect}
    (h : ∀ a, (effect a).acknowledged? = none) (l : List α) :
    (l.map effect).filterMap Effect.acknowledged? = [] := by
  rw [List.filterMap_map, List.filterMap_eq_nil_iff]
  exact fun a _ => h a

/-- The tickets that a step acknowledges. -/
def Step.acknowledged (s : Step) : List Ticket := s.effects.filterMap Effect.acknowledged?

@[simp] theorem Step.acknowledged_after (effects : List Effect) (s : Step) :
    (s.after effects).acknowledged = effects.filterMap Effect.acknowledged? ++ s.acknowledged :=
  List.filterMap_append

/-- A command in hand is carried out, or the driver waits for the radio on its account. -/
inductive Step.Handles (s : Step) (halt : Option Halt) : Prop
  | done (control : s.pipeline.control.halt? = none)
    (acknowledged : s.acknowledged = (halt.map Halt.ticket).toList)
    (exits : s.pipeline.control.isExited = true ↔ ∃ ticket, halt = some (.shutdown ticket))
  | waits (control : s.pipeline.control.halt? = halt) (acknowledged : s.acknowledged = [])
    (stays : s.pipeline.control.isExited = false)

/-- What a step of the driver does about a command in hand, the radio and the mailbox. -/
structure Step.Serves (s : Step) (p : Pipeline) (halt : Option Halt) (load : Nat) : Prop where
  handles : s.Handles halt
  commands : s.pipeline.commands = p.commands
  radioOn : s.pipeline.radioOn = p.scanning
  load : s.pipeline.control.load ≤ load

namespace Step.Serves

variable {s : Step} {p q : Pipeline} {halt : Option Halt} {load more : Nat}

theorem mono (h : s.Serves p halt load) (hle : load ≤ more) : s.Serves p halt more :=
  ⟨h.handles, h.commands, h.radioOn, Nat.le_trans h.load hle⟩

theorem of_eq (h : s.Serves q halt load) (hcommands : q.commands = p.commands)
    (hscanning : q.scanning = p.scanning) : s.Serves p halt load :=
  ⟨h.handles, h.commands.trans hcommands, h.radioOn.trans hscanning, h.load⟩

/-- Effects that acknowledge nothing do not matter. -/
theorem after (h : s.Serves p halt load) {effects : List Effect}
    (heffects : effects.filterMap Effect.acknowledged? = []) :
    (s.after effects).Serves p halt load := by
  obtain ⟨handles, commands, radioOn, load⟩ := h
  have hsame : (s.after effects).acknowledged = s.acknowledged := by
    rw [acknowledged_after, heffects, List.nil_append]
  refine ⟨?_, commands, radioOn, load⟩
  cases handles with
  | done control acknowledged exits => exact .done control (hsame.trans acknowledged) exits
  | waits control acknowledged stays => exact .waits control (hsame.trans acknowledged) stays

end Step.Serves

namespace Pipeline

variable {p : Pipeline} {cache : Cache} {config : Config}

/-! ## The driver -/

/-- The driver is through with a message that nobody waits for. -/
theorem serves_finish (p : Pipeline) {effects : List Effect}
    (heffects : effects.filterMap Effect.acknowledged? = []) :
    Step.Serves ⟨p.finish, cache, effects⟩ p none 0 :=
  ⟨.waits rfl heffects rfl, rfl, Bool.or_false _, Nat.le_refl 0⟩

/-- Who asked for scanning to start is told that it has. -/
theorem serves_finishStart (p : Pipeline) (ticket : Option Ticket) :
    (p.finishStart ticket cache).Serves p (ticket.map .sync) 0 := by
  refine ⟨.done rfl ?_ ?_, rfl, Bool.or_false _, Nat.le_refl 0⟩
  · cases ticket with
    | none => rfl
    | some ticket => rfl
  · cases ticket with
    | none => simp [finishStart, finish, Control.isExited]
    | some ticket => simp [finishStart, finish, Control.isExited]

/-- Who asked for a halt is told that it is done. -/
theorem serves_finishHalt (p : Pipeline) (halt : Halt) :
    (p.finishHalt halt cache).Serves p (some halt) 0 := by
  cases halt with
  | sync ticket =>
    refine ⟨.done rfl rfl ?_, rfl, Bool.or_false _, Nat.le_refl 0⟩
    simp [finishHalt, finish, Control.isExited]
  | shutdown ticket =>
    refine ⟨.done rfl rfl ?_, rfl, Bool.or_false _, Nat.le_refl 0⟩
    simp [finishHalt, Control.isExited]

/-- To launch a fetch does not bear on commands. -/
theorem serves_launch (p : Pipeline) (pending : Pending) :
    (p.launch pending cache).Serves p none 0 :=
  ⟨.waits rfl rfl rfl, rfl, Bool.or_false _, Nat.le_refl 0⟩

/-- A halt is done once scanning has stopped. -/
theorem serves_afterPause (p : Pipeline) (next : AfterPause) :
    (p.afterPause next cache).Serves p next.halt? 0 := by
  cases next with
  | halt halt => exact (serves_finishHalt { p with phase := .idle } halt).of_eq rfl rfl
  | launch pending => exact serves_launch p pending

/-- It waits if scanning has still to be stopped. -/
theorem serves_pause (p : Pipeline) (next : AfterPause) :
    (p.pause next cache).Serves p next.halt? 1 := by
  rw [pause]
  by_cases hscanning : p.scanning = true
  · rw [if_pos hscanning]
    exact ⟨.waits rfl rfl rfl, rfl, hscanning.symm, Nat.le_refl 1⟩
  · rw [if_neg hscanning]
    exact (serves_afterPause p next).mono (Nat.zero_le 1)

/-- Who asked for scanning waits if the radio has still to start. -/
theorem serves_resume (p : Pipeline) (ticket : Option Ticket) :
    (p.resume config ticket cache).Serves p (ticket.map .sync) 1 := by
  rw [resume]
  by_cases hscanning : p.scanning = true
  · rw [if_pos hscanning]
    exact (serves_finishStart p ticket).mono (Nat.zero_le 1)
  · rw [if_neg hscanning]
    exact ⟨.waits rfl rfl rfl, rfl, Bool.or_false _, Nat.le_refl 1⟩

/-- To turn to the next in the queue takes one answer of the radio at most. -/
theorem serves_advance (p : Pipeline) : (p.advance config cache).Serves p none 1 := by
  rw [advance]
  split
  · exact (serves_finish p rfl).mono (Nat.zero_le 1)
  split
  · exact (serves_resume { p with phase := .scanning } none).of_eq rfl rfl
  · rename_i pending queue hqueue
    dsimp only
    split
    · exact (serves_pause { p with queue } (.launch pending)).of_eq rfl rfl
    · exact ((serves_launch { p with queue } pending).mono (Nat.zero_le 1)).of_eq rfl rfl

/-- It does not matter what is counted, nor who is queued. -/
theorem serves_advance_with (p : Pipeline) (counters : Counters) (queue : List Pending) :
    (advance { p with counters, queue } config cache).Serves p none 1 :=
  (serves_advance { p with counters, queue }).of_eq rfl rfl

/-- A caller is told at once if the pipeline is active already. -/
theorem serves_activate (p : Pipeline) (ticket : Ticket) :
    (p.activate config ticket cache).Serves p (some (.sync ticket)) 1 := by
  rw [activate]
  split
  · exact (serves_finishStart p (some ticket)).mono (Nat.zero_le 1)
  · exact (serves_resume { p with active := true, phase := .scanning } (some ticket)).of_eq rfl rfl

/-- A halt takes two answers at most: one to close a link, and one to stop scanning. -/
theorem serves_deactivate (p : Pipeline) (halt : Halt) :
    (p.deactivate halt cache).Serves p (some halt) 2 := by
  rw [deactivate]
  split
  · exact (serves_finishHalt p halt).mono (Nat.zero_le 2)
  rcases hfetch : p.inFlight with _ | fetch
  · have hpause : (p.stopped.pause (.halt halt) cache).Serves p (some halt) 1 :=
      (serves_pause p.stopped (.halt halt)).of_eq rfl rfl
    rw [stopped, hfetch] at hpause
    exact hpause.mono (Nat.le_succ 1)
  · dsimp only
    rw [close_eq (.inr rfl)]
    exact ⟨.waits rfl rfl rfl, rfl, Bool.or_false _, Nat.le_refl 2⟩

/-- To deal with the outcome of a fetch takes one at most. -/
theorem serves_settle (p : Pipeline) (now : Timestamp) (pending : Pending) (outcome : Outcome) :
    (p.settle config now pending outcome cache).Serves p none 1 := by
  cases outcome with
  | ok readings =>
    refine (serves_advance_with p _ p.queue).after ?_
    rw [List.filterMap_append, filterMap_acknowledged?_map (fun _ => rfl),
      filterMap_acknowledged?_map (fun _ => rfl), List.append_nil]
  | error e =>
    refine (serves_advance_with p _ p.queue).after ?_
    rfl

/-- It takes one more if a link is to be closed first. -/
theorem serves_fetchFinished (p : Pipeline) (now : Timestamp) (outcome : Outcome) :
    (p.fetchFinished config now outcome cache).Serves p none 2 := by
  rcases hfetch : p.inFlight with _ | fetch
  · have hfinish : p.fetchFinished config now outcome cache = ⟨p.finish, cache, []⟩ := by
      unfold fetchFinished
      rw [hfetch]
    rw [hfinish]
    exact (serves_finish p rfl).mono (Nat.zero_le 2)
  rw [fetchFinished_of_some hfetch]
  by_cases hclose : fetch.fetch ∈ p.links ∨ timedOut outcome = true
  · rw [close_eq (p := { p with inFlight := none }) hclose]
    exact ⟨.waits rfl rfl rfl, rfl, Bool.or_false _, Nat.le_refl 2⟩
  · obtain ⟨hlink, htime⟩ := not_or.mp hclose
    rw [(Bool.not_eq_true _).mp htime, close_eq_otherwise (p := { p with inFlight := none }) hlink]
    exact ((serves_settle { p with inFlight := none } now fetch.pending outcome).mono
      (Nat.le_succ 1)).of_eq rfl rfl

/-- A report does not bear on commands, but it may take the driver two answers. -/
theorem serves_onReport (p : Pipeline) (now : Timestamp) (epoch : Nat) (said : Report) :
    (p.onReport config now epoch said cache).Serves p none 2 := by
  rw [onReport.eq_def]
  split
  · exact (serves_finish p rfl).mono (Nat.zero_le 2)
  cases said with
  | phase phase =>
    dsimp only
    split
    · exact ((serves_finish { p with phase } rfl).mono (Nat.zero_le 2)).of_eq rfl rfl
    · exact (serves_finish p rfl).mono (Nat.zero_le 2)
  | finished outcome => exact serves_fetchFinished p now outcome

/-- A command is carried out, or kept in hand while the driver waits for the radio. -/
theorem serves_onCommand (p : Pipeline) (now : Timestamp) (command : Command) :
    (p.onCommand config now command cache).Serves p command.halt? 2 := by
  cases command with
  | sync ticket =>
    rw [onCommand]
    split
    · exact serves_deactivate p (.sync ticket)
    · exact (serves_activate p ticket).mono (Nat.le_succ 1)
  | shutdown ticket => exact serves_deactivate p (.shutdown ticket)
  | report id epoch said => exact serves_onReport p now epoch said

/-- A sighting does not bear on commands either. -/
theorem serves_onSighting (p : Pipeline) (now : Timestamp) (sighting : Sighting) :
    (p.onSighting config now sighting cache).Serves p none 1 := by
  have hquiet : ∀ events : List Event,
      (events.map Effect.event).filterMap Effect.acknowledged? = [] :=
    filterMap_acknowledged?_map fun _ => rfl
  rcases onSighting_cases p config now sighting cache with
    ⟨counters, queue, seen, events, hs⟩ | ⟨counters, queue, seen, events, -, -, hs⟩
  · rw [hs]
    exact ((serves_finish { p with counters, queue } (hquiet events)).mono (Nat.zero_le 1)).of_eq
      rfl rfl
  · rw [hs]
    exact (serves_advance_with p counters queue).after (hquiet events)

/-! ## Moves -/

/-- What the driver does next if it is left to it and the radio does as it is told. -/
def nextMove? (p : Pipeline) : Option Move :=
  match p.control with
  | .waiting => if p.commands.isEmpty then none else some .takeCommand
  | .starting _ => some (.scanAnswered (.ok ()))
  | .stopping _ => some (.scanAnswered (.ok ()))
  | .closing .. => some (.closed (.answered (.ok ())))
  | .exited => none

/-- What the driver does next is to take a command, or to get the answer that it waits for. -/
theorem of_nextMove? {move : Move} (h : p.nextMove? = some move) :
    (move = .takeCommand ∧ p.taken? ≠ none) ∨
      (move = .scanAnswered (.ok ()) ∧
        ((∃ ticket, p.control = .starting ticket) ∨ ∃ next, p.control = .stopping next)) ∨
      move = .closed (.answered (.ok ())) ∧ p.isClosing = true := by
  rw [nextMove?] at h
  rcases hcontrol : p.control with _ | ticket | next | ⟨peer, next⟩ | _
  · rw [hcontrol] at h
    rcases hcommands : p.commands with _ | ⟨command, rest⟩
    · rw [hcommands] at h
      cases h
    · rw [hcommands] at h
      refine .inl ⟨(Option.some.inj h).symm, ?_⟩
      rw [taken?, hcontrol, hcommands]
      exact Option.some_ne_none command
  · rw [hcontrol] at h
    exact .inr (.inl ⟨(Option.some.inj h).symm, .inl ⟨ticket, rfl⟩⟩)
  · rw [hcontrol] at h
    exact .inr (.inl ⟨(Option.some.inj h).symm, .inr ⟨next, rfl⟩⟩)
  · rw [hcontrol] at h
    refine .inr (.inr ⟨(Option.some.inj h).symm, ?_⟩)
    rw [isClosing, hcontrol]
  · rw [hcontrol] at h
    cases h

/-- Whether the radio scans after a move, if it scanned before, or not. -/
def radioNext (p : Pipeline) (on : Bool) : Move → Bool
  | .scanAnswered (.ok ()) =>
    match p.control with
    | .starting _ => true
    | .stopping _ => false
    | _ => on
  | _ => on

/-- Whether the driver takes the radio to scan after a move. It takes a call to stop for obeyed,
whatever the answer. -/
def radioOnNext (p : Pipeline) : Move → Bool
  | .scanAnswered result =>
    match p.control with
    | .starting _ => result.isOk || p.radioOn
    | .stopping _ => false
    | _ => p.radioOn
  | _ => p.radioOn

/-- Whether scanning lingers after a move: the radio has failed to stop scanning, and neither started
nor stopped with success since. -/
def scanLingersNext (p : Pipeline) (before : Bool) : Move → Bool
  | .scanAnswered result =>
    match p.control with
    | .starting _ => before && !result.isOk
    | .stopping _ => !result.isOk
    | _ => before
  | _ => before

/-- **The radio scans where the driver takes it to, or else scanning lingers.** -/
theorem radioNext_eq (p : Pipeline) (lingers : Bool) (move : Move) :
    p.radioNext (p.radioOn || lingers) move =
      (p.radioOnNext move || p.scanLingersNext lingers move) := by
  cases move with
  | scanAnswered result =>
    rcases hcontrol : p.control with _ | ticket | next | ⟨peer, next⟩ | _ <;> cases result <;>
      simp [radioNext, radioOnNext, scanLingersNext, radioOn, hcontrol, Control.isStopping,
        Except.isOk, Except.toBool]
  | send | hear | takeCommand | takeSighting | closed | fetchBegins | fetchAnswered
  | fetchExpires => rfl

/-- Nothing comes to linger where the radio does as it is told. -/
theorem scanLingersNext_eq_false (p : Pipeline) {move : Move}
    (hok : ∀ e, move ≠ .scanAnswered (.error e)) : p.scanLingersNext false move = false := by
  cases move with
  | scanAnswered result =>
    cases result with
    | ok _ =>
      rw [scanLingersNext]
      split
      · rfl
      · rfl
      · rfl
    | error e => exact absurd rfl (hok e)
  | send | hear | takeCommand | takeSighting | closed | fetchBegins | fetchAnswered
  | fetchExpires => rfl

/-- What a move has to do with commands: nothing, or it has the driver deal with one, or with none,
from a pipeline `q` on. -/
inductive Tends (p : Pipeline) (move : Move) (s : Step) : Prop
  | rests (control : s.pipeline.control = p.control) (scanning : s.pipeline.scanning = p.scanning)
    (commands : s.pipeline.commands.filterMap Command.halt? = p.commands.filterMap Command.halt?)
    (acknowledged : s.acknowledged = []) (radio : p.radioOnNext move = p.radioOn)
    (other : p.nextMove? ≠ some move)
  | tends (q : Pipeline) (halt : Option Halt) (load : Nat) (serves : s.Serves q halt load)
    (owed : p.owed = halt.toList ++ q.commands.filterMap Command.halt?)
    (running : p.control.isExited = false)
    (radio : q.scanning = p.radioOnNext move)
    (lighter : move ≠ .takeSighting → 3 * q.commands.length + load < p.load)

/-- A move that is not possible at present. -/
theorem tends_rests {move : Move} (hradio : p.radioOnNext move = p.radioOn)
    (hother : p.nextMove? ≠ some move) : p.Tends move ⟨p, cache, []⟩ :=
  .rests rfl rfl rfl rfl hradio hother

/-- Commands of a kind that nobody waits for add nothing to what is owed. -/
theorem filterMap_halt?_map {α : Type} {command : α → Command}
    (h : ∀ a, (command a).halt? = none) (l : List α) :
    (l.map command).filterMap Command.halt? = [] := by
  rw [List.filterMap_map, List.filterMap_eq_nil_iff]
  exact fun a _ => h a

/-- The turn of a fetch changes nothing about what the driver owes. -/
theorem tends_turn (p : Pipeline) (config : Config) (now : Timestamp) (cache : Cache) {move : Move}
    (hmove : move.isTurn = true) : p.Tends move (p.move config now cache move) := by
  have hradio : p.radioOnNext move = p.radioOn := by
    cases move with
    | fetchBegins | fetchAnswered | fetchExpires => rfl
    | send | hear | takeCommand | takeSighting | scanAnswered | closed => cases hmove
  have hother : p.nextMove? ≠ some move := by
    intro hnext
    obtain ⟨rfl, -⟩ | ⟨rfl, -⟩ | ⟨rfl, -⟩ := of_nextMove? hnext
    · cases hmove
    · cases hmove
    · cases hmove
  rcases p.turn_cases config now cache hmove with hs | ⟨id, epoch, turn, hs, -⟩
  · rw [hs]
    exact tends_rests hradio hother
  · rw [hs]
    refine .rests ?_ ?_ ?_ ?_ hradio hother
    · rw [pipeline_applyTurn]
    · rw [pipeline_applyTurn]
    · rw [pipeline_applyTurn, List.filterMap_append, filterMap_halt?_map (fun _ => rfl),
        List.append_nil]
    · rw [applyTurn]
      rcases turn.next with _ | ⟨fetch, call⟩
      · exact filterMap_acknowledged?_map (fun _ => rfl) _
      · rw [Step.acknowledged, List.filterMap_append, filterMap_acknowledged?_map (fun _ => rfl)]
        rfl

/-- To take a command leaves less to do, though the command may have to be kept in hand. -/
theorem tends_takeCommand (p : Pipeline) (config : Config) (now : Timestamp) (cache : Cache) :
    p.Tends .takeCommand (p.move config now cache .takeCommand) := by
  rcases htaken : p.taken? with _ | command
  · rw [move_takeCommand_of_none htaken now cache]
    refine tends_rests rfl fun hnext => ?_
    obtain ⟨-, htakes⟩ | ⟨hmove, -⟩ | ⟨hmove, -⟩ := of_nextMove? hnext
    · exact htakes htaken
    · cases hmove
    · cases hmove
  · obtain ⟨hcontrol, hcommands⟩ := of_taken htaken
    rw [move_takeCommand htaken config now cache]
    refine .tends _ _ _ (serves_onCommand { p with commands := p.commands.tail } now command) ?_ ?_
      ?_ fun _ => ?_
    · rw [owed, hcontrol, hcommands, List.filterMap_cons]
      cases command with
      | sync | shutdown | report => rfl
    · rw [hcontrol]
      rfl
    · simp [radioOnNext, radioOn, hcontrol, Control.isStopping]
    · have hlength : p.commands.length = p.commands.tail.length + 1 := congrArg List.length hcommands
      rw [load, hcontrol, hlength]
      exact Nat.lt_succ_self _

/-- To take a sighting leaves the commands where they are. -/
theorem tends_takeSighting (p : Pipeline) (config : Config) (now : Timestamp) (cache : Cache) :
    p.Tends .takeSighting (p.move config now cache .takeSighting) := by
  rcases p.takeSighting_cases config now cache with
    hs | ⟨sighting, rest, hcontrol, hsightings, hs⟩
  · rw [hs]
    refine tends_rests rfl fun hnext => ?_
    obtain ⟨hmove, -⟩ | ⟨hmove, -⟩ | ⟨hmove, -⟩ := of_nextMove? hnext
    · cases hmove
    · cases hmove
    · cases hmove
  · rw [hs]
    refine .tends _ _ _ (serves_onSighting { p with sightings := rest } now sighting) ?_ ?_ ?_
      fun hother => absurd rfl hother
    · rw [owed, hcontrol]
      rfl
    · rw [hcontrol]
      rfl
    · simp [radioOnNext, radioOn, hcontrol, Control.isStopping]

/-- The radio has answered whether it scans. -/
theorem onScanAnswered_starting {ticket : Option Ticket} (hcontrol : p.control = .starting ticket)
    (result : Except RadioError Unit) (cache : Cache) :
    p.onScanAnswered result cache =
      match result with
      | .ok () => finishStart { p with scanning := true } ticket cache
      | .error e => (p.finishStart ticket cache).after [.warn (.scanNotStarted e)] := by
  cases result with
  | ok => simp only [onScanAnswered, hcontrol]
  | error => simp only [onScanAnswered, hcontrol]

/-- It has answered whether it stopped. -/
theorem onScanAnswered_stopping {next : AfterPause} (hcontrol : p.control = .stopping next)
    (result : Except RadioError Unit) (cache : Cache) :
    p.onScanAnswered result cache =
      match result with
      | .ok () => p.afterPause next cache
      | .error e => (p.afterPause next cache).after [.warn (.scanNotStopped e)] := by
  cases result with
  | ok => simp only [onScanAnswered, hcontrol]
  | error => simp only [onScanAnswered, hcontrol]

/-- An answer about scanning leaves less to do. -/
theorem tends_scanAnswered (hd : p.driver.Consistent config) (now : Timestamp) (cache : Cache)
    (result : Except RadioError Unit) :
    p.Tends (.scanAnswered result) (p.move config now cache (.scanAnswered result)) := by
  rw [Driver.Consistent, control_driver] at hd
  have hmove : p.move config now cache (.scanAnswered result) = p.onScanAnswered result cache := rfl
  -- an answer that the driver does not wait for is none
  have hrests : (∀ ticket, p.control ≠ .starting ticket) → (∀ next, p.control ≠ .stopping next) →
      p.onScanAnswered result cache = ⟨p, cache, []⟩ →
      p.Tends (.scanAnswered result) (p.move config now cache (.scanAnswered result)) := by
    intro hstarting hstopping hs
    rw [hmove, hs]
    refine tends_rests ?_ fun hnext => ?_
    · rw [radioOnNext.eq_def]
      dsimp only
      split
      · rename_i ticket hcontrol
        exact absurd hcontrol (hstarting ticket)
      · rename_i next hcontrol
        exact absurd hcontrol (hstopping next)
      · rfl
    · obtain ⟨hmove, -⟩ | ⟨-, ⟨ticket, hcontrol⟩ | ⟨next, hcontrol⟩⟩ | ⟨hmove, -⟩ :=
        of_nextMove? hnext
      · cases hmove
      · exact hstarting ticket hcontrol
      · exact hstopping next hcontrol
      · cases hmove
  rcases hcontrol : p.control with _ | ticket | next | ⟨peer, next⟩ | _
  · exact hrests (by simp [hcontrol]) (by simp [hcontrol]) (by rw [onScanAnswered, hcontrol])
  · have howed : p.owed = (ticket.map Halt.sync).toList ++ p.commands.filterMap Command.halt? := by
      rw [owed, hcontrol]
      rfl
    have hload : 3 * p.commands.length + 0 < p.load := by
      rw [load, hcontrol]
      exact Nat.lt_succ_self _
    have hrunning : p.control.isExited = false := by
      rw [hcontrol]
      rfl
    rw [hmove, onScanAnswered_starting hcontrol]
    cases result with
    | ok _ =>
      refine .tends { p with scanning := true } _ _ (serves_finishStart _ ticket) howed hrunning ?_
        fun _ => hload
      rw [radioOnNext.eq_def, hcontrol]
      rfl
    | error e =>
      -- the radio has not started, and the caller is told that it has all the same
      refine .tends p _ _ ((serves_finishStart p ticket).after rfl) howed hrunning ?_ fun _ => hload
      simp [radioOnNext, radioOn, hcontrol, Control.isStopping, Except.isOk, Except.toBool]
  · have howed : p.owed = next.halt?.toList ++ p.commands.filterMap Command.halt? := by
      rw [owed, hcontrol]
      rfl
    have hload : 3 * p.commands.length + 0 < p.load := by
      rw [load, hcontrol]
      exact Nat.lt_succ_self _
    have hrunning : p.control.isExited = false := by
      rw [hcontrol]
      rfl
    rw [hcontrol] at hd
    rw [hmove, onScanAnswered_stopping hcontrol]
    cases result with
    | ok _ =>
      refine .tends p _ _ (serves_afterPause p next) howed hrunning ?_ fun _ => hload
      rw [radioOnNext.eq_def, hcontrol]
      exact hd.1
    | error e =>
      refine .tends p _ _ ((serves_afterPause p next).after rfl) howed hrunning ?_ fun _ => hload
      rw [radioOnNext.eq_def, hcontrol]
      exact hd.1
  · exact hrests (by simp [hcontrol]) (by simp [hcontrol]) (by rw [onScanAnswered, hcontrol])
  · exact hrests (by simp [hcontrol]) (by simp [hcontrol]) (by rw [onScanAnswered, hcontrol])

/-- So does the end of an attempt to close a link. -/
theorem tends_closed (p : Pipeline) (config : Config) (now : Timestamp) (cache : Cache)
    (closing : Closing) : p.Tends (.closed closing) (p.move config now cache (.closed closing)) := by
  have hmove : p.move config now cache (.closed closing) = p.onClosed config now closing cache := rfl
  have hquiet (peer : RadioId) :
      (closing.warnings peer).filterMap Effect.acknowledged? = [] := by
    cases closing with
    | answered => rfl
    | timedOut => rfl
  -- while a link is closed, the driver is neither through with a command nor stopped
  have hcloses : ∀ {peer : RadioId} {next : AfterClose}, p.control = .closing peer next →
      p.owed = next.halt?.toList ++ p.commands.filterMap Command.halt? ∧
        p.control.isExited = false ∧ p.scanning = p.radioOnNext (.closed closing) ∧
        3 * p.commands.length + 1 < p.load := by
    intro peer next hcontrol
    refine ⟨?_, ?_, ?_, ?_⟩
    · rw [owed, hcontrol]
      rfl
    · rw [hcontrol]
      rfl
    · rw [radioOnNext.eq_def, radioOn, hcontrol]
      exact (Bool.or_false _).symm
    · rw [load, hcontrol]
      exact Nat.lt_succ_self _
  rw [hmove]
  obtain ⟨hclosing, hs⟩ | ⟨peer, order, hcontrol, hs⟩ | ⟨peer, pending, outcome, hcontrol, hs⟩ :=
    p.onClosed_cases config now closing cache
  · rw [hs]
    refine tends_rests rfl fun hnext => ?_
    obtain ⟨hmove, -⟩ | ⟨hmove, -⟩ | ⟨-, hcloses⟩ := of_nextMove? hnext
    · cases hmove
    · cases hmove
    · cases hclosing.symm.trans hcloses
  · obtain ⟨howed, hrunning, hradio, hload⟩ := hcloses hcontrol
    rw [hs]
    refine .tends { p with counters.fetchesCancelled := p.counters.fetchesCancelled + 1 } _ _
      ?_ howed hrunning hradio fun _ => hload
    exact (serves_pause _ (.halt order)).after (hquiet peer)
  · obtain ⟨howed, hrunning, hradio, hload⟩ := hcloses hcontrol
    rw [hs]
    refine .tends p _ _ ?_ howed hrunning hradio fun _ => hload
    exact (serves_settle p now pending outcome).after (hquiet peer)

/-- **Every move but the sending of a command** deals with a command, or with none. -/
theorem tends_move (hd : p.driver.Consistent config) (now : Timestamp) (cache : Cache) {move : Move}
    (hmove : ∀ command, move ≠ .send command) : p.Tends move (p.move config now cache move) := by
  cases move with
  | send command => exact absurd rfl (hmove command)
  | hear sighting =>
    refine .rests rfl rfl rfl rfl rfl fun hnext => ?_
    obtain ⟨hmove, -⟩ | ⟨hmove, -⟩ | ⟨hmove, -⟩ := of_nextMove? hnext
    · cases hmove
    · cases hmove
    · cases hmove
  | takeCommand => exact p.tends_takeCommand config now cache
  | takeSighting => exact p.tends_takeSighting config now cache
  | scanAnswered result => exact tends_scanAnswered hd now cache result
  | closed closing => exact p.tends_closed config now cache closing
  | fetchBegins | fetchAnswered | fetchExpires => exact p.tends_turn config now cache rfl

end Pipeline

/-! ## What comes of a move -/

/-- A step takes these commands off what is owed, acknowledges them, and has the driver stop for
good where it was told to. -/
structure Step.Pays (s : Step) (p : Pipeline) (done : List Halt) : Prop where
  owed : p.owed = done ++ s.pipeline.owed
  acknowledged : s.acknowledged = done.map Halt.ticket
  exits : s.pipeline.control.isExited = true ↔
    p.control.isExited = true ∨ ∃ ticket, .shutdown ticket ∈ done

/-- What a step does about the command in hand is what it pays of the driver's debts. -/
theorem Step.Serves.pays {s : Step} {p q : Pipeline} {halt : Option Halt} {load : Nat}
    (h : s.Serves q halt load) (howed : p.owed = halt.toList ++ q.commands.filterMap Command.halt?)
    (hrunning : p.control.isExited = false) : ∃ done, s.Pays p done := by
  obtain ⟨handles, commands, -, -⟩ := h
  cases handles with
  | done control acknowledged exits =>
    refine ⟨halt.toList, ?_, ?_, ?_⟩
    · rw [howed, Pipeline.owed, control, commands]
      rfl
    · rw [acknowledged, Option.toList_map]
    · rw [exits, hrunning]
      simp
  | waits control acknowledged stays =>
    refine ⟨[], ?_, acknowledged, ?_⟩
    · rw [howed, Pipeline.owed, control, commands]
      rfl
    · rw [stays, hrunning]
      simp

namespace Pipeline

variable {config : Config} {p : Pipeline}

/-- **What a move acknowledges is what was owed the longest**, and the rest stays owed. -/
theorem pays_move (hd : p.driver.Consistent config) (now : Timestamp) (cache : Cache) {move : Move}
    (hmove : ∀ command, move ≠ .send command) :
    ∃ done, (p.move config now cache move).Pays p done := by
  cases tends_move hd now cache hmove with
  | rests control scanning commands acknowledged radio other =>
    refine ⟨[], ?_, acknowledged, ?_⟩
    · rw [owed, owed, control, commands]
      rfl
    · rw [control]
      simp
  | tends q halt load serves owed running radio lighter => exact serves.pays owed running

/-- A command that is sent is owed from now on. -/
theorem owed_send (p : Pipeline) (command : Command) :
    owed { p with commands := p.commands ++ [command] } = p.owed ++ command.halt?.toList := by
  rw [owed, owed, List.filterMap_append, List.append_assoc]
  rcases command with ticket | ticket | ⟨id, epoch, said⟩
  · rfl
  · rfl
  · rfl

/-- What the driver takes the radio to do after a move. -/
theorem radioOn_move (hd : p.driver.Consistent config) (now : Timestamp) (cache : Cache)
    (move : Move) : (p.move config now cache move).pipeline.radioOn = p.radioOnNext move := by
  by_cases hmove : ∃ command, move = .send command
  · obtain ⟨command, rfl⟩ := hmove
    rfl
  cases tends_move hd now cache (not_exists.mp hmove) with
  | rests control scanning commands acknowledged radio other =>
    rw [radio, radioOn, radioOn, control, scanning]
  | tends q halt load serves owed running radio lighter => exact serves.radioOn.trans radio

/-- **The driver gets on** if it is left to it. -/
theorem load_move_lt (hd : p.driver.Consistent config) (now : Timestamp) (cache : Cache)
    {move : Move} (hnext : p.nextMove? = some move) :
    (p.move config now cache move).pipeline.load < p.load := by
  have hkind := of_nextMove? hnext
  have hsend : ∀ command, move ≠ .send command := by
    rintro command rfl
    simp at hkind
  have hsighting : move ≠ .takeSighting := by
    rintro rfl
    simp at hkind
  cases tends_move hd now cache hsend with
  | rests control scanning commands acknowledged radio other => exact absurd hnext other
  | tends q halt load serves owed running radio lighter =>
    calc (p.move config now cache move).pipeline.load
      _ = 3 * q.commands.length + (p.move config now cache move).pipeline.control.load := by
        rw [Pipeline.load, serves.commands]
      _ ≤ 3 * q.commands.length + load := Nat.add_le_add_left serves.load _
      _ < p.load := lighter hsighting

/-- The driver has something to do as long as it owes anything, unless it has stopped for good. -/
theorem exists_nextMove (h : p.owed ≠ []) (hrunning : p.control.isExited = false) :
    ∃ move, p.nextMove? = some move := by
  rw [nextMove?]
  rcases hcontrol : p.control with _ | ticket | next | ⟨peer, next⟩ | _
  · have hsome : p.commands ≠ [] := by
      intro hnone
      rw [owed, hcontrol, hnone] at h
      exact h rfl
    exact ⟨_, if_neg (by simpa using hsome)⟩
  · exact ⟨_, rfl⟩
  · exact ⟨_, rfl⟩
  · exact ⟨_, rfl⟩
  · rw [hcontrol] at hrunning
    cases hrunning

end Pipeline

end Nearby.Scan
