import Nearby.Proofs.Scan.Recording

/-!
# Nothing depends on how many fetches took too long

The driver counts the fetches that took too long among those that failed, and nothing it does depends
on that count: what comes of a move is the same whatever the count is (`Pipeline.move_forgetLate`).
So two systems that differ in nothing else do the same whatever happens to them (`System.Alike.run`).
-/

namespace Nearby.Scan

/-- The counters without the count of fetches that took too long. -/
def Counters.forgetLate (c : Counters) : Counters := { c with fetchesTimedOut := 0 }

/-- The pipeline without the count of fetches that took too long. -/
def Pipeline.forgetLate (p : Pipeline) : Pipeline :=
  { p with
    counters := p.counters.forgetLate
    published := { p.published with counters := p.published.counters.forgetLate } }

/-- The step with the count left out. -/
def Step.forgetLate (s : Step) : Step := { s with pipeline := s.pipeline.forgetLate }

/-- A step without the count stays without it. -/
theorem Step.forgetLate_of_eq {s t : Step} (h : s = t.forgetLate) : s.forgetLate = t.forgetLate := by
  rw [h]
  rfl

/-- The count does not bear on effects. -/
theorem Step.forgetLate_after (effects : List Effect) (s : Step) :
    (s.after effects).forgetLate = s.forgetLate.after effects := rfl

namespace Pipeline

variable (p : Pipeline) (config : Config) (cache : Cache)

/-! ## The driver -/

/-- **No function of the driver reads the count.** A halt does not. -/
theorem finishHalt_forgetLate (halt : Halt) :
    p.forgetLate.finishHalt halt cache = (p.finishHalt halt cache).forgetLate := by
  cases halt with
  | sync ticket => rfl
  | shutdown ticket => rfl

theorem afterPause_forgetLate (next : AfterPause) :
    p.forgetLate.afterPause next cache = (p.afterPause next cache).forgetLate := by
  cases next with
  | halt halt => exact finishHalt_forgetLate { p with phase := .idle } cache halt
  | launch pending => rfl

theorem pause_forgetLate (next : AfterPause) :
    p.forgetLate.pause next cache = (p.pause next cache).forgetLate := by
  rw [pause, pause, apply_ite Step.forgetLate, ← afterPause_forgetLate]
  rfl

theorem resume_forgetLate (ticket : Option Ticket) :
    p.forgetLate.resume config ticket cache = (p.resume config ticket cache).forgetLate := by
  rw [resume, resume, apply_ite Step.forgetLate]
  rfl

theorem advance_forgetLate :
    p.forgetLate.advance config cache = (p.advance config cache).forgetLate := by
  rw [advance, advance, apply_ite Step.forgetLate]
  congr 1
  rcases hqueue : p.queue with _ | ⟨pending, queue⟩
  · rw [show p.forgetLate.queue = [] from hqueue]
    exact resume_forgetLate { p with phase := .scanning, queue := [] } config cache none
  · rw [show p.forgetLate.queue = pending :: queue from hqueue]
    dsimp only
    rw [apply_ite Step.forgetLate, ← pause_forgetLate]
    rfl

theorem activate_forgetLate (ticket : Ticket) :
    p.forgetLate.activate config ticket cache = (p.activate config ticket cache).forgetLate := by
  rw [activate, activate, apply_ite Step.forgetLate, ← resume_forgetLate]
  rfl

theorem close_forgetLate (fetch : InFlight) (abandoned : Bool) (next : AfterClose)
    {otherwise otherwise' : Pipeline → Step}
    (h : (otherwise' p.forgetLate).forgetLate = (otherwise p).forgetLate) :
    (p.forgetLate.close fetch abandoned next otherwise' cache).forgetLate =
      (p.close fetch abandoned next otherwise cache).forgetLate := by
  rw [close, close]
  change (if fetch.fetch ∈ p.links then _ else _ : Step).forgetLate = _
  split
  · rfl
  split
  · rfl
  · exact h

/-- A stop adds nothing to the count, and so leaves it out if it was left out. -/
theorem deactivate_forgetLate (halt : Halt) :
    (p.forgetLate.deactivate halt cache) = (p.deactivate halt cache).forgetLate := by
  rcases hflight : p.inFlight with _ | g
  · rw [deactivate_of_idle hflight, deactivate_of_idle (p := p.forgetLate) hflight,
      apply_ite Step.forgetLate, ← pause_forgetLate, ← finishHalt_forgetLate]
    rfl
  · rw [deactivate_of_busy hflight, deactivate_of_busy (p := p.forgetLate) hflight]
    rfl

/-- An outcome may add to the count, and all else is the same. -/
theorem settle_forgetLate (now : Timestamp) (pending : Pending) (outcome : Outcome) :
    (p.forgetLate.settle config now pending outcome cache).forgetLate =
      (p.settle config now pending outcome cache).forgetLate := by
  rw [settle_eq, settle_eq, Step.forgetLate_after, Step.forgetLate_after, ← advance_forgetLate,
    ← advance_forgetLate]
  cases outcome with
  | ok readings => rfl
  | error e => rfl

/-! ## Messages -/

theorem fetchFinished_forgetLate (now : Timestamp) (outcome : Outcome) :
    (p.forgetLate.fetchFinished config now outcome cache).forgetLate =
      (p.fetchFinished config now outcome cache).forgetLate := by
  rcases hflight : p.inFlight with _ | g
  · unfold fetchFinished
    rw [hflight, show p.forgetLate.inFlight = none from hflight]
    rfl
  · rw [fetchFinished_of_some hflight, fetchFinished_of_some (p := p.forgetLate) hflight]
    exact close_forgetLate { p with inFlight := none } cache g _ _ (settle_forgetLate _ ..)

theorem onReport_forgetLate (now : Timestamp) (epoch : Nat) (said : Report) :
    (p.forgetLate.onReport config now epoch said cache).forgetLate =
      (p.onReport config now epoch said cache).forgetLate := by
  rw [onReport.eq_def, onReport.eq_def]
  change (if epoch ≠ p.epoch then _ else _ : Step).forgetLate = _
  split
  · rfl
  cases said with
  | phase phase =>
    change Step.forgetLate ⟨finish (if p.inFlight.isSome = true then _ else _), cache, []⟩ = _
    split
    · rfl
    · rfl
  | finished outcome => exact p.fetchFinished_forgetLate config cache now outcome

theorem onCommand_forgetLate (now : Timestamp) (command : Command) :
    (p.forgetLate.onCommand config now command cache).forgetLate =
      (p.onCommand config now command cache).forgetLate := by
  cases command with
  | sync ticket =>
    rw [onCommand, onCommand, deactivate_forgetLate, activate_forgetLate]
    split
    · rfl
    · rfl
  | shutdown ticket =>
    rw [onCommand, onCommand, deactivate_forgetLate]
    rfl
  | report id epoch said => exact p.onReport_forgetLate config cache now epoch said

theorem onSighting_forgetLate (now : Timestamp) (sighting : Sighting) :
    p.forgetLate.onSighting config now sighting cache =
      (p.onSighting config now sighting cache).forgetLate := by
  rw [onSighting, onSighting, apply_ite Step.forgetLate]
  congr 1
  rcases sighting.stamp? with _ | stamp
  · rfl
  dsimp only
  rw [Step.forgetLate_after, apply_ite Step.forgetLate, apply_ite Step.forgetLate,
    apply_ite Step.forgetLate, ← advance_forgetLate]
  rfl

/-- The answers of the radio are taken in the same way. -/
theorem onScanAnswered_forgetLate (result : Except RadioError Unit) :
    p.forgetLate.onScanAnswered result cache = (p.onScanAnswered result cache).forgetLate := by
  rw [onScanAnswered, onScanAnswered]
  rcases hcontrol : p.control with _ | ticket | next | ⟨peer, next⟩ | _ <;>
    rw [show p.forgetLate.control = _ from hcontrol]
  · rfl
  · cases result with
    | ok _ => rfl
    | error e => rfl
  · dsimp only
    rw [afterPause_forgetLate]
    cases result with
    | ok _ => rfl
    | error e => rfl
  · rfl
  · rfl

theorem onClosed_forgetLate (now : Timestamp) (closing : Closing) :
    (p.forgetLate.onClosed config now closing cache).forgetLate =
      (p.onClosed config now closing cache).forgetLate := by
  rw [onClosed.eq_def, onClosed.eq_def]
  rcases hcontrol : p.control with _ | ticket | next | ⟨peer, halt | ⟨pending, outcome⟩⟩ | _ <;>
    rw [show p.forgetLate.control = _ from hcontrol]
  · rfl
  · rfl
  · rfl
  · dsimp only
    rw [Step.forgetLate_after, Step.forgetLate_after, ← pause_forgetLate, ← pause_forgetLate]
    rfl
  · dsimp only
    rw [Step.forgetLate_after, Step.forgetLate_after, settle_forgetLate]
  · rfl

/-- A fetch knows nothing of the count. -/
theorem applyTurn_forgetLate (id : FetchId) (epoch : Nat) (turn : Fetch.Turn) :
    p.forgetLate.applyTurn id epoch turn cache = (p.applyTurn id epoch turn cache).forgetLate := by
  rw [applyTurn, applyTurn]
  cases turn.next with
  | none => rfl
  | some next => rfl

/-- **What comes of a move does not depend on the count.** -/
theorem move_forgetLate (now : Timestamp) (move : Move) :
    (p.forgetLate.move config now cache move).forgetLate =
      (p.move config now cache move).forgetLate := by
  cases move with
  | send command => rfl
  | hear sighting => rfl
  | takeCommand =>
    rcases htaken : p.taken? with _ | command
    · rw [move_takeCommand_of_none htaken, move_takeCommand_of_none (p := p.forgetLate) htaken]
      rfl
    · rw [move_takeCommand htaken, move_takeCommand (p := p.forgetLate) htaken]
      exact onCommand_forgetLate { p with commands := p.commands.tail } config cache now command
  | takeSighting =>
    rw [Pipeline.move.eq_def, Pipeline.move.eq_def]
    dsimp only
    rw [show p.forgetLate.control = p.control from rfl,
      show p.forgetLate.sightings = p.sightings from rfl]
    split
    · rename_i sighting sightings _ _
      exact Step.forgetLate_of_eq (onSighting_forgetLate { p with sightings } config cache now sighting)
    · rfl
  | scanAnswered result => exact Step.forgetLate_of_eq (p.onScanAnswered_forgetLate cache result)
  | closed closing => exact p.onClosed_forgetLate config cache now closing
  | fetchBegins id =>
    rw [Pipeline.move.eq_def, Pipeline.move.eq_def]
    dsimp only
    rw [show p.forgetLate.fetches = p.fetches from rfl]
    split
    · split
      · exact Step.forgetLate_of_eq (p.applyTurn_forgetLate cache ..)
      · rfl
    · rfl
  | fetchAnswered id answer =>
    rw [Pipeline.move.eq_def, Pipeline.move.eq_def]
    dsimp only
    rw [show p.forgetLate.fetches = p.fetches from rfl]
    split
    · split
      · exact Step.forgetLate_of_eq (p.applyTurn_forgetLate cache ..)
      · rfl
    · rfl
  | fetchExpires id =>
    rw [Pipeline.move.eq_def, Pipeline.move.eq_def]
    dsimp only
    rw [show p.forgetLate.fetches = p.fetches from rfl]
    split
    · exact Step.forgetLate_of_eq (p.applyTurn_forgetLate cache ..)
    · rfl

end Pipeline

/-! ## Runs -/

/-- What a happening asks of the world around the pipeline. -/
def System.effectsOf (config : Config) (s : System) : Happening → List Effect
  | .moves now move => (s.pipeline.move config now s.cache move).effects
  | _ => []

/-- What a list of happenings asks of the world around the pipeline, in order. -/
def System.effects (config : Config) (s : System) : List Happening → List Effect
  | [] => []
  | x :: rest => s.effectsOf config x ++ (s.after config x).effects config rest

/-- The effects of a run are those of its parts. -/
theorem System.effects_append (config : Config) (s : System) (before since : List Happening) :
    s.effects config (before ++ since) =
      s.effects config before ++ (s.run config before).effects config since := by
  induction before generalizing s with
  | nil => rfl
  | cons x rest ih =>
    rw [List.cons_append, effects, ih, effects, List.append_assoc]
    rfl

/-- The systems differ in nothing but the radio and the count of fetches that took too long. -/
structure System.Alike (s t : System) : Prop where
  pipeline : s.pipeline.forgetLate = t.pipeline.forgetLate
  cache : s.cache = t.cache

namespace System.Alike

variable {s t : System}

/-- The same comes of the same happening. -/
theorem after (h : s.Alike t) (config : Config) (happening : Happening) :
    (s.after config happening).Alike (t.after config happening) ∧
      s.effectsOf config happening = t.effectsOf config happening := by
  cases happening with
  | moves now move =>
    have hmove := calc (s.pipeline.move config now s.cache move).forgetLate
        = (s.pipeline.forgetLate.move config now s.cache move).forgetLate :=
          (s.pipeline.move_forgetLate config s.cache now move).symm
      _ = (t.pipeline.forgetLate.move config now t.cache move).forgetLate := by
          rw [h.pipeline, h.cache]
      _ = (t.pipeline.move config now t.cache move).forgetLate :=
          t.pipeline.move_forgetLate config t.cache now move
    have hpipeline := congrArg Step.pipeline hmove
    have hcache := congrArg Step.cache hmove
    have heffects := congrArg Step.effects hmove
    exact ⟨⟨hpipeline, hcache⟩, heffects⟩
  | caches cache => exact ⟨⟨h.pipeline, rfl⟩, rfl⟩
  | turns link connected => exact ⟨⟨h.pipeline, h.cache⟩, rfl⟩
  | loses link => exact ⟨⟨h.pipeline, h.cache⟩, rfl⟩

/-- **Systems that differ in nothing else do the same**, whatever happens to them, and they never come
to differ. -/
theorem run (h : s.Alike t) (config : Config) (happenings : List Happening) :
    (s.run config happenings).Alike (t.run config happenings) ∧
      s.effects config happenings = t.effects config happenings := by
  induction happenings generalizing s t with
  | nil => exact ⟨h, rfl⟩
  | cons x rest ih =>
    obtain ⟨hafter, hfirst⟩ := h.after config x
    obtain ⟨hrun, hrest⟩ := ih hafter
    exact ⟨hrun, congrArg₂ (· ++ ·) hfirst hrest⟩

end System.Alike

end Nearby.Scan
