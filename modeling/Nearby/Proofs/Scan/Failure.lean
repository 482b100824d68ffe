import Nearby.Proofs.Scan.Lateness
import Nearby.Proofs.Scan.Ledger

/-!
# Failures are dealt with alike

A fetch fails because a call fails, because the link is lost, or because it takes too long. A link is
closed if there is one; if there is none, and the fetch took too long, an attempt to connect is taken
back that may still be under way. Whatever the error is, the driver then counts a failure, leaves the
cache as it is, tells subscribers nothing and turns to the next in the queue (`System.recovers`). So
two runs in which a fetch fails with different errors differ in nothing afterwards but the count of
fetches that took too long (`System.failures_alike`), and the peer is free to be fetched from again
(`System.Frees`).
-/

namespace Nearby.Scan

/-! ## Around the driver -/

/-- True for what happens around driver and fetches: the engine sends commands, broadcasts are heard,
and the cache and the radio go their own ways. -/
def Happening.isOutside : Happening → Bool
  | .moves _ (.send (.report ..)) => false
  | .moves _ (.send _) => true
  | .moves _ (.hear _) => true
  | .moves _ _ => false
  | _ => true

/-- The command that is sent. -/
def Happening.sent? : Happening → Option Command
  | .moves _ (.send command) => some command
  | _ => none

/-- The broadcast that is heard. -/
def Happening.heard? : Happening → Option Sighting
  | .moves _ (.hear sighting) => some sighting
  | _ => none

/-- The pipeline with more in its mailboxes. -/
def Pipeline.posted (p : Pipeline) (commands : List Command) (sightings : List Sighting) :
    Pipeline :=
  { p with commands := p.commands ++ commands, sightings := p.sightings ++ sightings }

theorem Pipeline.posted_nil (p : Pipeline) : p.posted [] [] = p := by
  rw [posted, List.append_nil, List.append_nil]

/-- What is posted is posted one after the other. -/
theorem Pipeline.posted_posted (p : Pipeline) (commands more : List Command)
    (sightings others : List Sighting) :
    (p.posted commands sightings).posted more others =
      p.posted (commands ++ more) (sightings ++ others) := by
  rw [posted, posted, posted, List.append_assoc, List.append_assoc]

namespace System

/-- What is outside is no report. -/
theorem isGenuine_of_isOutside {x : Happening} (h : x.isOutside = true) : x.IsGenuine := by
  cases x with
  | moves now move =>
    cases move with
    | send command =>
      cases command with
      | sync | shutdown => trivial
      | report => cases h
    | hear | takeCommand | takeSighting | scanAnswered | closed => trivial
    | fetchBegins | fetchAnswered | fetchExpires => trivial
  | caches | turns | loses => trivial

/-- What happens around the driver fills the mailboxes, and changes the cache for itself. -/
theorem after_outside (config : Config) (s : System) {x : Happening} (h : x.isOutside = true) :
    (s.after config x).pipeline = s.pipeline.posted x.sent?.toList x.heard?.toList ∧
      (∀ r : System, r.cache = s.cache → (r.after config x).cache = (s.after config x).cache) ∧
      s.effectsOf config x = [] := by
  cases x with
  | moves now move =>
    cases move with
    | send command =>
      refine ⟨?_, fun r hr => hr, rfl⟩
      change _ = s.pipeline.posted [command] []
      rw [Pipeline.posted, List.append_nil]
      rfl
    | hear sighting =>
      refine ⟨?_, fun r hr => hr, rfl⟩
      change _ = s.pipeline.posted [] [sighting]
      rw [Pipeline.posted, List.append_nil]
      rfl
    | takeCommand | takeSighting | scanAnswered | closed => cases h
    | fetchBegins | fetchAnswered | fetchExpires => cases h
  | caches cache => exact ⟨s.pipeline.posted_nil.symm, fun _ _ => rfl, rfl⟩
  | turns | loses => exact ⟨s.pipeline.posted_nil.symm, fun r hr => hr, rfl⟩

/-- What happens outside only posts messages, and the cache goes its own way. -/
theorem run_outside (config : Config) (s : System) {happenings : List Happening}
    (h : ∀ x ∈ happenings, x.isOutside = true) :
    let t := s.run config happenings
    t.pipeline = s.pipeline.posted (happenings.filterMap Happening.sent?)
        (happenings.filterMap Happening.heard?) ∧
      (∀ r : System, r.cache = s.cache → (r.run config happenings).cache = t.cache) ∧
      s.effects config happenings = [] := by
  induction happenings generalizing s with
  | nil => exact ⟨s.pipeline.posted_nil.symm, fun r hr => hr, rfl⟩
  | cons x rest ih =>
    obtain ⟨hx, hrest⟩ := List.forall_mem_cons.mp h
    obtain ⟨hpipeline, hcache, heffects⟩ := s.after_outside config hx
    obtain ⟨ihpipeline, ihcache, iheffects⟩ := ih (s.after config x) hrest
    have hfilter : ∀ {α : Type} (f : Happening → Option α),
        (x :: rest).filterMap f = (f x).toList ++ rest.filterMap f := by
      intro α f
      rw [List.filterMap_cons]
      rcases f x with _ | a
      · rfl
      · rfl
    refine ⟨?_, fun r hr => ihcache _ (hcache r hr), ?_⟩
    · rw [hfilter, hfilter, ← Pipeline.posted_posted, ← hpipeline]
      exact ihpipeline
    · rw [effects, heffects, iheffects]
      rfl

end System

/-! ## Going on -/

/-- Subscribers are told nothing. -/
def IsSilent (effects : List Effect) : Prop := ∀ event, .event event ∉ effects

theorem isSilent_nil : IsSilent [] := fun _ => List.not_mem_nil

/-- An effect that is no event is silent. -/
theorem isSilent_singleton {e : Effect} (h : ∀ event, e ≠ .event event) : IsSilent [e] :=
  fun event hmem => h event (List.mem_singleton.mp hmem).symm

theorem IsSilent.append {a b : List Effect} (ha : IsSilent a) (hb : IsSilent b) :
    IsSilent (a ++ b) :=
  fun event hmem => (List.mem_append.mp hmem).elim (ha event) (hb event)

/-- A warning about a link is no event. -/
theorem isSilent_warnings (peer : RadioId) (closing : Closing) :
    IsSilent (closing.warnings peer) := by
  cases closing with
  | answered result => exact isSilent_nil
  | timedOut => exact isSilent_singleton (by simp)

namespace Pipeline

variable (p : Pipeline) (config : Config) (cache cache' : Cache) (commands : List Command)
  (sightings : List Sighting)

/-- What is posted does not bear on a pause. -/
theorem pause_posted (pending : Pending) :
    ((p.posted commands sightings).pause (.launch pending) cache').pipeline =
      (p.pause (.launch pending) cache).pipeline.posted commands sightings := by
  rw [pause, pause, apply_ite Step.pipeline, apply_ite Step.pipeline,
    apply_ite (Pipeline.posted · commands sightings)]
  rfl

/-- What is posted does not bear on a start. -/
theorem resume_posted (ticket : Option Ticket) :
    ((p.posted commands sightings).resume config ticket cache').pipeline =
      (p.resume config ticket cache).pipeline.posted commands sightings := by
  rw [resume, resume, apply_ite Step.pipeline, apply_ite Step.pipeline,
    apply_ite (Pipeline.posted · commands sightings)]
  rfl

/-- The driver goes on in the same way whatever there is in its mailboxes, and in the cache. -/
theorem advance_posted :
    ((p.posted commands sightings).advance config cache').pipeline =
      (p.advance config cache).pipeline.posted commands sightings := by
  rw [advance, advance, apply_ite Step.pipeline, apply_ite Step.pipeline,
    apply_ite (Pipeline.posted · commands sightings)]
  congr 1
  rcases hqueue : p.queue with _ | ⟨pending, queue⟩
  · rw [show (p.posted commands sightings).queue = [] from hqueue]
    exact resume_posted { p with phase := .scanning, queue := [] } config cache cache' commands
      sightings none
  · rw [show (p.posted commands sightings).queue = pending :: queue from hqueue]
    dsimp only
    rw [apply_ite Step.pipeline, apply_ite Step.pipeline,
      apply_ite (Pipeline.posted · commands sightings), ← pause_posted _ cache cache']
    rfl

/-- The driver goes on in the same way whatever it waited for. -/
theorem advance_control (control : Control) :
    advance { p with control } config cache = p.advance config cache := by
  rw [advance, advance]
  congr 1

/-- To turn to the next in the queue closes no link. -/
theorem isClosing_advance : (p.advance config cache).pipeline.isClosing = false := by
  have hgoes : p.GoesOn (p.advance config cache) := .advance p config
  cases hgoes with
  | stays same control closing quiet => exact closing
  | launches q pending same idle active pipeline quiet =>
    rw [pipeline]
    rfl

/-- There is nothing to be done about a link that the driver does not wait for. -/
theorem onClosed_of_isClosing_eq_false (h : p.isClosing = false) (now : Timestamp)
    (closing : Closing) : p.onClosed config now closing cache = ⟨p, cache, []⟩ := by
  obtain ⟨-, hs⟩ | ⟨peer, halt, hcontrol, -⟩ | ⟨peer, pending, outcome, hcontrol, -⟩ :=
    p.onClosed_cases config now closing cache
  · exact hs
  · rw [isClosing, hcontrol] at h
    cases h
  · rw [isClosing, hcontrol] at h
    cases h

/-- Going on tells subscribers nothing. -/
theorem isSilent_advance : IsSilent (p.advance config cache).effects := by
  rw [advance]
  split
  · exact isSilent_nil
  split
  · rw [resume]
    split
    · exact isSilent_nil
    · exact isSilent_singleton (by simp)
  · dsimp only
    rw [pause, afterPause, launch]
    split
    · split
      · exact isSilent_singleton (by simp)
      · exact isSilent_singleton (by simp)
    · exact isSilent_singleton (by simp)

/-- Taking note of a failure is going on, with a warning first. -/
theorem settle_error (now : Timestamp) (pending : Pending) (e : RadioError) :
    p.settle config now pending (.error e) cache =
      (advance { p with counters := p.counters.settled (.error e) } config cache).after
        [.warn (.fetchFailed pending.peer e)] :=
  p.settle_eq config now pending (.error e) cache

end Pipeline

/-! ## Failures -/

/-- How a fetch fails: the error, when the driver learns of it, and how and when the attempt to close
its link ends, if there is one. -/
structure Failure where
  error : RadioError
  noticed : Timestamp
  closing : Closing
  closed : Timestamp

/-- The driver deals with a failure while other things happen around it: it takes the report, and the
attempt to close a link ends. Where there was none, that changes nothing. -/
def Failure.dealing (f : Failure) (meanwhile : List Happening) : List Happening :=
  .moves f.noticed .takeCommand :: (meanwhile ++ [.moves f.closed (.closed f.closing)])

/-- The pipeline whose fetch in flight has failed: the driver takes its report next, and nothing else
comes from this fetch. Where that is so already, nothing changes (`Pipeline.failing_eq_self`). -/
def Pipeline.failing (p : Pipeline) (g : InFlight) (e : RadioError) : Pipeline :=
  { p with
    commands := .report g.fetch p.epoch (.finished (.error e)) ::
      p.commands.filter fun command => (command.reportOf? p.epoch).isNone
    fetches := p.fetches.erase g.fetch }

/-- The pipeline with the failed fetch out of the way, about to go on. -/
def Pipeline.freed (p : Pipeline) (g : InFlight) (e : RadioError) : Pipeline :=
  { p with
    commands := (p.failing g e).commands.tail
    fetches := (p.failing g e).fetches
    links := p.links.erase g.fetch
    inFlight := none
    counters := p.counters.settled (.error e) }

/-- The pipeline while what the failed fetch has of the radio is given back. -/
def Pipeline.givingBack (p : Pipeline) (g : InFlight) (e : RadioError) : Pipeline :=
  { p.freed g e with
    counters := p.counters
    control := .closing g.pending.peer (.settle g.pending (.error e)) }

/-- The system whose fetch in flight has failed. -/
def System.failing (s : System) (g : InFlight) (e : RadioError) : System :=
  { s with pipeline := s.pipeline.failing g e }

namespace Pipeline

variable {config : Config} {p : Pipeline} {g : InFlight} {e : RadioError}

/-- Of a fetch that has failed, the failure is the only report. -/
theorem reports_failing (p : Pipeline) (g : InFlight) (e : RadioError) :
    (p.failing g e).reports = [(g.fetch, .finished (.error e))] := by
  have hrest : ∀ commands : List Command,
      (commands.filter fun command => (command.reportOf? p.epoch).isNone).filterMap
        (Command.reportOf? p.epoch) = [] := by
    intro commands
    refine List.filterMap_eq_nil_iff.mpr fun command hmem => ?_
    simpa using (List.mem_filter.mp hmem).2
  rw [reports_cons (p := p.failing g e) rfl, reports]
  change (Command.reportOf? p.epoch _).toList ++
    List.filterMap (Command.reportOf? p.epoch) (List.filter _ _) = _
  rw [hrest, Command.reportOf?_eq_some_iff.mpr rfl]
  rfl

/-- Where the driver is about to take the report of a fetch that failed, the fetch has failed. -/
theorem failing_eq_self (h : p.Tracks) (hg : p.inFlight = some g)
    (htaken : p.taken? = some (.report g.fetch p.epoch (.finished (.error e)))) :
    p.failing g e = p := by
  obtain ⟨-, hcommands⟩ := of_taken htaken
  have hreports := reports_cons hcommands
  rw [Command.reportOf?_eq_some_iff.mpr rfl, Option.toList_some, List.singleton_append] at hreports
  -- the outcome of a fetch is the last that it reports, so no report of it waits behind this one
  cases h.busy g hg with
  | underway f hfetches hpeer hepoch hphases =>
    have hphase := (hphases _ (hreports ▸ List.mem_cons_self)).2
    cases hphase
  | ended phases outcome hfetches hover hphases =>
    rw [hreports] at hover
    rcases phases with _ | ⟨first, phases⟩
    · have hnone : ∀ command ∈ p.commands.tail, command.reportOf? p.epoch = none :=
        List.filterMap_eq_nil_iff.mp (List.cons.inj hover).2
      have hfilter : p.commands.filter (fun command => (command.reportOf? p.epoch).isNone) =
          p.commands.tail := by
        rw [hcommands, List.filter_cons_of_neg (by simp [Command.reportOf?])]
        exact List.filter_eq_self.mpr fun command hmem => by simp [hnone command hmem]
      rw [failing, hfilter, ← hcommands, Table.erase_of_get?_eq_none (hfetches g.fetch)]
    · obtain ⟨rfl, -⟩ := List.cons.inj hover
      have hphase := (hphases _ List.mem_cons_self).2
      cases hphase

/-- A fetch that has failed is kept track of like one that was over. -/
theorem Tracks.failing (h : p.Tracks) (hg : p.inFlight = some g) (e : RadioError) :
    (p.failing g e).Tracks where
  active := h.active
  past id epoch said hmem := by
    rcases List.mem_cons.mp hmem with heq | hmem
    · cases heq
      exact Nat.le_refl _
    · exact h.past id epoch said (List.mem_filter.mp hmem).1
  idle hidle := by cases hg.symm.trans hidle
  busy g' hg' := by
    cases hg.symm.trans hg'
    exact .ended [] (.error e) (h.busy g hg).get?_erase (p.reports_failing g e)
      (List.forall_mem_nil _)

/-- When the driver takes the report of a failure it goes on at once, or closes a link first. -/
theorem takes_failure (hcontrol : p.control = .waiting) (hg : p.inFlight = some g) (e : RadioError)
    (config : Config) (now : Timestamp) (cache : Cache) :
    (p.failing g e).move config now cache .takeCommand =
        ((p.freed g e).advance config cache).after [.warn (.fetchFailed g.pending.peer e)] ∨
      (p.failing g e).move config now cache .takeCommand =
        ⟨p.givingBack g e, cache, [.call .driver (p.closeCall g)]⟩ := by
  have htaken : (p.failing g e).taken? =
      some (.report g.fetch p.epoch (.finished (.error e))) := by
    rw [taken?, show (p.failing g e).control = .waiting from hcontrol]
    rfl
  have htells := tells?_of_finished (p := p.failing g e) hg htaken
  cases takesOutcome (p := p.failing g e) hg htaken config now cache with
  | settles tells step =>
    have hlink : g.fetch ∉ p.links := by
      intro hmem
      rw [if_pos (.inl hmem), tells] at htells
      cases htells
    refine .inl ?_
    rw [step, settle_error, freed, List.erase_of_not_mem hlink]
    rfl
  | closes tells step => exact .inr step

/-- Once the link is closed, the driver goes on as well. -/
theorem closed_givingBack (p : Pipeline) (g : InFlight) (e : RadioError) (commands : List Command)
    (sightings : List Sighting) (config : Config) (now : Timestamp) (closing : Closing)
    (cache : Cache) :
    let r := { p.freed g e with control := (p.givingBack g e).control }.posted commands sightings
    ((p.givingBack g e).posted commands sightings).move config now cache (.closed closing) =
      ((r.advance config cache).after [.warn (.fetchFailed g.pending.peer e)]).after
        (closing.warnings g.pending.peer) := by
  intro r
  obtain ⟨hclosing, -⟩ | ⟨peer, halt, hcontrol, -⟩ | ⟨peer, pending, outcome, hcontrol, hs⟩ :=
    ((p.givingBack g e).posted commands sightings).onClosed_cases config now closing cache
  · cases hclosing
  · cases hcontrol
  · cases hcontrol
    rw [settle_error] at hs
    exact hs

/-- What comes of a failure, from the report of it to the end of an attempt to close a link. -/
theorem deals_with_failure (hcontrol : p.control = .waiting) (hg : p.inFlight = some g)
    (f : Failure) (config : Config) (cache cache' : Cache) (commands : List Command)
    (sightings : List Sighting) :
    let first := (p.failing g f.error).move config f.noticed cache .takeCommand
    let last := (first.pipeline.posted commands sightings).move config f.closed cache'
      (.closed f.closing)
    last.pipeline = ((p.freed g f.error).advance config cache).pipeline.posted commands sightings ∧
      (first.cache = cache ∧ last.cache = cache') ∧
      IsSilent first.effects ∧ IsSilent last.effects := by
  intro first last
  let warning : Effect := .warn (.fetchFailed g.pending.peer f.error)
  have hwarning : IsSilent [warning] := isSilent_singleton (by simp [warning])
  -- there is nothing to close, or the link is closed with other things happening meanwhile
  rcases takes_failure hcontrol hg f.error config f.noticed cache with hfirst | hfirst
  · have hfirst : first = ((p.freed g f.error).advance config cache).after [warning] := hfirst
    have hclosing : (first.pipeline.posted commands sightings).isClosing = false := by
      rw [hfirst]
      exact (p.freed g f.error).isClosing_advance config cache
    have hlast : last = ⟨first.pipeline.posted commands sightings, cache', []⟩ :=
      Pipeline.onClosed_of_isClosing_eq_false _ config cache' hclosing f.closed f.closing
    rw [hlast, hfirst]
    refine ⟨rfl, ⟨(leaves_advance _ config cache).cache, rfl⟩, ?_, isSilent_nil⟩
    exact hwarning.append (isSilent_advance _ config cache)
  · have hfirst : first = ⟨p.givingBack g f.error, cache, [.call .driver (p.closeCall g)]⟩ := hfirst
    have hposted : first.pipeline.posted commands sightings =
        (p.givingBack g f.error).posted commands sightings := by rw [hfirst]
    have hlast : last = _ :=
      (congrArg (·.move config f.closed cache' (.closed f.closing)) hposted).trans
        (p.closed_givingBack g f.error commands sightings config f.closed f.closing cache')
    rw [hlast, hfirst]
    refine ⟨?_, ⟨rfl, (leaves_advance _ config cache').cache⟩, isSilent_singleton (by simp), ?_⟩
    · refine (advance_posted _ config cache cache' commands sightings).trans ?_
      rw [advance_control]
    · exact (isSilent_warnings _ _).append (hwarning.append (isSilent_advance _ config cache'))

end Pipeline

namespace System

variable {config : Config} {s : System} {g : InFlight}

/-- A system in which a fetch fails is as orderly as it was. -/
theorem IsOrderly.failing (h : s.IsOrderly config) (hg : s.pipeline.inFlight = some g)
    (e : RadioError) : (s.failing g e).IsOrderly config where
  coherent := ⟨h.coherent.tracks.failing hg e, h.coherent.control⟩
  consistent := h.consistent
  ordinary := List.forall_mem_cons.mpr
    ⟨trivial, fun command hmem => h.ordinary command (List.mem_filter.mp hmem).1⟩

/-- What becomes of a system when the driver deals with a failure of its fetch in flight: the driver
goes on from where the fetch is out of the way, the cache becomes what it would have become anyway,
and subscribers are told nothing. -/
structure Recovers (config : Config) (s : System) (g : InFlight) (f : Failure)
    (meanwhile : List Happening) : Prop where
  pipeline : ((s.failing g f.error).run config (f.dealing meanwhile)).pipeline =
    ((s.pipeline.freed g f.error).advance config s.cache).pipeline.posted
      (meanwhile.filterMap Happening.sent?) (meanwhile.filterMap Happening.heard?)
  cache : ((s.failing g f.error).run config (f.dealing meanwhile)).cache =
    (s.run config meanwhile).cache
  silent : IsSilent ((s.failing g f.error).effects config (f.dealing meanwhile))

/-- **Whatever the failure is, the driver deals with it in the same way.** -/
theorem recovers (hcontrol : s.pipeline.control = .waiting) (hg : s.pipeline.inFlight = some g)
    (f : Failure) {meanwhile : List Happening} (hmeanwhile : ∀ x ∈ meanwhile, x.isOutside = true) :
    s.Recovers config g f meanwhile := by
  let u := s.failing g f.error
  let v := u.after config (.moves f.noticed .takeCommand)
  let w := v.run config meanwhile
  have hrun : u.run config (f.dealing meanwhile) =
      w.after config (.moves f.closed (.closed f.closing)) := List.foldl_append
  have heffects : u.effects config (f.dealing meanwhile) =
      u.effectsOf config (.moves f.noticed .takeCommand) ++ (v.effects config meanwhile ++
        (w.effectsOf config (.moves f.closed (.closed f.closing)) ++ [])) :=
    congrArg (_ ++ ·) (v.effects_append config meanwhile _)
  -- of what happens meanwhile the driver learns nothing before it is through with the failure
  obtain ⟨hposted, hcache, hsilent⟩ := v.run_outside config hmeanwhile
  obtain ⟨hpipeline, ⟨hfirst, hlast⟩, hquiet, hquiet'⟩ :=
    Pipeline.deals_with_failure hcontrol hg f config s.cache w.cache
      (meanwhile.filterMap Happening.sent?) (meanwhile.filterMap Happening.heard?)
  let first := (s.pipeline.failing g f.error).move config f.noticed s.cache .takeCommand
  have hw : first.pipeline.posted (meanwhile.filterMap Happening.sent?)
      (meanwhile.filterMap Happening.heard?) = w.pipeline := hposted.symm
  rw [hw] at hpipeline hlast hquiet'
  refine ⟨?_, ?_, ?_⟩
  · rw [hrun]
    exact hpipeline
  · rw [hrun, hcache s hfirst.symm]
    exact hlast
  · rw [heffects, hsilent]
    exact hquiet.append (hquiet'.append isSilent_nil)

/-- Two systems that recover from failures of the same fetch differ in nothing that matters. -/
theorem Recovers.alike {f f' : Failure} {meanwhile : List Happening}
    (h : s.Recovers config g f meanwhile) (h' : s.Recovers config g f' meanwhile) :
    ((s.failing g f.error).run config (f.dealing meanwhile)).Alike
      ((s.failing g f'.error).run config (f'.dealing meanwhile)) where
  pipeline := by
    have hforget : ∀ e, ((s.pipeline.freed g e).advance config s.cache).pipeline.forgetLate =
        ((s.pipeline.freed g e).forgetLate.advance config s.cache).pipeline := fun e =>
      congrArg Step.pipeline ((s.pipeline.freed g e).advance_forgetLate config s.cache).symm
    rw [h.pipeline, h'.pipeline]
    change Pipeline.posted (Pipeline.forgetLate _) .. = Pipeline.posted (Pipeline.forgetLate _) ..
    rw [hforget, hforget]
    rfl
  cache := h.cache.trans h'.cache.symm

/-! ### The peer -/

/-- The peer is free to be fetched from: as long as it has not joined the line again, its next sighting
under a stamp that is not cached has it join, or has a fetch from it begin. -/
def Frees (config : Config) (t : System) (peer : RadioId) : Prop :=
  ∀ happenings, (∀ x ∈ happenings, x.IsGenuine) →
    (∀ x ∈ (Ledger.run config ⟨t, []⟩ happenings).log, x.joins? ≠ some peer) →
    let u := t.run config happenings
    ∀ now sighting rest stamp, u.pipeline.control = .waiting → u.pipeline.active = true →
      u.pipeline.sightings = sighting :: rest → sighting.peer = peer →
      sighting.stamp? = some stamp → u.cache.entries.contains stamp = false →
      let v := u.after config (.moves now .takeSighting)
      ⟨peer, stamp⟩ ∈ v.pipeline.line ∨
        v.pipeline.inFlight.map (·.pending) = some ⟨peer, stamp⟩

/-- Who is not on the roster is free to be fetched from. -/
theorem frees_of_notMem {t : System} (h : t.IsOrderly config) {peer : RadioId}
    (hpeer : peer ∉ t.pipeline.roster.peers) : t.Frees config peer := by
  intro happenings hgenuine hjoins u now sighting rest stamp hcontrol hactive hsightings hsighted
    hstamp hcached v
  subst hsighted
  let q : Pipeline := { u.pipeline with sightings := rest }
  have hnot : sighting.peer ∉ q.atRest.peers := by
    have hfollows := Ledger.follows_run (l := ⟨t, []⟩) h .nil hgenuine
    have hu : (Ledger.run config ⟨t, []⟩ happenings).pipeline = u.pipeline :=
      congrArg System.pipeline (Ledger.system_run config ⟨t, []⟩ happenings)
    rw [hu, Pipeline.roster_of_waiting (.inl hcontrol)] at hfollows
    exact hfollows.notMem_peers hjoins hpeer
  have hu : u.IsOrderly config := h.run hgenuine
  have hrests : q.driver.Rests config := hu.consistent.rests hcontrol
  have hqueued : q.reception u.cache sighting.peer stamp = .queued := by
    rw [Pipeline.reception, if_neg (by simp [q, hactive]), if_neg (by simp [hcached]), if_neg hnot]
  obtain ⟨r, htakes, hdraws⟩ := Pipeline.draws_onSighting hrests hstamp now u.cache
  rw [hqueued] at htakes
  have hv : v.pipeline = (q.onSighting config now sighting u.cache).pipeline :=
    congrArg Step.pipeline (Pipeline.move_takeSighting hcontrol hsightings config now u.cache)
  rw [hv]
  refine hdraws.mem ?_
  rw [htakes.of_queued]
  exact List.mem_append_right _ (List.mem_singleton_self _)

/-- A fetch that has failed leaves its peer free. -/
theorem Recovers.frees {f : Failure} {meanwhile : List Happening}
    (h : s.Recovers config g f meanwhile) (hs : s.IsOrderly config)
    (hcontrol : s.pipeline.control = .waiting) (hg : s.pipeline.inFlight = some g)
    (hmeanwhile : ∀ x ∈ meanwhile, x.isOutside = true) :
    ((s.failing g f.error).run config (f.dealing meanwhile)).Frees config g.pending.peer := by
  have hgenuine : ∀ x ∈ f.dealing meanwhile, x.IsGenuine := by
    refine List.forall_mem_cons.mpr ⟨trivial, List.forall_mem_append.mpr ⟨?_, ?_⟩⟩
    · exact fun x hx => isGenuine_of_isOutside (hmeanwhile x hx)
    · exact List.forall_mem_singleton.mpr trivial
  refine frees_of_notMem ((hs.failing hg f.error).run hgenuine) ?_
  have hpeers := (hs.consistent.rests hcontrol).nodup_peers
  rw [show s.pipeline.driver.inFlight = some g from hg] at hpeers
  -- the peer did not wait while it was fetched from, and going on has nobody join the line
  have hfreed : g.pending.peer ∉ (s.pipeline.freed g f.error).atRest.peers := by
    rw [Pipeline.peers_atRest]
    exact (List.nodup_cons.mp hpeers).1
  have hfollows := ((s.pipeline.freed g f.error).draws_advance config s.cache).follows
    (p := s.pipeline.freed g f.error) rfl
  rw [h.pipeline]
  refine hfollows.notMem_peers (fun x hx hjoins => ?_) hfreed
  obtain ⟨launch, rfl⟩ := Pipeline.of_mem_launchRecords hx
  cases hjoins

/-- **A fetch that fails leaves nothing behind** but the count of it. Whenever the driver comes to the
report of a failure, and whatever happens until it is through with it: the cache is what it would have
been anyway, subscribers are told nothing, and the peer is free to be fetched from again. -/
theorem recovers_of_taken (config : Config) (cache : Cache) {happenings meanwhile : List Happening}
    (hgenuine : ∀ x ∈ happenings, x.IsGenuine)
    (hmeanwhile : ∀ x ∈ meanwhile, x.isOutside = true) :
    let s := (initial cache).run config happenings
    ∀ g, s.pipeline.inFlight = some g → ∀ f : Failure,
      s.pipeline.taken? =
        some (.report g.fetch s.pipeline.epoch (.finished (.error f.error))) →
      let t := s.run config (f.dealing meanwhile)
      t.cache = (s.run config meanwhile).cache ∧
        IsSilent (s.effects config (f.dealing meanwhile)) ∧ t.Frees config g.pending.peer := by
  intro s g hg f htaken t
  have hs : s.IsOrderly config := (isOrderly_initial cache).run hgenuine
  have hcontrol := (Pipeline.of_taken htaken).1
  have hfailing : s.failing g f.error = s := by
    rw [System.failing, Pipeline.failing_eq_self hs.coherent.tracks hg htaken]
  have h : s.Recovers config g f meanwhile := recovers hcontrol hg f hmeanwhile
  have hfrees := h.frees hs hcontrol hg hmeanwhile
  obtain ⟨-, hcache, hsilent⟩ := h
  rw [hfailing] at hcache hsilent hfrees
  exact ⟨hcache, hsilent, hfrees⟩

/-- **All failures are dealt with alike.** Whenever the driver waits for messages and a fetch is in
flight, and with whatever error this fetch fails: once the driver has dealt with it, the cache is what
it would have been anyway, subscribers were told nothing, and the peer is free to be fetched from
again. With another error everything is the same, and remains so whatever happens later, but for the
count of fetches that took too long. -/
theorem failures_alike (config : Config) (cache : Cache) {happenings meanwhile : List Happening}
    (hgenuine : ∀ x ∈ happenings, x.IsGenuine)
    (hmeanwhile : ∀ x ∈ meanwhile, x.isOutside = true) :
    let s := (initial cache).run config happenings
    ∀ g, s.pipeline.control = .waiting → s.pipeline.inFlight = some g → ∀ f f' : Failure,
      let t := (s.failing g f.error).run config (f.dealing meanwhile)
      let t' := (s.failing g f'.error).run config (f'.dealing meanwhile)
      (t.cache = (s.run config meanwhile).cache ∧
        IsSilent ((s.failing g f.error).effects config (f.dealing meanwhile)) ∧
        t.Frees config g.pending.peer) ∧
      t.Alike t' ∧ ∀ later, (t.run config later).Alike (t'.run config later) ∧
        t.effects config later = t'.effects config later := by
  intro s g hcontrol hg f f' t t'
  have hs : s.IsOrderly config := (isOrderly_initial cache).run hgenuine
  have h : s.Recovers config g f meanwhile := recovers hcontrol hg f hmeanwhile
  have h' : s.Recovers config g f' meanwhile := recovers hcontrol hg f' hmeanwhile
  have halike : t.Alike t' := h.alike h'
  exact ⟨⟨h.cache, h.silent, h.frees hs hcontrol hg hmeanwhile⟩, halike, halike.run config⟩

/-- The attempt to connect to the first of two peers takes too long, or is refused. Meanwhile the peer
announces another stamp. -/
theorem failures_alike_rush :
    let s := (initial (.new .default)).run .default (rush.take 11)
    let late : Failure := ⟨.timeout 30000, ⟨7⟩, .timedOut, ⟨9⟩⟩
    let refused : Failure := ⟨.connectFailed "aa" "refused", ⟨6⟩, .answered (.ok ()), ⟨6⟩⟩
    let meanwhile : List Happening := [.moves ⟨7⟩ (.hear ⟨⟨"aa"⟩, Stamp.payload ⟨6⟩⟩)]
    let t := (s.failing ⟨⟨⟨"aa"⟩, ⟨7⟩⟩, 0⟩ late.error).run .default (late.dealing meanwhile)
    let t' := (s.failing ⟨⟨⟨"aa"⟩, ⟨7⟩⟩, 0⟩ refused.error).run .default (refused.dealing meanwhile)
    t.Alike t' ∧ t.Frees .default ⟨"aa"⟩ ∧ t.pipeline.inFlight = some ⟨⟨⟨"bb"⟩, ⟨9⟩⟩, 1⟩ ∧
      t.pipeline.counters.fetchesTimedOut = 1 ∧ t'.pipeline.counters.fetchesTimedOut = 0 := by
  intro s late refused meanwhile t t'
  have hgenuine : ∀ x ∈ rush.take 11, x.IsGenuine := by
    simp [rush, Happening.IsGenuine, Move.IsGenuine]
  have hmeanwhile : ∀ x ∈ meanwhile, x.isOutside = true := by
    simp [meanwhile, Happening.isOutside]
  have hcontrol : s.pipeline.control = .waiting := by rfl
  obtain ⟨⟨-, -, hfrees⟩, halike, -⟩ := failures_alike .default (.new .default) hgenuine hmeanwhile
    ⟨⟨⟨"aa"⟩, ⟨7⟩⟩, 0⟩ hcontrol (by decide +kernel) late refused
  exact ⟨halike, hfrees, by decide +kernel, by decide +kernel, by decide +kernel⟩

end System

end Nearby.Scan
