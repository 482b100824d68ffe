import Nearby.Proofs.Engine.Session

/-!
# The engine's books and the radio

The engine hardly ever asks the radio what it does. It goes by its own books: whether the pipeline
scans, which link it has opened, what the publisher's driver has registered. What these books say
agrees with the radio at all times, but for what is left behind by calls that have failed, and that
is kept beside them (`Session.IsFaithful`). Nothing is assumed about the answers, nor about how
fetches fare.

As long as the radio does as it is told and links are closed in time, nothing is left behind
(`Session.NothingLingers`). And whoever changes what is published waits until the change is applied:
unless such a call was dropped, everything is applied when nobody waits for a call
(`Session.isSettled_of_free`).
-/

namespace Nearby

open Engine (Errand)

/-! ## The books of the publisher -/

namespace Publisher.Logbook

/-- The driver knows what the radio shows but for what lingers, asks for nothing but what it is
after, and is on to what was handed over. -/
structure IsFaithful (l : Logbook) (manufacturerId : UInt16) : Prop where
  converges : l.Converges manufacturerId
  within : l.IsWithin
  follows : ∃ editions, l.Follows editions
  quiet : l.publisher.edition.IsQuiet

variable {manufacturerId : UInt16} {l : Logbook}

theorem isFaithful_initial (manufacturerId : UInt16) : initial.IsFaithful manufacturerId where
  converges := converges_initial manufacturerId
  within := isWithin_initial
  follows := ⟨_, follows_initial⟩
  quiet _ := rfl

/-- What callers change does not concern the radio before the driver takes it up. -/
theorem IsFaithful.handOver (h : l.IsFaithful manufacturerId) {edition : Edition}
    (hquiet : edition.IsQuiet) :
    IsFaithful { l with publisher := l.publisher.handOver edition } manufacturerId := by
  obtain ⟨hconverges, hwithin, ⟨editions, hfollows⟩, -⟩ := h
  refine ⟨?_, hwithin, ⟨_, hfollows.handOver edition⟩, hquiet⟩
  exact ⟨hconverges.logbook.change rfl rfl, hconverges.ordered, hconverges.knows,
    hconverges.attains⟩

/-- A move of the publisher's driver leaves the logbook right. -/
theorem IsFaithful.move (h : l.IsFaithful manufacturerId) (move : Move) :
    (l.move manufacturerId move).IsFaithful manufacturerId := by
  obtain ⟨hconverges, hwithin, ⟨editions, hfollows⟩, hquiet⟩ := h
  refine ⟨hconverges.after (.moves move), hwithin.move hconverges.logbook manufacturerId move,
    ⟨editions, hfollows.move manufacturerId move⟩, ?_⟩
  obtain ⟨unseen, belief, applying, applied, hpublisher⟩ :=
    hconverges.logbook.frame_move manufacturerId move
  rw [hpublisher]
  exact hquiet

/-- A driver that is through with an edition of which nothing is published has taken everything
back, however its calls were answered. -/
theorem IsFaithful.hasWithdrawn (h : l.IsFaithful manufacturerId)
    (hsettled : l.publisher.generation ≤ l.publisher.applied)
    (hedition : l.publisher.edition = ⟨∅, none⟩) : l.HasWithdrawn := by
  obtain ⟨editions, hfollows⟩ := h.follows
  obtain ⟨hidle, hseen⟩ := hfollows.settled_iff.mp hsettled
  have haim : l.aim = Edition.desired ⟨∅, none⟩ l.publisher.generation := by
    rw [aim, hfollows.seen hseen, hfollows.desired, hedition]
  refine h.within.hasWithdrawn (hfollows.logbook.left_eq_nil hidle) ?_ ?_
  · rw [haim]
    rfl
  · rw [haim]
    rfl

end Publisher.Logbook

/-! ## The books of the engine -/

/-- What is published at present counts as applied. -/
def Engine.IsSettled (e : Engine) : Prop := e.publisher.generation ≤ e.publisher.applied

namespace Session

variable {s t : Session} {x : Happening}

/-- What a happening means to the publisher. -/
theorem Moves.logbook (h : s.Moves x t) :
    t.logbook = s.logbook ∨
      (∃ edition : Publisher.Edition, edition.IsQuiet ∧
        t.logbook = { s.logbook with publisher := s.logbook.publisher.handOver edition }) ∨
      ∃ move, x = .publishes move ∧
        t.logbook = s.logbook.move s.engine.config.manufacturerId move := by
  cases h with
  | scans now move genuine =>
    refine .inl ?_
    simp [logbook]
  | changes request edition quiet enabled => exact .inr (.inl ⟨edition, quiet, rfl⟩)
  | withdraws ticket mem done => exact .inr (.inl ⟨⟨∅, none⟩, fun _ => rfl, rfl⟩)
  | publishes move publishing => exact .inr (.inr ⟨move, rfl, rfl⟩)
  | rests | renames | subscribes | halts | sends | returns | concludes | drops | sweeps | turns
  | loses => exact .inl rfl

/-- **The engine's books agree with the radio**, but for what is left behind: the radio scans where
the driver takes it to, or else scanning lingers; pipeline and radio hold the same connections; and
the publisher's driver knows what the radio shows. -/
structure IsFaithful (s : Session) : Prop where
  orderly : s.IsOrderly
  sound : s.system.IsSound
  hears : s.hears = (s.engine.pipeline.radioOn || s.scanLingers)
  shows : s.logbook.IsFaithful s.engine.config.manufacturerId

theorem isFaithful_initial (config : Config) : (initial config).IsFaithful where
  orderly := isOrderly_initial config
  sound := Scan.System.isSound_initial (.new config.cache)
  hears := rfl
  shows := Publisher.Logbook.isFaithful_initial _

/-- The radio scans where the driver has it scan, and where it failed to stop. -/
theorem Moves.hears (h : s.Moves x t) (hs : s.IsFaithful) :
    t.hears = (t.engine.pipeline.radioOn || t.scanLingers) := by
  cases h with
  | scans now move genuine =>
    have hradio := Scan.Pipeline.radioOn_move hs.orderly.consistent now s.engine.cache move
    have hnext := s.engine.pipeline.radioNext_eq s.scanLingers move
    rw [← hs.hears] at hnext
    simpa [hradio] using hnext
  | rests | renames | subscribes | changes | halts | sends | returns | withdraws | concludes
  | drops | publishes | sweeps | turns | loses => exact hs.hears

/-- The logbook stays right, whatever happens. -/
theorem Moves.shows (h : s.Moves x t) (hs : s.IsFaithful) :
    t.logbook.IsFaithful s.engine.config.manufacturerId := by
  obtain hsame | ⟨edition, hquiet, hchange⟩ | ⟨move, rfl, hmove⟩ := h.logbook
  · rw [hsame]
    exact hs.shows
  · rw [hchange]
    exact hs.shows.handOver hquiet
  · rw [hmove]
    exact hs.shows.move move

/-- **The books are kept**, whatever happens and however the radio answers. -/
theorem IsFaithful.after (hs : s.IsFaithful) (x : Happening) : (s.after x).IsFaithful := by
  have hmoves := s.moves x
  obtain ⟨happenings, hsystem, hfair⟩ := hmoves.system
  have hsound : (s.after x).system.IsSound :=
    hsystem ▸ hs.sound.run s.engine.config fun y hy => (hfair y hy).2
  exact ⟨hs.orderly.after x, hsound, hmoves.hears hs, hmoves.config ▸ hmoves.shows hs⟩

theorem IsFaithful.run (hs : s.IsFaithful) (happenings : List Happening) :
    (s.run happenings).IsFaithful := by
  induction happenings generalizing s with
  | nil => exact hs
  | cons x rest ih => exact ih (hs.after x)

/-- The radio holds a connection only for the fetch in flight, or until the driver has closed it, or
because a close has timed out. -/
theorem IsFaithful.adapter_eq_silent (hs : s.IsFaithful)
    (hidle : s.engine.pipeline.inFlight = none) (hclosing : s.engine.pipeline.isClosing = false) :
    s.adapter = .silent := by
  cases hs.sound.holds with
  | busy g inFlight => cases hidle.symm.trans inFlight
  | free inFlight waits links silent => exact silent
  | disconnecting inFlight waits => cases hclosing.symm.trans waits
  | cancelling inFlight waits => cases hclosing.symm.trans waits

/-! ## What is published, and what is applied -/

/-- All changes are applied exactly if the publisher's driver has nothing to do. -/
theorem IsFaithful.settled_iff (hs : s.IsFaithful) :
    s.engine.IsSettled ↔ s.engine.publisher.applying = none ∧ s.engine.publisher.unseen = false := by
  obtain ⟨editions, hfollows⟩ := hs.shows.follows
  rw [← show s.logbook.publisher = s.engine.publisher from rfl,
    ← hfollows.logbook.present_eq_none_iff]
  exact hfollows.settled_iff

/-- Moves of a publisher's driver with nothing to do come to nothing. -/
theorem IsFaithful.move_of_settled (hs : s.IsFaithful) (hsettled : s.engine.IsSettled)
    (move : Publisher.Move) :
    s.logbook.move s.engine.config.manufacturerId move = s.logbook := by
  obtain ⟨hidle, hseen⟩ := hs.settled_iff.mp hsettled
  exact Publisher.Logbook.move_of_settled hidle hseen _ move

/-- What is published is no business of the publisher's driver. -/
theorem IsFaithful.frame_move (hs : s.IsFaithful) (move : Publisher.Move) :
    ∃ unseen belief applying applied,
      (s.logbook.move s.engine.config.manufacturerId move).publisher =
        { s.engine.publisher with unseen, belief, applying, applied } := by
  obtain ⟨editions, hfollows⟩ := hs.shows.follows
  exact hfollows.logbook.frame_move s.engine.config.manufacturerId move

/-- **Before the shutdown** nothing is torn down, and the publisher's driver is at work. -/
structure IsWorking (s : Session) : Prop where
  enabled : s.engine.isEnabled = true
  calls : ∀ errand ∈ s.calls, errand.isTeardown = false
  publishing : s.engine.publishing = true

theorem isWorking_initial (config : Config) : (initial config).IsWorking :=
  ⟨rfl, List.forall_mem_nil _, rfl⟩

/-- An engine in use is at work, whatever happens. -/
theorem Moves.isWorking (h : s.Moves x t) (hw : s.IsWorking)
    (henabled : t.engine.isEnabled = true) : t.IsWorking := by
  obtain ⟨-, hcalls, hpublishing⟩ := hw
  cases h with
  | renames | halts => cases henabled
  | subscribes | changes =>
    refine ⟨henabled, ?_, hpublishing⟩
    exact List.forall_mem_append.mpr ⟨hcalls, List.forall_mem_singleton.mpr rfl⟩
  | sends mem | drops errand mem droppable =>
    refine ⟨henabled, List.forall_mem_append.mpr ⟨?_, List.forall_mem_singleton.mpr rfl⟩,
      hpublishing⟩
    exact fun errand herrand => hcalls errand (List.mem_of_mem_erase herrand)
  | returns errand mem isOver kind =>
    exact ⟨henabled, fun errand herrand => hcalls errand (List.mem_of_mem_erase herrand),
      hpublishing⟩
  | withdraws ticket mem done => cases hcalls _ mem
  | concludes errand mem isOver kind => cases (hcalls _ mem).symm.trans kind
  | scans now move genuine => exact ⟨henabled, hcalls, by simpa using hpublishing⟩
  | rests | publishes | sweeps | turns | loses => exact ⟨henabled, hcalls, hpublishing⟩

theorem isWorking_run (hw : s.engine.isEnabled = true → s.IsWorking) (happenings : List Happening)
    (henabled : (s.run happenings).engine.isEnabled = true) : (s.run happenings).IsWorking := by
  induction happenings generalizing s with
  | nil => exact hw henabled
  | cons x rest ih =>
    refine ih (fun hafter => ?_) henabled
    have hmoves := s.moves x
    exact hmoves.isWorking (hw (hmoves.isEnabled hafter)) hafter

/-- Somebody waits for the present generation, or it is applied. -/
def IsAwaited (s : Session) : Prop :=
  s.engine.IsSettled ∨ .generation s.engine.publisher.generation ∈ s.calls

/-- **Whoever changes what is published waits until that is applied**, unless the call is dropped. -/
theorem Moves.isAwaited (h : s.Moves x t) (hs : s.IsFaithful) (hw : s.IsWorking)
    (henabled : t.engine.isEnabled = true) (hkept : ∀ g, x ≠ .drops (.generation g))
    (hawaited : s.IsAwaited) : t.IsAwaited := by
  have herase : ∀ errand : Errand, errand ≠ .generation s.engine.publisher.generation →
      .generation s.engine.publisher.generation ∈ s.calls →
      .generation s.engine.publisher.generation ∈ s.calls.erase errand :=
    fun _ hne hmem => (List.mem_erase_of_ne hne.symm).mpr hmem
  cases h with
  | renames | halts => cases henabled
  | subscribes request subscriptions enabled =>
    exact hawaited.imp_right (List.mem_append_left _)
  | changes request edition quiet enabled =>
    exact .inr (List.mem_append_right _ List.mem_cons_self)
  | sends mem =>
    exact hawaited.imp_right fun hmem => List.mem_append_left _ (herase .sync nofun hmem)
  | returns errand mem isOver kind =>
    -- a call that returns was waiting for the latest generation, or for an older one
    by_cases hlast : errand = .generation s.engine.publisher.generation
    · subst hlast
      exact .inl isOver
    · exact hawaited.imp_right (herase errand hlast)
  | withdraws ticket mem done => cases hw.calls _ mem
  | concludes errand mem isOver kind => cases (hw.calls _ mem).symm.trans kind
  -- the one call that counts is not dropped
  | drops errand mem droppable =>
    refine hawaited.imp_right fun hmem => List.mem_append_left _ (herase errand ?_ hmem)
    rintro rfl
    exact hkept _ rfl
  | scans now move genuine => simpa [IsAwaited, Engine.IsSettled] using hawaited
  | publishes move publishing =>
    refine hawaited.imp (fun hsettled => ?_) fun hmem => ?_
    · rw [hs.move_of_settled hsettled]
      exact hsettled
    · obtain ⟨unseen, belief, applying, applied, hframe⟩ := hs.frame_move move
      rw [hframe]
      exact hmem
  | rests | sweeps | turns | loses => exact hawaited

theorem isAwaited_run (hs : s.IsFaithful) (hw : s.engine.isEnabled = true → s.IsWorking)
    (hawaited : s.engine.isEnabled = true → s.IsAwaited) {happenings : List Happening}
    (hkept : ∀ g, .drops (.generation g) ∉ happenings)
    (henabled : (s.run happenings).engine.isEnabled = true) : (s.run happenings).IsAwaited := by
  induction happenings generalizing s with
  | nil => exact hawaited henabled
  | cons x rest ih =>
    have hmoves := s.moves x
    refine ih (hs.after x) (fun hafter => ?_) (fun hafter => ?_)
      (fun g hmem => hkept g (.tail _ hmem)) henabled
    · exact hmoves.isWorking (hw (hmoves.isEnabled hafter)) hafter
    · have hbefore := hmoves.isEnabled hafter
      refine hmoves.isAwaited hs (hw hbefore) hafter (fun g hdrops => ?_) (hawaited hbefore)
      exact hkept g (hdrops ▸ List.mem_cons_self)

/-- **When nobody waits for a call, everything is applied**, provided that nobody has dropped a call
that changes what is published. -/
theorem isSettled_of_free (config : Config) {happenings : List Happening}
    (hkept : ∀ g, .drops (.generation g) ∉ happenings)
    (henabled : ((initial config).run happenings).engine.isEnabled = true)
    (hfree : ((initial config).run happenings).isFree = true) :
    ((initial config).run happenings).engine.IsSettled := by
  have hawaited := isAwaited_run (isFaithful_initial config) (fun _ => isWorking_initial config)
    (fun _ => .inl (Nat.le_refl 0)) hkept henabled
  refine hawaited.resolve_right fun hmem => ?_
  cases List.all_eq_true.mp hfree _ hmem

/-! ## What is left behind -/

/-- Nothing is left behind by calls that have failed. -/
structure NothingLingers (s : Session) : Prop where
  attempts : s.left.attempts = []
  links : s.left.links = []
  scan : s.scanLingers = false
  logbook : s.logbook.NothingLingers

theorem nothingLingers_initial (config : Config) : (initial config).NothingLingers :=
  ⟨rfl, rfl, rfl, fun _ => rfl, rfl⟩

/-- A close that ends in time leaves nothing, and neither does one that has nothing to take. -/
theorem leftAfter_eq_nil {left a : Scan.Adapter} (hattempts : left.attempts = [])
    (hlinks : left.links = []) {move : Scan.Move}
    (hintime : move = .closed .timedOut → a = .silent) :
    (left.leftAfter a move).attempts = [] ∧ (left.leftAfter a move).links = [] := by
  cases move with
  | closed closing =>
    cases closing with
    | timedOut =>
      obtain rfl := hintime rfl
      exact ⟨by rw [Scan.Adapter.leftAfter, hattempts]; rfl,
        by rw [Scan.Adapter.leftAfter, hlinks]; rfl⟩
    | answered result =>
      rw [Scan.Adapter.leftAfter, Scan.Adapter.closeAnswered]
      dsimp only
      split
      · exact ⟨hattempts, by rw [hlinks]; rfl⟩
      · exact ⟨by rw [hattempts]; rfl, hlinks⟩
      · exact ⟨hattempts, hlinks⟩
  | send | hear | takeCommand | takeSighting | scanAnswered | fetchBegins | fetchAnswered
  | fetchExpires => exact ⟨hattempts, hlinks⟩

/-- Nothing comes to linger while the radio does as it is told. -/
theorem Moves.nothingLingers (h : s.Moves x t) (hs : s.IsFaithful) (hok : x.Succeeds)
    (hnothing : s.NothingLingers) : t.NothingLingers := by
  -- only a task that fails makes anything linger on the radio
  have hlogbook : t.logbook.NothingLingers := by
    obtain hsame | ⟨edition, -, hchange⟩ | ⟨move, rfl, hmove⟩ := h.logbook
    · rw [hsame]
      exact hnothing.logbook
    · rw [hchange]
      exact ⟨hnothing.logbook.services, hnothing.logbook.broadcast⟩
    · rw [hmove]
      refine hnothing.logbook.move hs.shows.converges.logbook _ ?_
      rintro e rfl
      exact hok
  obtain ⟨hattempts, hlinks, hscan, -⟩ := hnothing
  cases h with
  | scans now move genuine =>
    -- a close that was in time has left nothing, and an answer of success left no scanning
    have hintime : move = .closed .timedOut → s.adapter = .silent := by
      rintro rfl
      cases hok
    have hobeys : ∀ e, move ≠ .scanAnswered (.error e) := by
      rintro e rfl
      exact hok
    obtain ⟨hattempts, hlinks⟩ := leftAfter_eq_nil hattempts hlinks hintime
    refine ⟨hattempts, hlinks, ?_, hlogbook⟩
    change s.engine.pipeline.scanLingersNext s.scanLingers move = false
    rw [hscan]
    exact s.engine.pipeline.scanLingersNext_eq_false hobeys
  | turns link connected =>
    refine ⟨?_, hlinks, hscan, hlogbook⟩
    change s.left.attempts.map _ = []
    rw [hattempts]
    rfl
  | loses link =>
    refine ⟨hattempts, ?_, hscan, hlogbook⟩
    change s.left.links.filter _ = []
    rw [hlinks]
    rfl
  | rests | renames | subscribes | changes | halts | sends | returns | withdraws | concludes
  | drops | publishes | sweeps => exact ⟨hattempts, hlinks, hscan, hlogbook⟩

/-- **Nothing is left behind while the radio does as it is told** and links are closed in time. -/
theorem NothingLingers.run (h : s.NothingLingers) (hs : s.IsFaithful) {happenings : List Happening}
    (hok : ∀ x ∈ happenings, x.Succeeds) : (s.run happenings).NothingLingers := by
  induction happenings generalizing s with
  | nil => exact h
  | cons x rest ih =>
    obtain ⟨hx, hrest⟩ := List.forall_mem_cons.mp hok
    exact ih ((s.moves x).nothingLingers hs hx h) (hs.after x) hrest

end Session

end Nearby
