import Nearby.Proofs.Engine.Books

/-!
# The end of an engine

A shutdown has the pipeline stop for good, withdraws what is published, clears the cache, and stops
the drivers. Much of this is skipped if there seems to be nothing to do: a pipeline that is not
active is taken to be idle, and if nothing is published, nothing is taken to be on the radio.

The first is right, and so the radio holds no connection in the end and does not scan, but for what
earlier calls have failed to close or to stop. The second is not. The last service may be withdrawn
by a call that is dropped while the publisher's driver has still to take it off the radio. Nothing
is published then, so the shutdown does not wait for the driver, but stops it; and the service stays.

From the shutdown on, a session goes through three stages (`Engine.Stage`). It reaches the last one
if the drivers are left to their work, and then nothing can happen any more (`Session.IsClosed`).
What is left on the radio by then is told by what is left behind and by what the publisher's driver
has withdrawn (`Session.shutdown_leaves_nothing_iff`). A call that is cut short when the driver is
stopped is taken not to reach the radio.
-/

namespace Nearby

open Scan (Halt Ticket)
open Engine (Errand)

/-! ## A pipeline that has stopped for good -/

namespace Scan.Pipeline

variable {config : Config} {p : Pipeline}

/-- A pipeline that has stopped for good is idle. -/
theorem idle_of_isExited (hd : p.driver.Consistent config) (h : p.control.isExited = true) :
    p.control = .exited ∧ p.inFlight = none ∧ p.scanning = false := by
  have hcontrol : p.control = .exited := Control.eq_exited_of_isExited h
  rw [Driver.Consistent, control_driver, hcontrol] at hd
  obtain ⟨hactive, hrests⟩ := hd
  obtain ⟨hinFlight, -, -, hscanning⟩ := hrests.of_inactive hactive
  exact ⟨hcontrol, hinFlight, hscanning⟩

/-- All that is left is that the radio may have heard something. -/
theorem move_of_exited (hcontrol : p.control = .exited) (hfetches : ∀ id, p.fetches.get? id = none)
    (config : Config) (now : Timestamp) (cache : Cache) {move : Move}
    (hmove : ∀ command, move ≠ .send command) :
    ∃ sightings, p.move config now cache move = ⟨{ p with sightings }, cache, []⟩ := by
  have hrests : p.move config now cache move = ⟨p, cache, []⟩ →
      ∃ sightings, p.move config now cache move = ⟨{ p with sightings }, cache, []⟩ :=
    fun hs => ⟨p.sightings, hs⟩
  cases move with
  | send command => exact absurd rfl (hmove command)
  | hear sighting => exact ⟨_, rfl⟩
  | takeCommand =>
    refine hrests (move_takeCommand_of_none ?_ now cache)
    rw [taken?, hcontrol]
  | takeSighting =>
    obtain hs | ⟨sighting, rest, hwaits, -, -⟩ := p.takeSighting_cases config now cache
    · exact hrests hs
    · cases hcontrol.symm.trans hwaits
  | scanAnswered result =>
    refine hrests ?_
    rw [Pipeline.move, onScanAnswered, hcontrol]
  | closed closing =>
    obtain ⟨-, hs⟩ | ⟨peer, halt, hcloses, -⟩ | ⟨peer, pending, outcome, hcloses, -⟩ :=
      p.onClosed_cases config now closing cache
    · exact hrests hs
    · cases hcontrol.symm.trans hcloses
    · cases hcontrol.symm.trans hcloses
  | fetchBegins id =>
    refine hrests ?_
    rw [Pipeline.move, hfetches]
  | fetchAnswered id answer =>
    refine hrests ?_
    rw [Pipeline.move, hfetches]
  | fetchExpires id =>
    refine hrests ?_
    rw [Pipeline.move, hfetches]

end Scan.Pipeline

/-! ## From the shutdown on -/

/-- The pipeline was told to stop for good: the command is owed, or was carried out. -/
inductive Engine.IsTold (e : Engine) (ticket : Ticket) : Prop
  | owes (owed : e.pipeline.owed.filterMap Halt.shutdown? = [ticket])
    (running : e.pipeline.control.isExited = false)
  | obeyed (acknowledged : ticket ∈ e.acknowledged) (exited : e.pipeline.control.isExited = true)

namespace Engine

variable {e : Engine}

/-- Once the command is acknowledged, the pipeline has stopped. -/
theorem IsTold.exited {calls : List Errand} {ticket : Ticket} (h : e.IsTold ticket)
    (haccounts : e.Accounts calls) (hdone : ticket ∈ e.acknowledged) :
    e.pipeline.control.isExited = true := by
  cases h with
  | obeyed acknowledged exited => exact exited
  | owes owed running =>
    have hmem : ticket ∈ e.pipeline.owed.filterMap Halt.shutdown? := by
      rw [owed]
      exact List.mem_singleton_self ticket
    have hdone : (Halt.shutdown ticket).ticket ∈ e.acknowledged := hdone
    exact absurd (Halt.mem_filterMap_shutdown?.mp hmem) (haccounts.notMem_owed hdone)

/-- What does not concern the pipeline. -/
theorem IsTold.of_same {f : Engine} {ticket : Ticket} (h : e.IsTold ticket)
    (hpipeline : f.pipeline = e.pipeline) (hacknowledged : f.acknowledged = e.acknowledged) :
    f.IsTold ticket := by
  cases h with
  | owes owed running => exact .owes (hpipeline ▸ owed) (hpipeline ▸ running)
  | obeyed acknowledged exited => exact .obeyed (hacknowledged ▸ acknowledged) (hpipeline ▸ exited)

/-- A pipeline that has stopped for good stays so. -/
theorem isExited_moveScan (hd : e.pipeline.driver.Consistent e.config) (now : Timestamp)
    {move : Scan.Move} (hmove : ∀ command, move ≠ .send command)
    (hexited : e.pipeline.control.isExited = true) :
    (e.moveScan now move).1.pipeline.control.isExited = true := by
  obtain ⟨done, howed, hacknowledged, hexits⟩ := Scan.Pipeline.pays_move hd now e.cache hmove
  simpa using hexits.mpr (.inl hexited)

/-- The pipeline stops when it acknowledges the command. -/
theorem IsTold.moveScan {ticket : Ticket} (h : e.IsTold ticket)
    (hd : e.pipeline.driver.Consistent e.config) (now : Timestamp) {move : Scan.Move}
    (hmove : ∀ command, move ≠ .send command) : (e.moveScan now move).1.IsTold ticket := by
  cases h with
  | obeyed acknowledged exited =>
    refine .obeyed ?_ (isExited_moveScan hd now hmove exited)
    simp [acknowledged]
  | owes owed running =>
    obtain ⟨done, howed, hacknowledged, hexits⟩ := Scan.Pipeline.pays_move hd now e.cache hmove
    rw [moveScan_eq]
    rw [howed, List.filterMap_append, List.append_eq_singleton_iff] at owed
    obtain ⟨hdone, hleft⟩ | ⟨hdone, -⟩ := owed
    · refine .owes hleft ?_
      rw [← Bool.not_eq_true]
      intro hexited
      obtain hexited | ⟨other, hother⟩ := hexits.mp hexited
      · cases running.symm.trans hexited
      · rw [← Halt.mem_filterMap_shutdown?, hdone] at hother
        cases hother
    · have hmem : .shutdown ticket ∈ done := by
        rw [← Halt.mem_filterMap_shutdown?, hdone]
        exact List.mem_singleton_self ticket
      refine .obeyed ?_ (hexits.mpr (.inr ⟨ticket, hmem⟩))
      refine List.mem_append_left _ (List.mem_reverse.mpr ?_)
      rw [hacknowledged]
      exact List.mem_map.mpr ⟨_, hmem, rfl⟩

/-- Nobody waits for any of the calls. -/
def Errand.AllDropped (calls : List Errand) : Prop := ∀ errand ∈ calls, errand.isDropped = true

namespace Errand.AllDropped

variable {others : List Errand} {errand last : Errand}

/-- The last call is the only one that somebody waits for. -/
theorem eq_last (h : AllDropped others) (hmem : errand ∈ others ++ [last])
    (hlive : errand.isDropped = false) : errand = last := by
  rcases List.mem_append.mp hmem with hmem | hmem
  · cases (h errand hmem).symm.trans hlive
  · exact List.mem_singleton.mp hmem

/-- When the last call is over, those that were dropped are left. -/
theorem erase_last (h : AllDropped others) (hlive : last.isDropped = false) :
    (others ++ [last]).erase last = others := by
  have hnotMem : last ∉ others := fun hmem => by cases (h last hmem).symm.trans hlive
  rw [List.erase_append_right _ hnotMem, List.erase_cons_head, List.append_nil]

end Errand.AllDropped

theorem Errand.isDropped_of_isTeardown {errand : Errand} (h : errand.isTeardown = true) :
    errand.isDropped = false := by
  cases errand with
  | haltOfScan | withdrawal => rfl
  | sync | command | generation | dropped => cases h

/-- The shutdown does not take the radio for idle before the publisher's driver is through:
something is published that is to be withdrawn, or else all changes are applied. -/
def WillWithdraw (e : Engine) : Prop := e.publisher.published.isEmpty = false ∨ e.IsSettled

/-- **How far a shutdown has come**, and what it has still to do. Beside it there are calls that were
dropped. It is kept in mind whether the shutdown will wait for the publisher's driver. -/
inductive Stage (waits : Prop) (others : List Errand) (e : Engine) (calls : List Errand) : Prop
  /-- The pipeline is to stop. -/
  | halting (ticket : Ticket) (calls : calls = others ++ [.haltOfScan ticket])
    (told : e.IsTold ticket) (publishing : e.publishing = true)
    (withdraws : waits → e.WillWithdraw)
  /-- The pipeline has stopped, and the publisher's driver is to withdraw everything. -/
  | withdrawing (calls : calls = others ++ [.withdrawal e.publisher.generation])
    (exited : e.pipeline.control.isExited = true) (publishing : e.publishing = true)
    (edition : e.publisher.edition = ⟨∅, none⟩)
  /-- All is done, and the publisher's driver is stopped. -/
  | ended (calls : calls = others) (exited : e.pipeline.control.isExited = true)
    (publishing : e.publishing = false) (edition : e.publisher.edition = ⟨∅, none⟩)
    (settled : waits → e.IsSettled) (entries : e.cache.entries = ∅)

namespace Stage

variable {waits : Prop} {others calls : List Errand}

/-- Nobody waits for a call but the shutdown. -/
theorem isTeardown (h : e.Stage waits others calls) (hdropped : Errand.AllDropped others)
    {errand : Errand} (hmem : errand ∈ calls) (hlive : errand.isDropped = false) :
    errand.isTeardown = true := by
  cases h with
  | halting ticket calls told publishing withdraws =>
    rw [calls] at hmem
    rw [hdropped.eq_last hmem hlive]
    rfl
  | withdrawing calls exited publishing edition =>
    rw [calls] at hmem
    rw [hdropped.eq_last hmem hlive]
    rfl
  | ended calls exited publishing edition settled entries =>
    rw [calls] at hmem
    cases (hdropped errand hmem).symm.trans hlive

/-- The pipeline has stopped, and now everything is withdrawn. -/
theorem withdraw (h : e.Stage waits others calls) (hdropped : Errand.AllDropped others)
    (haccounts : e.Accounts calls) {ticket : Ticket} (mem : .haltOfScan ticket ∈ calls)
    (done : ticket ∈ e.acknowledged) :
    Stage waits others { e with publisher := e.publisher.handOver ⟨∅, none⟩ }
      (calls.erase (.haltOfScan ticket) ++ [.withdrawal (e.publisher.generation + 1)]) := by
  cases h with
  | halting other calls told publishing withdraws =>
    rw [calls] at mem
    obtain rfl := Errand.haltOfScan.inj (hdropped.eq_last mem rfl)
    refine .withdrawing ?_ (told.exited haccounts done) publishing rfl
    rw [calls, hdropped.erase_last rfl]
    rfl
  | withdrawing calls exited publishing edition =>
    rw [calls] at mem
    cases hdropped.eq_last mem rfl
  | ended calls exited publishing edition settled entries =>
    rw [calls] at mem
    cases hdropped _ mem

/-- The shutdown returns. If it has not had anything withdrawn, nothing was published. -/
theorem conclude (h : e.Stage waits others calls) (hdropped : Errand.AllDropped others)
    (haccounts : e.Accounts calls) (hquiet : e.publisher.edition.IsQuiet) {errand : Errand}
    (mem : errand ∈ calls) (isOver : errand.IsOver e) (kind : errand.isTeardown = true) :
    Stage waits others { e with cache := e.cache.clear, publishing := false }
      (calls.erase errand) := by
  have hlive := Errand.isDropped_of_isTeardown kind
  cases h with
  | halting ticket calls told publishing withdraws =>
    rw [calls] at mem
    obtain rfl := hdropped.eq_last mem hlive
    obtain ⟨done, hempty⟩ := isOver
    have hpublished : e.publisher.published = ∅ := Table.eq_empty_of_isEmpty hempty
    refine .ended ?_ (told.exited haccounts done) rfl ?_ (fun hwaits => ?_) rfl
    · rw [calls, hdropped.erase_last rfl]
    · change (⟨e.publisher.published, e.publisher.edition.stamp⟩ : Publisher.Edition) = _
      rw [hquiet hempty, hpublished]
    · refine (withdraws hwaits).resolve_left ?_
      rw [hempty]
      exact Bool.noConfusion
  | withdrawing calls exited publishing edition =>
    rw [calls] at mem
    obtain rfl := hdropped.eq_last mem hlive
    refine .ended ?_ exited rfl edition (fun _ => isOver) rfl
    rw [calls, hdropped.erase_last rfl]
  | ended calls exited publishing edition settled entries =>
    rw [calls] at mem
    cases (hdropped errand mem).symm.trans hlive

/-- The pipeline's moves do not take a shutdown back. -/
theorem moveScan (h : e.Stage waits others calls) (hp : e.pipeline.Coherent)
    (hd : e.pipeline.driver.Consistent e.config) (now : Timestamp) {move : Scan.Move}
    (genuine : ∀ command, move ≠ .send command) :
    (e.moveScan now move).1.Stage waits others calls := by
  cases h with
  | halting ticket calls told publishing withdraws =>
    refine .halting ticket calls (told.moveScan hd now genuine) ?_ ?_
    · simpa using publishing
    · simpa [WillWithdraw, IsSettled] using withdraws
  | withdrawing calls exited publishing edition =>
    refine .withdrawing ?_ (isExited_moveScan hd now genuine exited) ?_ ?_
    · simpa using calls
    · simpa using publishing
    · simpa using edition
  | ended calls exited publishing edition settled entries =>
    obtain ⟨hcontrol, hinFlight, -⟩ := Scan.Pipeline.idle_of_isExited hd exited
    obtain ⟨sightings, hstep⟩ := Scan.Pipeline.move_of_exited hcontrol
      (hp.tracks.idle hinFlight).1 e.config now e.cache genuine
    refine .ended calls (isExited_moveScan hd now genuine exited) ?_ ?_ ?_ ?_
    · simpa using publishing
    · simpa using edition
    · simpa [IsSettled] using settled
    · simpa [hstep] using entries

/-- The publisher's driver at work does not take a shutdown back. -/
theorem movePublisher (h : e.Stage waits others calls) {unseen : Bool} {belief : Belief}
    {applying : Option Applying} {applied : Nat} (hpublishing : e.publishing = true)
    (hsettled : e.IsSettled → e.publisher.generation ≤ applied) :
    Stage waits others
      { e with publisher := { e.publisher with unseen, belief, applying, applied } } calls := by
  cases h with
  | halting ticket calls told publishing withdraws =>
    exact .halting ticket calls (told.of_same rfl rfl) publishing fun hwaits =>
      (withdraws hwaits).imp_right hsettled
  | withdrawing calls exited publishing edition =>
    exact .withdrawing calls exited publishing edition
  | ended calls exited publishing edition settled entries =>
    cases hpublishing.symm.trans publishing

end Stage

end Engine

namespace Session

variable {s t : Session} {x : Happening} {waits : Prop} {others : List Errand}

theorem isFree_iff (s : Session) : s.isFree = true ↔ Errand.AllDropped s.calls := List.all_eq_true

/-- The engine was shut down. -/
structure IsDown (waits : Prop) (others : List Errand) (s : Session) : Prop where
  disabled : s.engine.disabled = some Engine.shutDownReason
  sweeping : s.engine.sweeping = false
  dropped : Errand.AllDropped others
  stage : s.engine.Stage waits others s.calls

theorem IsDown.isEnabled (h : s.IsDown waits others) : s.engine.isEnabled = false := by
  rw [Engine.isEnabled, h.disabled]
  rfl

/-- **The shutdown begins.** -/
theorem IsWorking.shutdown (hw : s.IsWorking) (hs : s.IsOrderly) (hfree : s.isFree = true) :
    (s.after (.requests .shutdown)).IsDown s.engine.WillWithdraw s.calls := by
  obtain ⟨henabled, -, hpublishing⟩ := hw
  obtain ⟨hnone, hrunning⟩ := hs.accounts.running henabled
  rw [after_shutdown henabled hfree]
  refine ⟨rfl, rfl, s.isFree_iff.mp hfree, .halting _ rfl (.owes ?_ hrunning) hpublishing id⟩
  change (Scan.Pipeline.owed { s.engine.pipeline with
    commands := s.engine.pipeline.commands ++ [.shutdown s.engine.nextTicket] }).filterMap _ = _
  rw [Scan.Pipeline.owed_send, List.filterMap_append, hnone]
  rfl

/-- **A shutdown goes on, whatever happens.** -/
theorem Moves.isDown (h : s.Moves x t) (hs : s.IsFaithful) (hdown : s.IsDown waits others) :
    t.IsDown waits others := by
  have henabled := hdown.isEnabled
  obtain ⟨hdisabled, hsweeping, hdropped, hstage⟩ := hdown
  cases h with
  | renames disabled =>
    refine ⟨rfl, hsweeping, hdropped, ?_⟩
    rw [← hdisabled]
    exact hstage
  | subscribes request subscriptions enabled => cases henabled.symm.trans enabled
  | changes request edition quiet enabled => cases henabled.symm.trans enabled
  | halts enabled free => cases henabled.symm.trans enabled
  | sends mem => cases hstage.isTeardown hdropped mem rfl
  | returns errand mem isOver kind =>
    rcases hlive : errand.isDropped with _ | _
    · cases (hstage.isTeardown hdropped mem hlive).symm.trans kind
    · cases errand with
      | dropped errand => cases isOver
      | sync | command | generation | haltOfScan | withdrawal => cases hlive
  | withdraws ticket mem done =>
    exact ⟨hdisabled, hsweeping, hdropped,
      hstage.withdraw hdropped hs.orderly.accounts mem done⟩
  | concludes errand mem isOver kind =>
    exact ⟨hdisabled, hsweeping, hdropped,
      hstage.conclude hdropped hs.orderly.accounts hs.shows.quiet mem isOver kind⟩
  | drops errand mem droppable =>
    cases errand with
    | command ticket => cases hstage.isTeardown hdropped mem rfl
    | generation number => cases hstage.isTeardown hdropped mem rfl
    | sync | haltOfScan | withdrawal | dropped => cases droppable
  | scans now move genuine =>
    have hnext := hstage.moveScan hs.orderly.coherent hs.orderly.consistent now genuine
    refine ⟨?_, ?_, hdropped, hnext⟩
    · simpa using hdisabled
    · simpa using hsweeping
  | publishes move publishing =>
    refine ⟨hdisabled, hsweeping, hdropped, ?_⟩
    obtain ⟨unseen, belief, applying, applied, hframe⟩ := hs.frame_move move
    rw [hframe]
    refine hstage.movePublisher publishing fun hsettled => ?_
    -- a driver with nothing to do has applied what it had applied
    have hsame : s.engine.publisher.applied = applied := by
      rw [hs.move_of_settled hsettled move] at hframe
      exact congrArg Publisher.applied hframe
    exact hsame ▸ hsettled
  | sweeps now sweeping => cases hsweeping.symm.trans sweeping
  | rests | turns | loses => exact ⟨hdisabled, hsweeping, hdropped, hstage⟩

/-- So it does in the course of a run. -/
theorem isDown_run (hs : s.IsFaithful) (hdown : s.IsDown waits others)
    (happenings : List Happening) : (s.run happenings).IsDown waits others := by
  induction happenings generalizing s with
  | nil => exact hdown
  | cons x rest ih => exact ih (hs.after x) ((s.moves x).isDown hs hdown)

/-! ## The shutdown comes to its end -/

/-- A move of the pipeline's driver, other than the sending of a command. -/
theorem after_scans {move : Scan.Move} (hmove : ∀ command, move ≠ .send command)
    (now : Timestamp) :
    s.after (.scans now move) =
      { s with
        engine := (s.engine.moveScan now move).1
        adapter := (s.system.after s.engine.config (.moves now move.inTime)).adapter
        left := s.left.leftAfter s.adapter move
        hears := s.engine.pipeline.radioNext s.hears move
        scanLingers := s.engine.pipeline.scanLingersNext s.scanLingers move } := by
  cases move with
  | send command => exact absurd rfl (hmove command)
  | hear | takeCommand | takeSighting | scanAnswered | closed | fetchBegins | fetchAnswered
  | fetchExpires => rfl

/-- What the driver calls for is what its move does. -/
theorem effects_scans {move : Scan.Move} (hmove : ∀ command, move ≠ .send command)
    (now : Timestamp) : s.effects (.scans now move) = (s.engine.moveScan now move).2 := by
  cases move with
  | send command => exact absurd rfl (hmove command)
  | hear | takeCommand | takeSighting | scanAnswered | closed | fetchBegins | fetchAnswered
  | fetchExpires => rfl

/-- True for what happens without anyone calling the engine, or dropping a call, while the radio does
as it is told. -/
def Happening.IsSpontaneous : Happening → Prop
  | .requests _ => False
  | .drops _ => False
  | x => x.Succeeds

/-- The pipeline's driver, left to itself, comes to the command to stop. -/
theorem exists_acknowledged (hs : s.IsFaithful) {ticket : Ticket} (htold : s.engine.IsTold ticket) :
    ∃ rest : List Happening, (∀ x ∈ rest, x.IsSpontaneous) ∧ (s.run rest).calls = s.calls ∧
      ticket ∈ (s.run rest).engine.acknowledged := by
  -- every move the driver has to make leaves it less to do
  induction hload : s.engine.pipeline.load using Nat.strongRecOn generalizing s with
  | ind load ih =>
  cases htold with
  | obeyed acknowledged exited => exact ⟨[], List.forall_mem_nil _, rfl, acknowledged⟩
  | owes owed running =>
    have howed : s.engine.pipeline.owed ≠ [] := by
      intro hnone
      rw [hnone] at owed
      cases owed
    obtain ⟨move, hnext⟩ := Scan.Pipeline.exists_nextMove howed running
    have hmove : (∀ command, move ≠ .send command) ∧ (Happening.scans ⟨0⟩ move).IsSpontaneous := by
      obtain ⟨rfl, -⟩ | ⟨rfl, -⟩ | ⟨rfl, -⟩ := Scan.Pipeline.of_nextMove? hnext
      · exact ⟨nofun, trivial⟩
      · exact ⟨nofun, trivial⟩
      · exact ⟨nofun, trivial⟩
    obtain ⟨hgenuine, hfair⟩ := hmove
    have hd := hs.orderly.consistent
    have hafter := after_scans (s := s) hgenuine ⟨0⟩
    have hlighter : (s.after (.scans ⟨0⟩ move)).engine.pipeline.load < load := by
      rw [hafter, ← hload]
      simpa using Scan.Pipeline.load_move_lt hd ⟨0⟩ s.engine.cache hnext
    have htold : (s.after (.scans ⟨0⟩ move)).engine.IsTold ticket := by
      rw [hafter]
      exact Engine.IsTold.moveScan (.owes owed running) hd ⟨0⟩ hgenuine
    obtain ⟨rest, hrest, hcalls, hdone⟩ := ih _ hlighter (hs.after _) htold rfl
    refine ⟨_ :: rest, List.forall_mem_cons.mpr ⟨hfair, hrest⟩, hcalls.trans ?_, hdone⟩
    rw [hafter]

/-- A step of the one call that somebody waits for. -/
theorem calls_after_goes (hothers : Errand.AllDropped others) {errand : Errand}
    (hcalls : s.calls = others ++ [errand]) (hlive : errand.isDropped = false) {engine : Engine}
    {next : Option Errand} (hstep : s.engine.step errand = (engine, next))
    (hnext : next ≠ some errand) : (s.after (.goes errand)).calls = others ++ next.toList := by
  have hmem : errand ∈ s.calls := by
    rw [hcalls]
    exact List.mem_append_right _ List.mem_cons_self
  rw [Session.after, hstep]
  dsimp only
  rw [if_pos ⟨hmem, hnext⟩]
  dsimp only
  rw [hcalls, hothers.erase_last hlive]

/-- The publisher's driver moves on while its callers wait. -/
theorem run_publishes (hpublishing : s.engine.publishing = true) (moves : List Publisher.Move) :
    (s.run (moves.map .publishes)).engine.publisher =
        s.engine.publisher.run s.engine.config.manufacturerId moves ∧
      (s.run (moves.map .publishes)).calls = s.calls := by
  induction moves generalizing s with
  | nil => exact ⟨rfl, rfl⟩
  | cons move rest ih =>
    have hafter : (s.after (.publishes move)).engine = (s.engine.movePublisher move).1 ∧
        (s.after (.publishes move)).calls = s.calls := by
      rw [Session.after, if_pos hpublishing]
      exact ⟨rfl, rfl⟩
    obtain ⟨hengine, hcalls⟩ := hafter
    rw [Engine.movePublisher, if_pos hpublishing] at hengine
    obtain ⟨hpublisher, hsame⟩ := ih (s := s.after (.publishes move)) (by rw [hengine]; exact hpublishing)
    refine ⟨hpublisher.trans ?_, hsame.trans hcalls⟩
    rw [hengine]
    rfl

/-- The publisher's driver, left to itself, withdraws everything, and the shutdown returns. -/
theorem exists_withdrawn (hs : s.IsFaithful) (hdown : s.IsDown waits others) {generation : Nat}
    (hcalls : s.calls = others ++ [.withdrawal generation]) :
    ∃ rest : List Happening, (∀ x ∈ rest, x.IsSpontaneous) ∧ (s.run rest).calls = others := by
  have hwithdraws : s.engine.publishing = true := by
    cases hdown.stage with
    | halting ticket calls told publishing withdraws => exact publishing
    | withdrawing calls exited publishing edition => exact publishing
    | ended calls exited publishing edition settled entries =>
      cases List.append_cancel_left ((List.append_nil _).trans (calls.symm.trans hcalls))
  -- the driver applies what is desired, after what it may still be applying
  obtain ⟨editions, hfollows⟩ := hs.shows.follows
  obtain ⟨moves, hmoves, hidle, hseen⟩ :=
    Publisher.exists_settled s.engine.config.manufacturerId hfollows.logbook.present
  have hspontaneous : ∀ x ∈ moves.map Happening.publishes, x.IsSpontaneous := by
    intro x hx
    obtain ⟨move, hmove, rfl⟩ := List.mem_map.mp hx
    rcases hmoves move hmove with rfl | rfl
    · trivial
    · trivial
  obtain ⟨hpublisher, hsame⟩ := run_publishes hwithdraws moves
  have hfaithful := hs.run (moves.map .publishes)
  have hstage := (isDown_run hs hdown (moves.map .publishes)).stage
  have hsettled : (s.run (moves.map .publishes)).engine.IsSettled := by
    refine hfaithful.settled_iff.mpr ?_
    rw [hpublisher]
    exact ⟨hidle, hseen⟩
  refine ⟨moves.map .publishes ++ [.goes (.withdrawal generation)], ?_, ?_⟩
  · exact List.forall_mem_append.mpr ⟨hspontaneous, List.forall_mem_singleton.mpr trivial⟩
  · rw [run_append]
    generalize s.run (moves.map .publishes) = t at hsame hstage hsettled
    have hlast := hsame.trans hcalls
    -- the call waits for the latest generation, as there are no changes any more
    have hgeneration : generation = t.engine.publisher.generation := by
      cases hstage with
      | halting ticket calls told publishing withdraws =>
        cases List.append_cancel_left (hlast.symm.trans calls)
      | withdrawing calls exited publishing edition =>
        have hsame := List.append_cancel_left (hlast.symm.trans calls)
        exact Errand.withdrawal.inj (List.singleton_inj.mp hsame)
      | ended calls exited publishing edition settled entries =>
        cases List.append_cancel_left ((List.append_nil _).trans (calls.symm.trans hlast))
    have hdone : generation ≤ t.engine.publisher.applied := hgeneration ▸ hsettled
    rw [show t.run [.goes (.withdrawal generation)] = t.after (.goes (.withdrawal generation)) from
      rfl, calls_after_goes hdown.dropped hlast rfl (Engine.step_withdrawal hdone) nofun]
    exact List.append_nil _

/-- Once the pipeline has stopped, the shutdown returns, or has everything withdrawn first. -/
theorem calls_after_haltOfScan (hothers : Errand.AllDropped others) {ticket : Ticket}
    (hcalls : s.calls = others ++ [.haltOfScan ticket]) (hdone : ticket ∈ s.engine.acknowledged) :
    (s.after (.goes (.haltOfScan ticket))).calls = others ∨
      ∃ generation,
        (s.after (.goes (.haltOfScan ticket))).calls = others ++ [.withdrawal generation] := by
  rcases hempty : s.engine.publisher.published.isEmpty with _ | _
  · have hstep := Engine.step_haltOfScan_of_isEmpty_eq_false hdone hempty
    exact .inr ⟨_, calls_after_goes hothers hcalls rfl hstep nofun⟩
  · have hstep := Engine.step_haltOfScan_of_isEmpty hdone hempty
    refine .inl ((calls_after_goes hothers hcalls rfl hstep nofun).trans ?_)
    exact List.append_nil _

/-- **A shutdown ends**, as long as the drivers are left to their work. -/
theorem IsDown.exists_ended (h : s.IsDown waits others) (hs : s.IsFaithful) :
    ∃ rest : List Happening, (∀ x ∈ rest, x.IsSpontaneous) ∧ (s.run rest).calls = others := by
  cases h.stage with
  | ended calls exited publishing edition settled entries =>
    exact ⟨[], List.forall_mem_nil _, calls⟩
  | withdrawing calls exited publishing edition => exact exists_withdrawn hs h calls
  | halting ticket calls told publishing withdraws =>
    obtain ⟨halting, hhalting, hsame, hdone⟩ := exists_acknowledged hs told
    let first := halting ++ [.goes (.haltOfScan ticket)]
    have hfirst : ∀ x ∈ first, x.IsSpontaneous :=
      List.forall_mem_append.mpr ⟨hhalting, List.forall_mem_singleton.mpr trivial⟩
    have hafter : s.run first = (s.run halting).after (.goes (.haltOfScan ticket)) :=
      s.run_append halting _
    obtain hreturned | ⟨generation, hcalls⟩ :=
      calls_after_haltOfScan h.dropped (hsame.trans calls) hdone
    · exact ⟨first, hfirst, (congrArg Session.calls hafter).trans hreturned⟩
    · obtain ⟨rest, hrest, hreturned⟩ := exists_withdrawn (hs.run first) (isDown_run hs h first)
        ((congrArg Session.calls hafter).trans hcalls)
      refine ⟨first ++ rest, List.forall_mem_append.mpr ⟨hfirst, hrest⟩, ?_⟩
      rw [run_append]
      exact hreturned

/-! ## After the shutdown -/

/-- **Nothing can happen any more.** -/
structure IsClosed (s : Session) : Prop where
  disabled : s.engine.disabled = some Engine.shutDownReason
  sweeping : s.engine.sweeping = false
  publishing : s.engine.publishing = false
  dropped : Errand.AllDropped s.calls
  exited : s.engine.pipeline.control = .exited
  fetches : ∀ id, s.engine.pipeline.fetches.get? id = none
  entries : s.engine.cache.entries = ∅
  adapter : s.adapter = .silent

/-- **Once the shutdown has returned, nothing can happen any more.** -/
theorem IsDown.isClosed (h : s.IsDown waits others) (hs : s.IsFaithful) (hfree : s.isFree = true) :
    s.IsClosed := by
  obtain ⟨hdisabled, hsweeping, hothers, hstage⟩ := h
  have hdropped := s.isFree_iff.mp hfree
  cases hstage with
  | halting ticket calls told publishing withdraws =>
    rw [calls] at hdropped
    cases hdropped _ (List.mem_append_right _ List.mem_cons_self)
  | withdrawing calls exited publishing edition =>
    rw [calls] at hdropped
    cases hdropped _ (List.mem_append_right _ List.mem_cons_self)
  | ended calls exited publishing edition settled entries =>
    obtain ⟨hcontrol, hinFlight, -⟩ := Scan.Pipeline.idle_of_isExited hs.orderly.consistent exited
    have hfetches := (hs.orderly.coherent.tracks.idle hinFlight).1
    have hadapter : s.adapter = .silent := by
      refine hs.adapter_eq_silent hinFlight ?_
      rw [Scan.Pipeline.isClosing, hcontrol]
    exact ⟨hdisabled, hsweeping, publishing, hdropped, hcontrol, hfetches, entries, hadapter⟩

/-- A shutdown that waits for the publisher's driver has had everything withdrawn by the time it
returns. -/
theorem IsDown.hasWithdrawn (h : s.IsDown waits others) (hs : s.IsFaithful)
    (hfree : s.isFree = true) (hwaits : waits) : s.logbook.HasWithdrawn := by
  have hdropped := s.isFree_iff.mp hfree
  cases h.stage with
  | halting ticket calls told publishing withdraws =>
    rw [calls] at hdropped
    cases hdropped _ (List.mem_append_right _ List.mem_cons_self)
  | withdrawing calls exited publishing edition =>
    rw [calls] at hdropped
    cases hdropped _ (List.mem_append_right _ List.mem_cons_self)
  | ended calls exited publishing edition settled entries =>
    exact hs.shows.hasWithdrawn (settled hwaits) edition

namespace IsClosed

theorem isEnabled (h : s.IsClosed) : s.engine.isEnabled = false := by
  rw [Engine.isEnabled, h.disabled]
  rfl

/-- A call returns at once, and has changed nothing. -/
theorem submit (h : s.IsClosed) (request : Engine.Request) :
    s.engine.submit request = (s.engine, .finished (.ok ()), []) := by
  have hsame : s.engine.submitDisabled request = s.engine := by
    cases request with
    | shutdown => rw [Engine.submitDisabled, ← h.disabled]
    | publish | unpublish | startScan | stopScan => rfl
  rw [Engine.submit.eq_def, h.isEnabled, hsame]
  rfl

/-- What the pipeline may still do: nothing but to hear something. -/
theorem move (h : s.IsClosed) (now : Timestamp) {move : Scan.Move}
    (hmove : ∀ command, move ≠ .send command) :
    ∃ sightings, s.engine.pipeline.move s.engine.config now s.engine.cache move =
      ⟨{ s.engine.pipeline with sightings }, s.engine.cache, []⟩ :=
  Scan.Pipeline.move_of_exited h.exited h.fetches s.engine.config now s.engine.cache hmove

/-- The radio holds no connection of the pipeline's whose state might change. -/
theorem answered (h : s.IsClosed) (move : Scan.Move) :
    s.adapter.answered s.engine.pipeline move = .silent := by
  rw [h.adapter]
  cases move with
  | fetchAnswered id answer =>
    cases answer with
    | done result =>
      rw [Scan.Adapter.answered, h.fetches]
      rfl
    | services | value => rfl
  | closed closing =>
    cases closing with
    | answered | timedOut => rfl
  | send | hear | takeCommand | takeSighting | scanAnswered | fetchBegins | fetchExpires => rfl

/-- Nobody waits for the radio to start or stop scanning. -/
theorem radioNext (h : s.IsClosed) (move : Scan.Move) :
    s.engine.pipeline.radioNext s.hears move = s.hears ∧
      s.engine.pipeline.scanLingersNext s.scanLingers move = s.scanLingers := by
  rw [Scan.Pipeline.radioNext.eq_def, Scan.Pipeline.scanLingersNext.eq_def, h.exited]
  cases move with
  | scanAnswered result =>
    cases result with
    | ok | error => exact ⟨rfl, rfl⟩
  | send | hear | takeCommand | takeSighting | closed | fetchBegins | fetchAnswered
  | fetchExpires => exact ⟨rfl, rfl⟩

/-- What may still change: the pipeline's mailbox for sightings, and what is left of closes that have
timed out. -/
structure Changes (s t : Session) : Prop where
  same : ∃ sightings left, t =
    { s with engine := { s.engine with pipeline := { s.engine.pipeline with sightings } }, left }
  left : s.left.attempts = [] → s.left.links = [] → t.left.attempts = [] ∧ t.left.links = []

theorem Changes.refl (s : Session) : Changes s s := ⟨⟨_, _, rfl⟩, And.intro⟩

/-- A move of the pipeline's driver may change what is left of links, and comes to nothing else. -/
theorem changes_scans (h : s.IsClosed) (now : Timestamp) {move : Scan.Move}
    (hmove : ∀ command, move ≠ .send command) :
    Changes s (s.after (.scans now move)) ∧ s.effects (.scans now move) = [] := by
  obtain ⟨sightings, hstep⟩ := h.move now hmove
  have hengine : s.engine.moveScan now move =
      ({ s.engine with pipeline := { s.engine.pipeline with sightings } }, []) := by
    rw [Engine.moveScan, hstep]
    rfl
  have hinTime : ∀ command, move.inTime ≠ .send command := by
    cases move with
    | send command => exact absurd rfl (hmove command)
    | hear | takeCommand | takeSighting | scanAnswered | closed | fetchBegins | fetchAnswered
    | fetchExpires => exact nofun
  have hadapter : (s.system.after s.engine.config (.moves now move.inTime)).adapter = s.adapter := by
    obtain ⟨sightings, hstep⟩ := h.move now hinTime
    change (s.engine.pipeline.move s.engine.config now s.engine.cache move.inTime).effects.foldl _
      (s.adapter.answered s.engine.pipeline move.inTime) = _
    rw [hstep, h.answered, h.adapter]
    rfl
  obtain ⟨hhears, hlingers⟩ := h.radioNext move
  rw [Session.after_scans hmove, effects_scans hmove, hengine, hadapter, hhears, hlingers]
  exact ⟨⟨⟨_, _, rfl⟩, fun hattempts hlinks => leftAfter_eq_nil hattempts hlinks fun _ => h.adapter⟩,
    rfl⟩

/-- **Nothing comes of anything any more**, but that what is left may change. -/
theorem changes (h : s.IsClosed) (x : Happening) :
    Changes s (s.after x) ∧ s.effects x = [] := by
  cases x with
  | requests request =>
    have hbegin := Engine.begin_of_finished (h.submit request)
    rw [Session.after, effects, hbegin]
    split
    · exact ⟨.refl s, rfl⟩
    · dsimp only
      rw [Option.toList_none, List.append_nil]
      exact ⟨.refl s, rfl⟩
  | goes errand =>
    rw [Session.after, if_neg]
    · exact ⟨.refl s, rfl⟩
    · -- whoever could go on was dropped, and a call that was dropped waits for nothing
      rintro ⟨hmem, hnext⟩
      cases errand with
      | dropped errand => exact hnext rfl
      | sync | command | generation | haltOfScan | withdrawal => cases h.dropped _ hmem
  | drops errand =>
    rw [Session.after, if_neg]
    · exact ⟨.refl s, rfl⟩
    · rintro ⟨hmem, hdroppable⟩
      cases errand with
      | dropped errand => cases hdroppable
      | sync | command | generation | haltOfScan | withdrawal => cases h.dropped _ hmem
  | scans now move =>
    by_cases hmove : ∃ command, move = .send command
    · obtain ⟨command, rfl⟩ := hmove
      exact ⟨.refl s, rfl⟩
    · exact h.changes_scans now (not_exists.mp hmove)
  | publishes move =>
    rw [Session.after, effects, Engine.movePublisher, h.publishing]
    exact ⟨.refl s, rfl⟩
  | sweeps now =>
    rw [Session.after, effects, Engine.sweep, h.sweeping]
    exact ⟨.refl s, rfl⟩
  | turns link connected =>
    refine ⟨⟨⟨s.engine.pipeline.sightings, s.left.turns link connected, ?_⟩,
      -- the radio has nothing of the pipeline's any more, only what earlier closes have left
      fun hattempts hlinks => ⟨?_, hlinks⟩⟩, rfl⟩
    · rw [Session.after, h.adapter]
      rfl
    · change s.left.attempts.map _ = []
      rw [hattempts]
      rfl
  | loses link =>
    refine ⟨⟨⟨s.engine.pipeline.sightings, s.left.loses link, ?_⟩,
      fun hattempts hlinks => ⟨hattempts, ?_⟩⟩, rfl⟩
    · rw [Session.after, h.adapter]
      rfl
    · change s.left.links.filter _ = []
      rw [hlinks]
      rfl

/-- What is known of a session that is closed stays true. -/
theorem of_changes (h : s.IsClosed) (hchanges : Changes s t) :
    t.IsClosed ∧ t.logbook = s.logbook ∧ (s.NothingLingers → t.NothingLingers) := by
  obtain ⟨⟨sightings, left, rfl⟩, hleft⟩ := hchanges
  refine ⟨{ h with }, rfl, fun hnothing => ?_⟩
  obtain ⟨hattempts, hlinks⟩ := hleft hnothing.attempts hnothing.links
  exact ⟨hattempts, hlinks, hnothing.scan, hnothing.logbook⟩

/-- So it does in the course of a run. -/
theorem run (h : s.IsClosed) (later : List Happening) :
    (s.run later).IsClosed ∧ (s.run later).logbook = s.logbook ∧
      (s.NothingLingers → (s.run later).NothingLingers) := by
  induction later generalizing s with
  | nil => exact ⟨h, rfl, id⟩
  | cons x rest ih =>
    obtain ⟨hclosed, hlogbook, hnothing⟩ := h.of_changes (h.changes x).1
    obtain ⟨hclosed, hsame, hstill⟩ := ih hclosed
    exact ⟨hclosed, hsame.trans hlogbook, hstill ∘ hnothing⟩

end IsClosed

/-! ## What is left on the radio -/

/-- Nothing is left on the radio: it holds no connection, does not scan, serves nothing and broadcasts
nothing. -/
structure IsBare (s : Session) : Prop where
  connections : s.connections = 0
  hears : s.hears = false
  presence : s.presence = .idle

/-- The radio scans only where scanning lingers. -/
theorem IsClosed.hears_eq (h : s.IsClosed) (hs : s.IsFaithful) : s.hears = s.scanLingers := by
  have hexited : s.engine.pipeline.control.isExited = true := by
    rw [h.exited]
    rfl
  obtain ⟨-, -, hscanning⟩ := Scan.Pipeline.idle_of_isExited hs.orderly.consistent hexited
  rw [hs.hears, Scan.Pipeline.radioOn, hscanning, h.exited]
  rfl

/-- A session that is closed has the radio bare, if nothing lingers and everything was withdrawn. -/
theorem IsClosed.isBare (h : s.IsClosed) (hs : s.IsFaithful) (hnothing : s.NothingLingers)
    (hwithdrawn : s.logbook.HasWithdrawn) : s.IsBare where
  connections := by
    rw [connections, h.adapter, Scan.Adapter.connections, Scan.Adapter.connections,
      hnothing.attempts, hnothing.links]
    rfl
  hears := (h.hears_eq hs).trans hnothing.scan
  presence := hs.shows.converges.presence_eq_idle_iff.mpr ⟨hnothing.logbook, hwithdrawn⟩

/-- An attempt that is left may get through. -/
theorem eq_nil_of_turns {a : Scan.Adapter} (h : ∀ link, (a.turns link true).connections = 0) :
    a.attempts = [] ∧ a.links = [] := by
  have hnone : ∀ link, (a.turns link true).attempts.countP Scan.Attempt.connected = 0 ∧
      a.links.length = 0 := fun link => Nat.add_eq_zero_iff.mp (h link)
  refine ⟨?_, List.length_eq_zero_iff.mp (hnone 0).2⟩
  rcases hattempts : a.attempts with _ | ⟨attempt, rest⟩
  · rfl
  · obtain ⟨hcount, -⟩ := hnone attempt.link
    rw [Scan.Adapter.turns, hattempts, List.map_cons, if_pos rfl] at hcount
    simp at hcount

/-- If the radio is bare and stays so, nothing lingers, and everything was withdrawn. -/
theorem IsClosed.of_isBare (h : s.IsClosed) (hs : s.IsFaithful)
    (hbare : ∀ later, (s.run later).IsBare) : s.NothingLingers ∧ s.logbook.HasWithdrawn := by
  obtain ⟨-, hhears, hpresence⟩ := hbare []
  obtain ⟨hlogbook, hwithdrawn⟩ := hs.shows.converges.presence_eq_idle_iff.mp hpresence
  obtain ⟨hattempts, hlinks⟩ := eq_nil_of_turns (a := s.left) fun link =>
    (Nat.add_eq_zero_iff.mp (hbare [.turns link true]).connections).2
  exact ⟨⟨hattempts, hlinks, (h.hears_eq hs).symm.trans hhears, hlogbook⟩, hwithdrawn⟩

/-- **What is left on the radio of an engine that was shut down.** -/
theorem IsClosed.forall_isBare_iff (h : s.IsClosed) (hs : s.IsFaithful) :
    (∀ later, (s.run later).IsBare) ↔ s.NothingLingers ∧ s.logbook.HasWithdrawn := by
  refine ⟨h.of_isBare hs, ?_⟩
  rintro ⟨hnothing, hwithdrawn⟩ later
  obtain ⟨hclosed, hlogbook, hstill⟩ := h.run later
  exact hclosed.isBare (hs.run later) (hstill hnothing) (hlogbook ▸ hwithdrawn)

/-- What was begun by an engine in use is a shutdown. -/
theorem isDown_of_shutdown (config : Config) (before during : List Happening)
    (henabled : ((initial config).run before).engine.isEnabled = true)
    (hfree : ((initial config).run before).isFree = true) :
    let s := (initial config).run before
    let t := s.run (.requests .shutdown :: during)
    s.IsFaithful ∧ t.IsFaithful ∧ t.IsDown s.engine.WillWithdraw s.calls := by
  intro s t
  have hs : s.IsFaithful := (isFaithful_initial config).run before
  have hworking : s.IsWorking := isWorking_run (fun _ => isWorking_initial config) before henabled
  exact ⟨hs, hs.run _, isDown_run (hs.after _) (hworking.shutdown hs.orderly hfree) during⟩

/-- **What a shutdown leaves**, while the radio does as it is told and closes links in time. Before it,
the radio may have failed in any way, and calls may have been dropped while they waited. The shutdown
ends; from then on, whatever happens, the radio is never called and no event delivered, and every
request succeeds at once and does nothing.

The radio holds no connection, does not scan, serves nothing and broadcasts nothing from then on
exactly if nothing lingers of what earlier calls have failed to close, to stop or to withdraw, and
the publisher's driver has withdrawn everything. The first is so if nothing lingers when the shutdown
begins, as where the radio has always done as it was told. The second is so if something is published
then, or if all changes are applied, as where nobody has dropped a call that changes what is
published. Otherwise the driver may be stopped with services still to be withdrawn. -/
theorem shutdown_leaves_nothing_iff (config : Config) (before : List Happening)
    {during : List Happening} (hok : ∀ x ∈ during, x.Succeeds) :
    let s := (initial config).run before
    s.engine.isEnabled = true → s.isFree = true →
      let t := s.run (.requests .shutdown :: during)
      (∃ rest : List Happening, (∀ x ∈ rest, x.IsSpontaneous) ∧ (t.run rest).isFree = true) ∧
      ((∀ x ∈ before, x.Succeeds) → s.NothingLingers) ∧
      ((∀ g, .drops (.generation g) ∉ before) → s.engine.WillWithdraw) ∧
      (t.isFree = true →
        (∀ later : List Happening,
          let u := t.run later
          u.engine.disabled = some Engine.shutDownReason ∧
          (∀ request, u.engine.submit request = (u.engine, .finished (.ok ()), [])) ∧
          (∀ x, u.effects x = []) ∧
          u.engine.cachedAdvertisements = []) ∧
        ((∀ later, (t.run later).IsBare) ↔ t.NothingLingers ∧ t.logbook.HasWithdrawn) ∧
        (s.NothingLingers → t.NothingLingers) ∧
        (s.engine.WillWithdraw → t.logbook.HasWithdrawn)) := by
  intro s henabled hfree t
  obtain ⟨hs, ht, hdown⟩ := isDown_of_shutdown config before during henabled hfree
  refine ⟨?_, fun hbefore => ?_, fun hkept => ?_, fun hreturned =>
    ⟨fun later => ?_, ?_, fun hnothing => ?_, ?_⟩⟩
  · obtain ⟨rest, hrest, hcalls⟩ := hdown.exists_ended ht
    refine ⟨rest, hrest, (isFree_iff _).mpr ?_⟩
    rw [hcalls]
    exact s.isFree_iff.mp hfree
  · exact (nothingLingers_initial config).run (isFaithful_initial config) hbefore
  · exact .inr (isSettled_of_free config hkept henabled hfree)
  · obtain ⟨hclosed, -, -⟩ := (hdown.isClosed ht hreturned).run later
    refine ⟨hclosed.disabled, hclosed.submit, fun x => (hclosed.changes x).2, ?_⟩
    rw [Engine.cachedAdvertisements, hclosed.isEnabled]
    rfl
  · exact (hdown.isClosed ht hreturned).forall_isBare_iff ht
  · have hsuccess : ∀ x ∈ Happening.requests .shutdown :: during, x.Succeeds :=
      List.forall_mem_cons.mpr ⟨trivial, hok⟩
    exact hnothing.run hs hsuccess
  · exact hdown.hasWithdrawn ht hreturned

/-- Something is published by a call that is dropped, somebody subscribes, and the pipeline reads from
a peer while it hears of another one. -/
def inUse : List Happening :=
  [.requests (.publish (.ofNat 1) (.new ⟨.ofNat 7⟩ "lamp") [⟨1⟩]), .drops (.generation 1),
    .publishes .takeDesired, .publishes (.answered (.ok ())), .publishes (.answered (.ok ())),
    .requests (.startScan "" ⟨"list"⟩), .goes .sync, .scans ⟨1⟩ .takeCommand,
    .scans ⟨2⟩ (.scanAnswered (.ok ())), .goes (.command 0),
    .scans ⟨3⟩ (.hear ⟨⟨"aa"⟩, Stamp.payload ⟨7⟩⟩), .scans ⟨4⟩ .takeSighting,
    .scans ⟨5⟩ (.scanAnswered (.ok ())), .scans ⟨6⟩ (.fetchBegins 0),
    .scans ⟨7⟩ (.fetchAnswered 0 (.done (.ok ()))),
    .scans ⟨8⟩ (.fetchAnswered 0 (.services (.ok [⟨.ofNat 2, [⟨.ofNat 3, true⟩]⟩]))),
    .scans ⟨9⟩ (.hear ⟨⟨"bb"⟩, Stamp.payload ⟨8⟩⟩)]

/-- The link to the peer is closed, and the service is withdrawn. -/
def teardown : List Happening :=
  [.scans ⟨10⟩ .takeCommand, .scans ⟨11⟩ .takeCommand, .scans ⟨12⟩ .takeCommand,
    .scans ⟨13⟩ (.closed (.answered (.ok ()))), .goes (.haltOfScan 1), .publishes .takeDesired,
    .publishes (.answered (.ok ())), .publishes (.answered (.ok ())), .goes (.withdrawal 2)]

theorem isBare_after_teardown :
    let s := (initial .default).run inUse
    let t := s.run (.requests .shutdown :: teardown)
    (s.connections = 1 ∧ s.presence ≠ .idle) ∧ ∀ later, (t.run later).IsBare := by
  intro s t
  have hbefore : ∀ x ∈ inUse, x.Succeeds := by
    simp [inUse, Happening.Succeeds]
  have hduring : ∀ x ∈ teardown, x.Succeeds := by
    simp [teardown, Happening.Succeeds]
  have hpublished : s.engine.WillWithdraw := .inl (by decide +kernel)
  have hreturned : t.isFree = true := by decide +kernel
  obtain ⟨-, hnothing, -, hends⟩ := shutdown_leaves_nothing_iff .default inUse hduring (by decide +kernel)
    (by decide +kernel)
  obtain ⟨-, hbare, hstill, hwithdrawn⟩ := hends hreturned
  refine ⟨⟨?_, ?_⟩, hbare.mpr ⟨hstill (hnothing hbefore), hwithdrawn hpublished⟩⟩
  · decide +kernel
  · decide +kernel

/-- A service is published. A call to withdraw it begins, and is dropped. -/
def forsaken : List Happening :=
  [.requests (.publish (.ofNat 1) (.new ⟨.ofNat 7⟩ "lamp") [⟨1⟩]), .publishes .takeDesired,
    .publishes (.answered (.ok ())), .publishes (.answered (.ok ())), .goes (.generation 1),
    .requests (.unpublish (.ofNat 1) []), .drops (.generation 2)]

/-- Somebody subscribes and leaves again, and the radio fails to stop scanning. -/
def unheeded : List Happening :=
  [.requests (.startScan "" ⟨"list"⟩), .goes .sync, .scans ⟨1⟩ .takeCommand,
    .scans ⟨2⟩ (.scanAnswered (.ok ())), .goes (.command 0), .requests (.stopScan ⟨"list"⟩),
    .goes .sync, .scans ⟨3⟩ .takeCommand, .scans ⟨4⟩ (.scanAnswered (.error (.scan "busy"))),
    .goes (.command 1)]

/-- The pipeline has nothing to stop, and the shutdown returns. -/
def briefTeardown (ticket : Ticket) : List Happening :=
  [.scans ⟨9⟩ .takeCommand, .goes (.haltOfScan ticket)]

/-- A shutdown may leave a service on the air although the radio has always done as it was told. And
where the radio once failed to stop scanning, the shutdown has it scan on. -/
theorem not_always_bare :
    ((∀ x ∈ forsaken ++ briefTeardown 0, x.Succeeds) ∧
      let s := (initial .default).run forsaken
      let t := s.run (.requests .shutdown :: briefTeardown 0)
      s.engine.isEnabled = true ∧ s.isFree = true ∧ t.isFree = true ∧
        t.presence.services.contains (.ofNat 1) = true ∧
        t.presence.broadcast = some (defaultManufacturerId, Stamp.payload ⟨1⟩)) ∧
      (∀ x ∈ briefTeardown 2, x.Succeeds) ∧
        let s := (initial .default).run unheeded
        let t := s.run (.requests .shutdown :: briefTeardown 2)
        s.engine.isEnabled = true ∧ s.isFree = true ∧ t.isFree = true ∧ t.hears = true := by
  refine ⟨⟨?_, ?_⟩, ?_, ?_⟩
  · simp [forsaken, briefTeardown, Happening.Succeeds]
  · decide +kernel
  · simp [briefTeardown, Happening.Succeeds]
  · decide +kernel

end Session

end Nearby
