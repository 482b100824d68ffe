import Nearby.Proofs.Cache.Events
import Nearby.Proofs.Engine.Session
import Nearby.Proofs.Scan.Telling

/-!
# The pipeline is active while someone is subscribed

A call to start or stop scanning changes the subscriptions first and tells the pipeline afterwards,
and by the time the pipeline looks, other calls may have changed them again. No change is lost all the
same: whoever changes the subscriptions tells the pipeline later on, and the pipeline goes by what
the subscriptions are when it looks. So either somebody is still to tell it, or the mailbox holds a
command to look, or the pipeline is up to date (`Session.IsHeeded`).
-/

namespace Nearby

namespace Scan.Pipeline

variable {config : Config} {p : Pipeline}

/-- **The pipeline leaves the subscriptions alone.** -/
theorem subscriptions_move (hp : p.Coherent) (config : Config) (now : Timestamp) (cache : Cache)
    (move : Move) : (p.move config now cache move).cache.subscriptions = cache.subscriptions := by
  rcases htells : p.tells? move with _ | ⟨pending, outcome⟩
  · obtain h | ⟨stamp, peer, -, h⟩ := leaves_move_of_silent hp htells config now cache
    · rw [h.cache]
    · rw [h.cache, Cache.subscriptions_haveSeen]
  · rw [(leaves_move_of_tells htells config now cache).cache]
    cases outcome with
    | ok readings => exact Cache.subscriptions_fetched ..
    | error e => rfl

/-- The pipeline is active if, and only if, someone is subscribed, or it is to look whether anyone
is. -/
def IsUpToDate (p : Pipeline) (cache : Cache) : Prop :=
  (∃ ticket, .sync ticket ∈ p.commands) ∨ p.active = !cache.subscriptions.isEmpty

/-- A command stays in the mailbox until it is taken. -/
theorem mem_commands_move (hp : p.Coherent) (now : Timestamp) (cache : Cache) (move : Move)
    {command : Command} (hmem : command ∈ p.commands) :
    command ∈ (p.move config now cache move).pipeline.commands ∨ p.takes? move = some command := by
  by_cases hmove : move = .takeCommand
  · subst hmove
    rcases htaken : p.taken? with _ | taken
    · rw [move_takeCommand_of_none htaken]
      exact .inl hmem
    · rw [(of_taken htaken).2] at hmem
      rcases List.mem_cons.mp hmem with rfl | hmem
      · exact .inr htaken
      · refine .inl ?_
        rw [move_takeCommand htaken,
          (serves_onCommand { p with commands := p.commands.tail } now taken).commands]
        exact hmem
  · refine .inl ?_
    have hmoves := hp.moves config now cache move
    generalize p.move config now cache move = s at hmoves
    cases hmoves with
    | rests | heard => exact hmem
    | sent other => exact List.mem_append_left _ hmem
    | dealt => exact absurd rfl hmove
    | sighted s closing step => exact step.commands ▸ hmem
    | scanned result s closing step => exact step.commands ▸ hmem
    | closed result s closing step => exact step.commands ▸ hmem
    | begun | answered | expired =>
      rw [pipeline_applyTurn]
      exact List.mem_append_left _ hmem

/-- **The pipeline stays up to date**, unless it is told to stop for good. -/
theorem IsUpToDate.move {cache : Cache} (h : p.IsUpToDate cache) (hp : p.Coherent)
    (hd : p.driver.Consistent config) (hordinary : p.IsOrdinary)
    (hstays : ∀ ticket, .shutdown ticket ∉ p.commands) (now : Timestamp) (move : Move) :
    (p.move config now cache move).pipeline.IsUpToDate (p.move config now cache move).cache := by
  have hactive := (fits_move hd hordinary now cache move).active
  have hkeeps : p.activeNext cache move = p.active →
      (p.move config now cache move).pipeline.active = p.active := hactive.trans
  rw [IsUpToDate, subscriptions_move hp]
  rcases htakes : p.takes? move with _ | command
  · have hsame : p.activeNext cache move = p.active := by
      cases move with
      | takeCommand =>
        rw [activeNext, show p.taken? = none from htakes]
        rfl
      | send | hear | takeSighting | scanAnswered | closed | fetchBegins | fetchAnswered
      | fetchExpires => rfl
    rw [hkeeps hsame]
    -- the command on its way is still on its way, as it was not the one taken
    refine h.imp_left ?_
    rintro ⟨ticket, hmem⟩
    refine ⟨ticket, (mem_commands_move hp now cache move hmem).resolve_right ?_⟩
    simp [htakes]
  obtain rfl : move = .takeCommand := by
    cases move with
    | takeCommand => rfl
    | send | hear | takeSighting | scanAnswered | closed | fetchBegins | fetchAnswered
    | fetchExpires => cases htakes
  have hafter : p.activeNext cache .takeCommand = p.activeAfter cache command := by
    rw [activeNext, show p.taken? = some command from htakes]
    rfl
  rw [hafter] at hactive hkeeps
  cases command with
  | sync ticket => exact .inr hactive
  | shutdown ticket => exact absurd (mem_commands_of_taken htakes) (hstays ticket)
  | report id epoch said =>
    rw [hkeeps rfl]
    refine h.imp_left ?_
    rintro ⟨ticket, hmem⟩
    refine ⟨ticket, (mem_commands_move hp now cache .takeCommand hmem).resolve_right ?_⟩
    simp [htakes]

end Scan.Pipeline

open Engine (Errand)
open Scan (Halt Ticket)

/-- True for what a call to start or stop scanning has to do. A call that was dropped has not
returned. -/
def Engine.Errand.isScan : Errand → Bool
  | .sync => true
  | .command _ => true
  | .dropped errand => errand.isScan
  | _ => false

namespace Session

variable {s t : Session} {x : Happening}

/-- Somebody is still to tell the pipeline that the subscriptions have changed, or it is up to
date. -/
def IsHeeded (s : Session) : Prop :=
  .sync ∈ s.calls ∨ s.engine.pipeline.IsUpToDate s.engine.cache

/-- Before the engine is shut down, the pipeline is not told to stop for good. -/
theorem IsOrderly.shutdown_notMem (hs : s.IsOrderly) (henabled : s.engine.isEnabled = true)
    (ticket : Ticket) : .shutdown ticket ∉ s.engine.pipeline.commands := by
  intro hmem
  have hhalt : Halt.shutdown ticket ∈ s.engine.pipeline.owed :=
    List.mem_append_right _ (List.mem_filterMap.mpr ⟨_, hmem, rfl⟩)
  rw [← Halt.mem_filterMap_shutdown?, (hs.accounts.running henabled).1] at hhalt
  cases hhalt

/-- **What the subscriptions ask for is heeded or on its way**, whatever happens. -/
theorem Moves.isHeeded (h : s.Moves x t) (hs : s.IsOrderly) (henabled : t.engine.isEnabled = true)
    (hheeded : s.IsHeeded) : t.IsHeeded := by
  -- a step of some other call does not take the request to sync away
  have herase : ∀ {errand : Errand}, errand ≠ .sync → .sync ∈ s.calls →
      .sync ∈ s.calls.erase errand := fun hne hmem => (List.mem_erase_of_ne hne.symm).mpr hmem
  cases h with
  | rests => exact hheeded
  | renames disabled => cases henabled
  | subscribes request subscriptions enabled =>
    exact .inl (List.mem_append_right _ List.mem_cons_self)
  | changes request edition quiet enabled => exact hheeded.imp_left (List.mem_append_left _)
  | halts enabled free => cases henabled
  | sends mem =>
    exact .inr (.inl ⟨_, List.mem_append_right _ List.mem_cons_self⟩)
  | returns errand mem isOver kind =>
    refine hheeded.imp_left (herase ?_)
    rintro rfl
    exact isOver
  | withdraws ticket mem done =>
    exact hheeded.imp_left fun hmem => List.mem_append_left _ (herase nofun hmem)
  | drops errand mem droppable =>
    refine hheeded.imp_left fun hmem => List.mem_append_left _ (herase ?_ hmem)
    rintro rfl
    cases droppable
  | concludes errand mem isOver kind =>
    refine hheeded.imp_left (herase ?_)
    rintro rfl
    exact isOver
  | scans now move genuine =>
    -- in an engine in use no shutdown is on its way, so commands lead up to the subscriptions
    have hstays := hs.shutdown_notMem (by simpa using henabled)
    refine hheeded.imp_right fun hup => ?_
    simpa using hup.move hs.coherent hs.consistent hs.system.ordinary hstays now move
  | publishes move publishing => exact hheeded
  | sweeps now sweeping =>
    refine hheeded.imp_right fun hup => ?_
    rw [Scan.Pipeline.IsUpToDate] at hup ⊢
    rwa [show (s.engine.cache.sweep now).cache.subscriptions = s.engine.cache.subscriptions from
      Cache.subscriptions_evict s.engine.cache _]
  | turns link connected => exact hheeded
  | loses link => exact hheeded

theorem isHeeded_run (hs : s.IsOrderly) (hheeded : s.engine.isEnabled = true → s.IsHeeded)
    (happenings : List Happening) (henabled : (s.run happenings).engine.isEnabled = true) :
    (s.run happenings).IsHeeded := by
  induction happenings generalizing s with
  | nil => exact hheeded henabled
  | cons x rest ih =>
    refine ih (hs.after x) (fun hafter => ?_) henabled
    have hmoves := s.moves x
    exact hmoves.isHeeded hs hafter (hheeded (hmoves.isEnabled hafter))

/-- **The pipeline is active just as someone is subscribed, once every call to start or stop scanning
has returned.** Any number of calls may have been under way at a time, and their steps may have come
in any order with each other, with the moves of the pipeline, and with all else that happens,
however the radio answered. A call that is refused, because its handler is subscribed already, or
that finds no subscription to end, changes nothing. -/
theorem active_iff_subscribed (config : Config) (happenings : List Happening) :
    let s := (initial config).run happenings
    s.engine.isEnabled = true →
      ((∀ errand ∈ s.calls, errand.isScan = false) →
        (s.engine.pipeline.active = true ↔ s.engine.cache.subscriptions ≠ [])) ∧
      ∀ handler,
        (s.engine.cache.isSubscribed handler = true → ∀ wanted,
          s.engine.submit (.startScan wanted handler) =
              (s.engine, .finished (.error .duplicateSubscription), []) ∧
            s.after (.requests (.startScan wanted handler)) = s) ∧
        (s.engine.cache.isSubscribed handler = false →
          s.engine.submit (.stopScan handler) = (s.engine, .finished (.ok ()), []) ∧
            s.after (.requests (.stopScan handler)) = s) := by
  intro s henabled
  have hs : s.IsOrderly := (isOrderly_initial config).run happenings
  refine ⟨fun hreturned => ?_, fun handler => ⟨fun hsubscribed wanted => ⟨?_, ?_⟩,
    fun hsubscribed => ⟨?_, ?_⟩⟩⟩
  · have hheeded : s.IsHeeded :=
      isHeeded_run (isOrderly_initial config) (fun _ => .inr (.inr rfl)) happenings henabled
    rcases hheeded with hsync | ⟨ticket, hmem⟩ | hactive
    · cases hreturned _ hsync
    · -- a command in the mailbox is waited for
      have howed : Halt.sync ticket ∈ s.engine.pipeline.owed :=
        List.mem_append_right _ (List.mem_filterMap.mpr ⟨_, hmem, rfl⟩)
      rcases hs.accounts.awaited ticket howed with hwaits | hdropped
      · cases hreturned _ hwaits
      · cases hreturned _ hdropped
    · rw [hactive]
      simp
  · exact Engine.submit_startScan henabled hsubscribed wanted
  · have hbegin := Engine.begin_of_finished (Engine.submit_startScan henabled hsubscribed wanted)
    simp [after, isBarred, hbegin]
  · exact Engine.submit_stopScan henabled hsubscribed
  · have hbegin := Engine.begin_of_finished (Engine.submit_stopScan henabled hsubscribed)
    simp [after, isBarred, hbegin]

/-- Two handlers subscribe and one of them leaves again, before the pipeline is told anything. The
other one leaves while the pipeline waits for the radio, and a third comes. -/
def comings : List Happening :=
  [.requests (.startScan "lamp" ⟨"a"⟩), .requests (.startScan "" ⟨"b"⟩),
    .requests (.stopScan ⟨"a"⟩), .goes .sync, .scans ⟨1⟩ .takeCommand, .requests (.stopScan ⟨"b"⟩),
    .goes .sync, .goes .sync, .scans ⟨2⟩ (.scanAnswered (.ok ())), .goes (.command 0),
    .scans ⟨3⟩ .takeCommand, .requests (.startScan "lamp" ⟨"c"⟩), .goes .sync,
    .scans ⟨4⟩ (.scanAnswered (.ok ())), .goes (.command 1), .scans ⟨5⟩ .takeCommand, .goes .sync,
    .scans ⟨6⟩ (.scanAnswered (.ok ())), .scans ⟨7⟩ .takeCommand, .scans ⟨8⟩ .takeCommand,
    .goes (.command 2), .goes (.command 3), .goes (.command 4)]

theorem active_comings :
    ((initial .default).run comings).engine.cache.subscriptions = [⟨"lamp", ⟨"c"⟩⟩] ∧
      ((initial .default).run comings).engine.pipeline.active = true := by
  have hsubscriptions :
      ((initial .default).run comings).engine.cache.subscriptions = [⟨"lamp", ⟨"c"⟩⟩] := by
    decide +kernel
  have hcalls : ((initial .default).run comings).calls = [] := by decide +kernel
  obtain ⟨hactive, -⟩ := active_iff_subscribed .default comings (by decide +kernel)
  refine ⟨hsubscriptions, (hactive ?_).mpr ?_⟩
  · rw [hcalls]
    exact List.forall_mem_nil _
  · rw [hsubscriptions]
    exact List.cons_ne_nil _ _

end Session

end Nearby
