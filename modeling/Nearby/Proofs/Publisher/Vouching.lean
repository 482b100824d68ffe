import Nearby.Proofs.Publisher.Convergence
import Nearby.Proofs.Publisher.Handover
import Mathlib.Data.List.Induction

/-!
# What a broadcast stamp vouches for

A peer that hears a stamp may connect at any time, and files what it reads under that stamp. So the
stamp has to go with the services that are served whenever it is on the air: not only once a state is
applied, but also between any two calls that are made on the way.

As long as no call fails, it does. A plan stops the broadcast before it touches a service, and starts
it again when nothing else is left to do (`Logbook.Vouches`). So a radio that broadcasts always shows
some edition as a whole, whichever editions the driver has skipped.
-/

namespace Nearby

/-! ## Without failures -/

/-- What is always withdrawn with success does not linger. -/
theorem lingers_of_isOk {ended : List Publisher.Ended} (h : ∀ e ∈ ended, e.isOk = true)
    (service : Uuid) : lingers ended service = false := by
  induction ended using List.reverseRecOn with
  | nil => rfl
  | append_singleton ended e ih =>
    obtain ⟨hended, he⟩ := List.forall_mem_append.mp h
    rw [lingers_concat, ih hended]
    exact lingersAfter_of_isOk (he e List.mem_cons_self) service

theorem broadcastLingers_of_isOk {ended : List Publisher.Ended} (h : ∀ e ∈ ended, e.isOk = true) :
    broadcastLingers ended = false := by
  induction ended using List.reverseRecOn with
  | nil => rfl
  | append_singleton ended e ih =>
    obtain ⟨hended, he⟩ := List.forall_mem_append.mp h
    rw [broadcastLingers_concat, ih hended]
    exact broadcastLingersAfter_of_isOk (he e List.mem_cons_self)

namespace Task

/-- The broadcast stops before anything else is done. -/
theorem Ordered.eq_stop {task : Task} {rest : List Task} (h : Ordered (task :: rest))
    (hstop : .stopBroadcast ∈ task :: rest) : task = .stopBroadcast := by
  rcases List.mem_cons.mp hstop with hstop | hstop
  · exact hstop.symm
  · have hstage := h.stage_le hstop
    cases task with
    | stopBroadcast => rfl
    | unregister service => cases hstage
    | register service characteristics => cases hstage
    | startBroadcast stamp => cases hstage

/-- Nothing comes after the start of the broadcast. -/
theorem Ordered.eq_nil_of_start {stamp : Stamp} {rest : List Task}
    (h : Ordered (.startBroadcast stamp :: rest))
    (hone : ∀ other, .startBroadcast other ∈ rest → other = stamp) : rest = [] := by
  cases rest with
  | nil => rfl
  | cons task rest =>
    have hstage := h.stage_le List.mem_cons_self
    cases task with
    | stopBroadcast => exact absurd hstage (by decide : ¬3 ≤ 0)
    | unregister service => exact absurd hstage (by decide : ¬3 ≤ 1)
    | register service characteristics => exact absurd hstage (by decide : ¬3 ≤ 2)
    | startBroadcast other =>
      obtain rfl := hone other List.mem_cons_self
      exact absurd List.mem_cons_self h.notMem

end Task

namespace Publisher

namespace Logbook

variable {l : Logbook} {manufacturerId : UInt16}

/-- **A radio whose driver has nothing left to do shows the state that was applied last**, if no call
has ever failed. -/
theorem Converges.eq_showing (h : l.Converges manufacturerId) (hok : ∀ e ∈ l.ended, e.isOk = true)
    (hleft : l.left = []) {a : Application} (ha : l.applications.getLast? = some a) :
    l.presence manufacturerId = .showing manufacturerId a.desired := by
  have hmem : a ∈ l.applications := List.mem_of_getLast? ha
  have hended : ∀ e ∈ a.ended, e.isOk = true := fun e he =>
    hok e (List.mem_flatMap.mpr ⟨a, hmem, he⟩)
  have hattains := h.attains a ha hended
  have hknows := h.knows
  rw [hleft] at hattains hknows
  have hservices := (hattains.services_eq_iff hknows).mpr (lingers_of_isOk hok)
  have hbroadcast := (hattains.broadcast_eq_iff hknows).mpr fun _ => broadcastLingers_of_isOk hok
  generalize l.presence manufacturerId = p at hservices hbroadcast
  obtain ⟨services, broadcast⟩ := p
  obtain rfl : services = _ := hservices
  obtain rfl : broadcast = _ := hbroadcast
  rfl

/-! ## The invariant -/

/-- **The invariant of the broadcast**, as long as no call fails: it goes with what is served, and
it is the first thing to go when there is something to do. -/
structure Vouches (l : Logbook) (manufacturerId : UInt16) : Prop where
  converges : l.Converges manufacturerId
  ok : ∀ e ∈ l.ended, e.isOk = true
  silent : (l.presence manufacturerId).broadcast ≠ none → l.left ≠ [] → .stopBroadcast ∈ l.left
  shows : (l.presence manufacturerId).broadcast ≠ none →
    ∃ d ∈ l.taken, l.presence manufacturerId = .showing manufacturerId d

theorem vouches_initial (manufacturerId : UInt16) : initial.Vouches manufacturerId where
  converges := converges_initial manufacturerId
  ok := List.forall_mem_nil _
  silent h := absurd rfl h
  shows h := absurd rfl h

/-- What callers change does not concern the radio. -/
theorem Vouches.handOver (h : l.Vouches manufacturerId) (e : Edition) :
    Vouches { l with publisher := l.publisher.handOver e } manufacturerId where
  converges := ⟨h.converges.logbook.change rfl rfl, h.converges.ordered, h.converges.knows,
    h.converges.attains⟩
  ok := h.ok
  silent := h.silent
  shows := h.shows

/-- A state is taken up. -/
theorem Vouches.take (h : l.Vouches manufacturerId) (hidle : l.present = none) (unseen : Bool) :
    let b := l.publisher.belief
    let d := l.publisher.desired
    Vouches (l.proceed { l.publisher with unseen, belief := b.depart d } ⟨d, b.plan d, []⟩
      (b.plan d)) manufacturerId := by
  intro b d
  have hknows := h.converges.knows.broadcast
  rw [h.converges.logbook.left_eq_nil hidle] at hknows
  refine ⟨h.converges.take hidle unseen, ?_, ?_, ?_⟩
  · rw [ended_proceed_of_idle hidle]
    exact h.ok
  · rw [presence, ended_proceed_of_idle hidle, left_proceed, Belief.stop_mem_plan]
    intro hbroadcast _
    rw [← hknows.known List.not_mem_nil (broadcastLingers_of_isOk h.ok)]
    exact Option.isSome_iff_ne_none.mpr hbroadcast
  · rw [presence, ended_proceed_of_idle hidle, taken_proceed]
    intro hbroadcast
    obtain ⟨shown, hmem, hshown⟩ := h.shows hbroadcast
    rw [taken, applications_of_idle hidle] at hmem
    exact ⟨shown, List.mem_append_left _ hmem, hshown⟩

/-- Nothing is broadcast while services change. -/
theorem Vouches.broadcast_eq_none (h : l.Vouches manufacturerId) {task : Task} {rest : List Task}
    (hleft : l.left = task :: rest) (htask : task ≠ .stopBroadcast) :
    (l.presence manufacturerId).broadcast = none := by
  have hordered := h.converges.ordered
  have hsilent := h.silent
  rw [hleft] at hordered hsilent
  by_contra hbroadcast
  exact htask (hordered.eq_stop (hsilent hbroadcast (List.cons_ne_nil _ _)))

section Answer

variable {a : Application} {task : Task} {rest : List Task} {p : Publisher}

theorem Vouches.ok_proceed (h : l.Vouches manufacturerId) (hbusy : l.present = some a) :
    ∀ e ∈ (l.proceed p { a with ended := a.ended ++ [⟨task, .ok ()⟩] } rest).ended,
      e.isOk = true := by
  rw [ended_proceed_of_busy hbusy]
  exact List.forall_mem_append.mpr ⟨h.ok, List.forall_mem_singleton.mpr rfl⟩

/-- A task ends well, and the radio is silent. -/
theorem Vouches.quiet (h : l.Vouches manufacturerId) (hbusy : l.present = some a)
    (hconverges : (l.proceed p { a with ended := a.ended ++ [⟨task, .ok ()⟩] } rest).Converges
      manufacturerId)
    (hnone : ((l.presence manufacturerId).called (task.call manufacturerId)).broadcast = none) :
    (l.proceed p { a with ended := a.ended ++ [⟨task, .ok ()⟩] } rest).Vouches manufacturerId := by
  have hsilent : ((l.proceed p { a with ended := a.ended ++ [⟨task, .ok ()⟩] } rest).presence
      manufacturerId).broadcast = none := by
    rw [presence_proceed_of_busy hbusy]
    exact hnone
  exact ⟨hconverges, h.ok_proceed hbusy, fun hbroadcast => absurd hsilent hbroadcast,
    fun hbroadcast => absurd hsilent hbroadcast⟩

/-- The broadcast has started: that was the last task, and the radio shows the state. -/
theorem Vouches.start (h : l.Vouches manufacturerId) {stamp : Stamp} (hbusy : l.present = some a)
    (hleft : l.left = .startBroadcast stamp :: rest)
    (hconverges : (l.proceed p { a with ended := a.ended ++ [⟨.startBroadcast stamp, .ok ()⟩] }
      rest).Converges manufacturerId) :
    (l.proceed p { a with ended := a.ended ++ [⟨.startBroadcast stamp, .ok ()⟩] } rest).Vouches
      manufacturerId := by
  have hlast : l.applications.getLast? = some a := by
    rw [applications_of_busy hbusy, List.getLast?_concat]
  have hended : ∀ e ∈ a.ended, e.isOk = true := fun e he =>
    h.ok e (List.mem_flatMap.mpr ⟨a, List.mem_of_getLast? hlast, he⟩)
  have hstarts := (h.converges.attains a hlast hended).starts
  have hordered := h.converges.ordered
  rw [hleft] at hstarts hordered
  -- the one stamp to broadcast is that of the state
  have hrest : rest = [] := by
    refine hordered.eq_nil_of_start fun other hother => ?_
    have hstamp := (hstarts other (.tail _ hother)).symm.trans (hstarts stamp List.mem_cons_self)
    exact Option.some.inj hstamp
  subst hrest
  refine ⟨hconverges, h.ok_proceed hbusy, fun _ hsome => absurd (left_proceed ..) hsome,
    fun _ => ⟨a.desired, ?_, ?_⟩⟩
  · rw [taken_proceed]
    exact List.mem_append_right _ List.mem_cons_self
  · let ended : Application := { a with ended := a.ended ++ [⟨.startBroadcast stamp, .ok ()⟩] }
    refine hconverges.eq_showing (a := ended) (h.ok_proceed hbusy) (left_proceed ..) ?_
    rw [applications_proceed, List.getLast?_concat]

end Answer

/-- A task ends well. -/
theorem Vouches.answer (h : l.Vouches manufacturerId) {a : Application} {task : Task}
    {rest : List Task} (hbusy : l.present = some a)
    (happlying : l.publisher.applying = some ⟨a.desired, task :: rest⟩)
    (hplan : a.plan = a.ended.map (·.task) ++ task :: rest) :
    (l.proceed { l.publisher with belief := l.publisher.belief.settle task (.ok ()) }
      { a with ended := a.ended ++ [⟨task, .ok ()⟩] } rest).Vouches manufacturerId := by
  have hconverges := h.converges.answer hbusy happlying hplan (.ok ())
  have hleft : l.left = task :: rest := left_of_applying happlying
  cases task with
  | stopBroadcast => exact h.quiet hbusy hconverges rfl
  | unregister service => exact h.quiet hbusy hconverges (h.broadcast_eq_none hleft nofun)
  | register service characteristics =>
    exact h.quiet hbusy hconverges (h.broadcast_eq_none hleft nofun)
  | startBroadcast stamp => exact h.start hbusy hleft hconverges

/-- **Every move keeps the invariant**, unless it is the failure of a call. -/
theorem Vouches.move (h : l.Vouches manufacturerId) (move : Move)
    (hmove : ∀ e, move ≠ .answered (.error e)) :
    (l.move manufacturerId move).Vouches manufacturerId := by
  have hmoves := h.converges.logbook.moves manufacturerId move
  generalize l.move manufacturerId move = m at hmoves
  cases hmoves with
  | rests => exact h
  | takes idle unseen => exact h.take idle false
  | answers a task rest result present applying plan =>
    cases result with
    | ok _ => exact h.answer present applying plan
    | error e => exact absurd rfl (hmove e)

/-- A driver with nothing to do has brought the radio in line with what was handed over last. -/
theorem Vouches.eq_showing (h : l.Vouches manufacturerId) {editions : List Edition}
    (hfollows : l.Follows editions) (hidle : l.present = none)
    (hseen : l.publisher.unseen = false) :
    l.presence manufacturerId = .showing manufacturerId l.publisher.desired := by
  have hseen := hfollows.seen hseen
  rw [taken, List.getLast?_map] at hseen
  rcases hlast : l.applications.getLast? with _ | a
  · -- nothing was ever applied, and nothing published
    rw [hlast] at hseen
    rw [presence, ended, List.getLast?_eq_none_iff.mp hlast, ← hseen]
    rfl
  · rw [hlast] at hseen
    rw [h.converges.eq_showing h.ok (hfollows.logbook.left_eq_nil hidle) hlast]
    exact congrArg (Presence.showing manufacturerId) hseen

end Logbook

/-! ## Callers, driver and radio -/

namespace Handover

/-- True for all that may happen but the failure of a call. -/
def Happening.Succeeds : Happening → Prop
  | .answers (.error _) => False
  | _ => True

variable {h : Handover} {manufacturerId : UInt16}

theorem vouches_after (hv : h.logbook.Vouches manufacturerId) {happening : Happening}
    (hok : happening.Succeeds) : (h.after manufacturerId happening).logbook.Vouches manufacturerId := by
  cases happening with
  | requests request =>
    rw [Handover.after]
    split
    · exact hv
    · rename_i publisher hchange
      obtain ⟨e, rfl⟩ := eq_of_change? hchange
      exact hv.handOver e
  | takes =>
    rw [Handover.after]
    split
    · exact hv.move .takeDesired (by simp)
    · exact hv
  | answers result =>
    cases result with
    | ok _ => exact hv.move (.answered (.ok ())) (by simp)
    | error e => cases hok
  | reports =>
    rw [Handover.after]
    split
    · exact hv
    · exact hv
  | returns g =>
    rw [Handover.after]
    split
    · exact hv
    · exact hv

theorem vouches_run (hv : h.logbook.Vouches manufacturerId) {happenings : List Happening}
    (hok : ∀ x ∈ happenings, x.Succeeds) :
    (h.run manufacturerId happenings).logbook.Vouches manufacturerId := by
  induction happenings generalizing h with
  | nil => exact hv
  | cons x rest ih =>
    obtain ⟨hx, hrest⟩ := List.forall_mem_cons.mp hok
    exact ih (vouches_after hv hx) hrest

/-- A driver with nothing to do has brought the radio in line with what is published. -/
theorem eq_showing_of_settled {happenings : List Happening} (hok : ∀ x ∈ happenings, x.Succeeds)
    (hidle : (initial.run manufacturerId happenings).publisher.applying = none)
    (hseen : (initial.run manufacturerId happenings).publisher.unseen = false) :
    let h := initial.run manufacturerId happenings
    h.logbook.presence manufacturerId =
      .showing manufacturerId (h.publisher.edition.desired h.publisher.generation) := by
  intro h
  have hv : h.logbook.Vouches manufacturerId :=
    vouches_run (Logbook.vouches_initial manufacturerId) hok
  have hfits : h.Fits := fits_initial.run manufacturerId happenings
  have hpresent : h.logbook.present = none := hfits.driver.logbook.present_eq_none_iff.mpr hidle
  have hdesired : h.publisher.desired =
      h.publisher.edition.desired h.publisher.generation := hfits.driver.desired
  rw [← hdesired]
  exact hv.eq_showing hfits.driver hpresent hseen

/-- **A stamp that is broadcast vouches for what is served**, at all times, as long as no call fails:
a radio that broadcasts shows one edition, stamp and services alike. And the radio does come to show
what is published: it does so whenever the driver has nothing to do. -/
theorem broadcast_vouches (manufacturerId : UInt16) {happenings : List Happening}
    (ok : ∀ x ∈ happenings, x.Succeeds) :
    let h := initial.run manufacturerId happenings
    let radio := h.logbook.presence manufacturerId
    (radio.broadcast ≠ none → ∃ (generation : Nat) (e : Edition),
        h.editions[generation]? = some e ∧
          radio = .showing manufacturerId (e.desired generation)) ∧
      (h.publisher.applying = none → h.publisher.unseen = false →
        radio = .showing manufacturerId (h.publisher.edition.desired h.publisher.generation)) := by
  intro h radio
  have hv : h.logbook.Vouches manufacturerId :=
    vouches_run (Logbook.vouches_initial manufacturerId) ok
  have hfits : h.Fits := fits_initial.run manufacturerId happenings
  refine ⟨fun hbroadcast => ?_, fun hidle hseen => eq_showing_of_settled ok hidle hseen⟩
  obtain ⟨d, hmem, hshown⟩ := hv.shows hbroadcast
  obtain ⟨e, he, hd⟩ := hfits.driver.editions d hmem
  exact ⟨d.generation, e, he, hd ▸ hshown⟩

/-- A service is published. While it is on the air, another one takes its place in two changes, of
which the driver sees only the second. -/
def exchange : List Happening :=
  [.requests (.publish (.ofNat 1) (.new ⟨.ofNat 7⟩ "list") [⟨1⟩]), .takes, .answers (.ok ()),
    .answers (.ok ()), .reports, .requests (.publish (.ofNat 2) (.new ⟨.ofNat 8⟩ "list") [⟨2⟩]),
    .requests (.unpublish (.ofNat 1) [⟨1⟩]), .takes, .answers (.ok ()), .answers (.ok ()),
    .answers (.ok ()), .answers (.ok ())]

theorem broadcast_vouches_exchange :
    let h := initial.run defaultManufacturerId exchange
    let radio := h.logbook.presence defaultManufacturerId
    (∀ x ∈ exchange, x.Succeeds) ∧ radio.broadcast = some (defaultManufacturerId, Stamp.payload ⟨1⟩) ∧
      ∃ (generation : Nat) (e : Edition), h.editions[generation]? = some e ∧
        radio = .showing defaultManufacturerId (e.desired generation) := by
  intro h radio
  have hok : ∀ x ∈ exchange, x.Succeeds := by
    simp [exchange, Happening.Succeeds]
  have hbroadcast : radio.broadcast = some (defaultManufacturerId, Stamp.payload ⟨1⟩) := by
    decide +kernel
  obtain ⟨hvouches, -⟩ := broadcast_vouches defaultManufacturerId hok
  exact ⟨hok, hbroadcast, hvouches (by rw [hbroadcast]; exact nofun)⟩

end Handover

end Publisher

end Nearby
