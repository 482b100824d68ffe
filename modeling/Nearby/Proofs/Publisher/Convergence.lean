import Nearby.Proofs.Publisher.Presence

/-!
# The radio and the state that was applied

The driver applies one desired state after the other, and any of its calls may fail. What it
believes of the radio stays right but for what lingers, and each call that succeeds brings the radio
closer to the state being applied (`Logbook.Converges`). So once a state was applied with all calls a
success, the radio does what that state asks for, provided that nothing lingers.

Something may well linger. What an earlier call failed to withdraw is not tried again, and stays on
the radio while later states are applied without a failure.
-/

namespace Nearby.Publisher

namespace Logbook

/-- The tasks that have ended, oldest first. -/
def ended (l : Logbook) : List Ended := l.applications.flatMap (·.ended)

/-- What the radio does, if it was idle at first. -/
def presence (l : Logbook) (manufacturerId : UInt16) : Presence :=
  l.ended.foldl (Presence.after manufacturerId) .idle

/-- The tasks that are left of the state being applied. -/
def left (l : Logbook) : List Task := (l.publisher.applying.map (·.tasks)).getD []

/-- What may happen to the driver. -/
inductive Happening
  /-- Some state is handed over. -/
  | hands (desired : Desired)
  | moves (move : Move)

/-- What comes of a happening. -/
def after (manufacturerId : UInt16) (l : Logbook) : Happening → Logbook
  | .hands desired => { l with publisher := { l.publisher with desired, unseen := true } }
  | .moves move => l.move manufacturerId move

/-- The logbook after a list of happenings. -/
def run (manufacturerId : UInt16) (l : Logbook) (happenings : List Happening) : Logbook :=
  happenings.foldl (after manufacturerId) l

variable {l : Logbook} {manufacturerId : UInt16}

theorem left_proceed (l : Logbook) (p : Publisher) (a : Application) (tasks : List Task) :
    (l.proceed p a tasks).left = tasks := by
  cases tasks with
  | nil => rfl
  | cons task rest => rfl

/-! ## The invariant -/

/-- **The invariant of driver and radio**: the driver knows what the radio does, and as long as all
goes well it gets closer to the state it applies. -/
structure Converges (l : Logbook) (manufacturerId : UInt16) : Prop where
  logbook : l.Fits
  ordered : Task.Ordered l.left
  knows : l.publisher.belief.Knows (l.presence manufacturerId) l.ended l.left
  attains : ∀ a, l.applications.getLast? = some a → (∀ e ∈ a.ended, e.isOk = true) →
    l.publisher.belief.Attains manufacturerId a.desired (l.presence manufacturerId) l.left

theorem converges_initial (manufacturerId : UInt16) : initial.Converges manufacturerId where
  logbook := fits_initial
  ordered := List.Pairwise.nil
  knows := Belief.knows_initial
  attains a ha := by cases ha

theorem ended_proceed (l : Logbook) (p : Publisher) (a : Application) (tasks : List Task) :
    (l.proceed p a tasks).ended = l.past.flatMap (·.ended) ++ a.ended := by
  rw [ended, applications_proceed, List.flatMap_append, List.flatMap_singleton]

/-- A state that is taken up has its tasks still before it. -/
theorem ended_proceed_of_idle (hidle : l.present = none) (p : Publisher) (d : Desired)
    (plan tasks : List Task) : (l.proceed p ⟨d, plan, []⟩ tasks).ended = l.ended := by
  rw [ended_proceed, List.append_nil, ended, applications_of_idle hidle]

/-- A task that ends is the last of those that have ended. -/
theorem ended_proceed_of_busy {a : Application} (hbusy : l.present = some a) (p : Publisher)
    (e : Ended) (tasks : List Task) :
    (l.proceed p { a with ended := a.ended ++ [e] } tasks).ended = l.ended ++ [e] := by
  rw [ended_proceed, ended, applications_of_busy hbusy, List.flatMap_append, List.flatMap_singleton,
    List.append_assoc]

/-- The radio changes with the task that has ended. -/
theorem presence_proceed_of_busy {a : Application} (hbusy : l.present = some a) (p : Publisher)
    (e : Ended) (tasks : List Task) (manufacturerId : UInt16) :
    (l.proceed p { a with ended := a.ended ++ [e] } tasks).presence manufacturerId =
      (l.presence manufacturerId).after manufacturerId e := by
  rw [presence, ended_proceed_of_busy hbusy, List.foldl_append]
  rfl

theorem belief_proceed (l : Logbook) (p : Publisher) (a : Application) (tasks : List Task) :
    (l.proceed p a tasks).publisher.belief = p.belief := by
  obtain ⟨applying, applied, hpublisher⟩ := l.publisher_proceed p a tasks
  rw [hpublisher]

/-- What is left, if something is. -/
theorem left_of_applying {desired : Desired} {tasks : List Task}
    (h : l.publisher.applying = some ⟨desired, tasks⟩) : l.left = tasks := by
  rw [left, h]
  rfl

/-- A driver that is idle has nothing left to do. -/
theorem Fits.left_eq_nil (h : l.Fits) (hidle : l.present = none) : l.left = [] := by
  rw [left, h.present_eq_none_iff.mp hidle]
  rfl

/-! ## What happens -/

/-- A state is taken up. -/
theorem Converges.take (h : l.Converges manufacturerId) (hidle : l.present = none) (unseen : Bool) :
    let b := l.publisher.belief
    let d := l.publisher.desired
    Converges (l.proceed { l.publisher with unseen, belief := b.depart d } ⟨d, b.plan d, []⟩
      (b.plan d)) manufacturerId := by
  intro b d
  have hknows := h.knows
  rw [h.logbook.left_eq_nil hidle] at hknows
  refine ⟨?_, ?_, ?_, fun a ha hok => ?_⟩
  · apply h.logbook.proceed
    · rfl
    · rfl
  · rw [left_proceed]
    exact Belief.ordered_plan b d
  · rw [left_proceed, belief_proceed, presence, ended_proceed_of_idle hidle]
    exact hknows.depart d
  · rw [applications_proceed, List.getLast?_concat] at ha
    obtain rfl := Option.some.inj ha
    rw [left_proceed, belief_proceed]
    exact Belief.attains_depart b manufacturerId d _

/-- A task ends. -/
theorem Converges.answer (h : l.Converges manufacturerId) {a : Application} {task : Task}
    {rest : List Task} (hbusy : l.present = some a)
    (happlying : l.publisher.applying = some ⟨a.desired, task :: rest⟩)
    (hplan : a.plan = a.ended.map (·.task) ++ task :: rest) (result : Except RadioError Unit) :
    (l.proceed { l.publisher with belief := l.publisher.belief.settle task result }
      { a with ended := a.ended ++ [⟨task, result⟩] } rest).Converges manufacturerId := by
  have hleft : l.left = task :: rest := left_of_applying happlying
  have hordered := h.ordered
  have hknows := h.knows
  rw [hleft] at hordered hknows
  refine ⟨?_, ?_, ?_, fun b hb hok => ?_⟩
  · apply h.logbook.proceed
    · rfl
    · rw [hplan, List.map_append, List.append_assoc]
      rfl
  · rw [left_proceed]
    exact hordered.tail
  · rw [left_proceed, belief_proceed, presence_proceed_of_busy hbusy, ended_proceed_of_busy hbusy]
    exact hknows.settle hordered manufacturerId result
  · rw [applications_proceed, List.getLast?_concat] at hb
    obtain rfl := Option.some.inj hb
    obtain ⟨hokBefore, hokNow⟩ := List.forall_mem_append.mp hok
    have hlast : l.applications.getLast? = some a := by
      rw [applications_of_busy hbusy, List.getLast?_concat]
    have hattains := h.attains a hlast hokBefore
    rw [left_proceed, belief_proceed, presence_proceed_of_busy hbusy]
    rw [hleft] at hattains
    cases result with
    | ok _ => exact hattains.settle hordered
    | error e => cases hokNow _ List.mem_cons_self

/-- **Whatever happens keeps the invariant.** -/
theorem Converges.after (h : l.Converges manufacturerId) (happening : Happening) :
    (l.after manufacturerId happening).Converges manufacturerId := by
  cases happening with
  | hands desired => exact ⟨h.logbook.change rfl rfl, h.ordered, h.knows, h.attains⟩
  | moves move =>
    have hmoves := h.logbook.moves manufacturerId move
    rw [Logbook.after]
    generalize l.move manufacturerId move = m at hmoves
    cases hmoves with
    | rests => exact h
    | takes idle unseen => exact h.take idle false
    | answers a task rest result present applying plan =>
      exact h.answer present applying plan result

theorem Converges.run (h : l.Converges manufacturerId) (happenings : List Happening) :
    (l.run manufacturerId happenings).Converges manufacturerId := by
  induction happenings generalizing l with
  | nil => exact h
  | cons happening rest ih => exact ih (h.after happening)

/-- **After a state was applied with all calls a success, the radio serves and broadcasts what the
state asks for exactly if nothing lingers** of what earlier calls failed to withdraw. A broadcast that
lingers is of no account as soon as another one starts. -/
theorem shows_iff (manufacturerId : UInt16) (happenings : List Happening) (a : Application)
    (idle : (initial.run manufacturerId happenings).present = none)
    (last : (initial.run manufacturerId happenings).past.getLast? = some a)
    (ok : ∀ e ∈ a.ended, e.isOk = true) :
    let l := initial.run manufacturerId happenings
    ((l.presence manufacturerId).services = a.desired.services ↔
        ∀ service, lingers l.ended service = false) ∧
      ((l.presence manufacturerId).broadcast =
          (Presence.showing manufacturerId a.desired).broadcast ↔
        (a.desired.stamp = none → broadcastLingers l.ended = false)) := by
  intro l
  have h : l.Converges manufacturerId := (converges_initial manufacturerId).run happenings
  have hleft : l.left = [] := h.logbook.left_eq_nil idle
  have hknows := h.knows
  have hlast : l.applications.getLast? = some a := by
    rw [applications_of_idle idle]
    exact last
  have hattains := h.attains a hlast ok
  rw [hleft] at hknows hattains
  exact ⟨hattains.services_eq_iff hknows, hattains.broadcast_eq_iff hknows⟩

/-- A service is published and withdrawn, but the radio fails to unregister it. Then other calls are
made, all of which succeed. -/
def leak (followedBy : List Happening) : List Happening :=
  [.hands ⟨1, some ⟨1⟩, .insert ∅ (.ofNat 1) ∅⟩, .moves .takeDesired, .moves (.answered (.ok ())),
    .moves (.answered (.ok ())), .hands ⟨2, none, ∅⟩, .moves .takeDesired,
    .moves (.answered (.ok ())), .moves (.answered (.error (.gattServer "busy")))] ++ followedBy

/-- The service is published once more, and withdrawn, which makes up for the failure. -/
theorem shows_iff_second_try :
    let l := initial.run defaultManufacturerId (leak
      [.hands ⟨3, some ⟨2⟩, .insert ∅ (.ofNat 1) ∅⟩, .moves .takeDesired,
        .moves (.answered (.ok ())), .moves (.answered (.ok ())), .hands ⟨4, none, ∅⟩,
        .moves .takeDesired, .moves (.answered (.ok ())), .moves (.answered (.ok ()))])
    (∃ service, lingers (l.ended.take 4) service = true) ∧
      (l.presence defaultManufacturerId).services = ∅ ∧
      ∀ service, lingers l.ended service = false := by
  intro l
  have hserved : (l.presence defaultManufacturerId).services = ∅ := by decide +kernel
  have hidle : l.present = none := rfl
  obtain ⟨hservices, -⟩ := shows_iff defaultManufacturerId _ _ hidle rfl (by decide +kernel)
  exact ⟨⟨.ofNat 1, by decide +kernel⟩, hserved, hservices.mp hserved⟩

/-- After a failed call the radio need not come to show what is applied. The service that is left
behind is still there when another one was published with all calls a success. -/
theorem not_always_shows :
    ¬ ∀ manufacturerId happenings a,
        (initial.run manufacturerId happenings).present = none →
        (initial.run manufacturerId happenings).past.getLast? = some a →
        (∀ e ∈ a.ended, e.isOk = true) →
        (initial.run manufacturerId happenings).presence manufacturerId =
          .showing manufacturerId a.desired := by
  intro hshows
  have hleft := hshows defaultManufacturerId (leak
    [.hands ⟨3, some ⟨2⟩, .insert ∅ (.ofNat 2) ∅⟩, .moves .takeDesired, .moves (.answered (.ok ())),
      .moves (.answered (.ok ()))]) _ rfl rfl (by decide +kernel)
  revert hleft
  decide +kernel

end Logbook

end Nearby.Publisher
