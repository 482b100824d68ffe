import Nearby.Proofs.Publisher.Logbook
import Nearby.Proofs.Publisher.Plan

/-!
# What the radio does

The driver goes by what it believes the radio to do. What the radio does in fact is its `Presence`,
which follows from the calls that succeeded; a call that failed leaves everything as it was.

The two drift apart where a service cannot be unregistered, or a broadcast not be stopped: the driver
takes either for gone before it makes the call, and does not come back to it. What is left behind
`lingers` until the service is registered once more, or another broadcast started. Apart from that the
belief is right at all times (`Belief.Knows`), and a plan of which all tasks end well brings it in
line with the desired state (`Belief.Attains`).
-/

namespace Nearby

open Publisher (Ended)

/-- What a radio serves and broadcasts. -/
structure Presence where
  services : Table Uuid Characteristics
  /-- The payload of the broadcast, and the manufacturer identifier it goes under. -/
  broadcast : Option (UInt16 × Bytes)
  deriving DecidableEq

namespace Presence

/-- The radio serves and broadcasts nothing. -/
def idle : Presence := ⟨∅, none⟩

/-- What a radio does that is in line with a desired state. -/
def showing (manufacturerId : UInt16) (d : Desired) : Presence :=
  ⟨d.services, d.stamp.map fun stamp => (manufacturerId, stamp.payload)⟩

/-- The radio after a call that succeeded. -/
def called (p : Presence) : Call → Presence
  | .register service characteristics =>
    { p with services := p.services.insert service characteristics }
  | .unregister service => { p with services := p.services.erase service }
  | .startBroadcast manufacturerId stamp =>
    { p with broadcast := some (manufacturerId, stamp.payload) }
  | .stopBroadcast => { p with broadcast := none }
  | _ => p

/-- The radio after a task has ended. -/
def after (manufacturerId : UInt16) (p : Presence) (e : Ended) : Presence :=
  match e.result with
  | .ok () => p.called (e.task.call manufacturerId)
  | .error _ => p

end Presence

/-- Whether a service lingers after a task has ended. -/
def lingersAfter (service : Uuid) (before : Bool) (e : Ended) : Bool :=
  match e.task with
  | .unregister other => if other = service then !e.isOk else before
  | .register other _ => if other = service ∧ e.isOk = true then false else before
  | _ => before

/-- A service lingers if it could not be unregistered, and was not registered since. -/
def lingers (ended : List Ended) (service : Uuid) : Bool := ended.foldl (lingersAfter service) false

/-- Whether the broadcast lingers after a task has ended. -/
def broadcastLingersAfter (before : Bool) (e : Ended) : Bool :=
  match e.task with
  | .stopBroadcast => !e.isOk
  | .startBroadcast _ => before && !e.isOk
  | _ => before

/-- The broadcast lingers if it could not be stopped, and none was started since. -/
def broadcastLingers (ended : List Ended) : Bool := ended.foldl broadcastLingersAfter false

/-- Whether a service lingers is a matter of the tasks that have ended, in order. -/
theorem lingers_concat (ended : List Ended) (e : Ended) (service : Uuid) :
    lingers (ended ++ [e]) service = lingersAfter service (lingers ended service) e :=
  List.foldl_append

theorem broadcastLingers_concat (ended : List Ended) (e : Ended) :
    broadcastLingers (ended ++ [e]) = broadcastLingersAfter (broadcastLingers ended) e :=
  List.foldl_append

/-- A task that ends well leaves nothing that was not left before. -/
theorem lingersAfter_of_isOk {e : Ended} (h : e.isOk = true) (service : Uuid) :
    lingersAfter service false e = false := by
  rw [lingersAfter, h]
  cases e.task with
  | unregister other => exact ite_self false
  | register other characteristics => exact ite_self false
  | stopBroadcast => rfl
  | startBroadcast stamp => rfl

/-- A task that ended well leaves nothing to linger. -/
theorem broadcastLingersAfter_of_isOk {e : Ended} (h : e.isOk = true) :
    broadcastLingersAfter false e = false := by
  rw [broadcastLingersAfter, h]
  cases e.task with
  | unregister other => rfl
  | register other characteristics => rfl
  | stopBroadcast => rfl
  | startBroadcast stamp => rfl

/-! ## Tasks that are not about a service -/

/-- The service that a task is about. -/
def Task.service? : Task → Option Uuid
  | .unregister service => some service
  | .register service _ => some service
  | .stopBroadcast => none
  | .startBroadcast _ => none

section Frame

variable {task : Task} {service : Uuid}

/-- The driver changes what it believes to be installed only when it has registered it. -/
theorem Belief.get?_installed_settle (b : Belief)
    (h : ∀ characteristics, task ≠ .register service characteristics)
    (result : Except RadioError Unit) :
    (b.settle task result).installed.get? service = b.installed.get? service := by
  cases result with
  | error e => rfl
  | ok _ =>
    cases task with
    | register other characteristics =>
      refine Table.get?_insert_of_ne b.installed ?_ characteristics
      rintro rfl
      exact h characteristics rfl
    | unregister other => rfl
    | stopBroadcast => rfl
    | startBroadcast stamp => rfl

/-- A task for one service does not bear on another. -/
theorem Presence.get?_services_after (p : Presence) (manufacturerId : UInt16)
    (h : task.service? ≠ some service) (result : Except RadioError Unit) :
    (p.after manufacturerId ⟨task, result⟩).services.get? service = p.services.get? service := by
  cases result with
  | error e => rfl
  | ok _ =>
    cases task with
    | register other characteristics =>
      exact Table.get?_insert_of_ne p.services (fun heq => h (congrArg some heq.symm))
        characteristics
    | unregister other =>
      exact Table.get?_erase_of_ne p.services fun heq => h (congrArg some heq.symm)
    | stopBroadcast => rfl
    | startBroadcast stamp => rfl

/-- Nor does it bear on whether another lingers. -/
theorem lingersAfter_of_ne (h : task.service? ≠ some service) (before : Bool)
    (result : Except RadioError Unit) : lingersAfter service before ⟨task, result⟩ = before := by
  cases task with
  | register other characteristics => exact if_neg fun hand => h (congrArg some hand.1)
  | unregister other => exact if_neg fun heq => h (congrArg some heq)
  | stopBroadcast => rfl
  | startBroadcast stamp => rfl

end Frame

namespace Belief

/-- What the driver believes of a service is right, unless the service is still to be unregistered or
could not be: then it is taken for gone, and is there. -/
structure KnowsService (b : Belief) (p : Presence) (ended : List Ended) (left : List Task)
    (service : Uuid) : Prop where
  gone : .unregister service ∈ left ∨ lingers ended service = true →
    b.installed.get? service = none ∧ (p.services.get? service).isSome = true
  known : .unregister service ∉ left → lingers ended service = false →
    p.services.get? service = b.installed.get? service

/-- And likewise for the broadcast. -/
structure KnowsBroadcast (b : Belief) (p : Presence) (ended : List Ended) (left : List Task) :
    Prop where
  gone : .stopBroadcast ∈ left ∨ broadcastLingers ended = true →
    b.broadcasting = false ∧ p.broadcast.isSome = true
  known : .stopBroadcast ∉ left → broadcastLingers ended = false →
    p.broadcast.isSome = b.broadcasting

/-- **The invariant of the belief.** -/
structure Knows (b : Belief) (p : Presence) (ended : List Ended) (left : List Task) : Prop where
  service : ∀ service, b.KnowsService p ended left service
  broadcast : b.KnowsBroadcast p ended left

/-- What is still missing is left to do. -/
structure Attains (b : Belief) (manufacturerId : UInt16) (d : Desired) (p : Presence)
    (left : List Task) : Prop where
  services : ∀ service, b.installed.get? service = d.services.get? service ∨
    b.installed.get? service = none ∧
      ∃ characteristics, d.services.get? service = some characteristics ∧
        .register service characteristics ∈ left
  registers : ∀ service characteristics, .register service characteristics ∈ left →
    d.services.get? service = some characteristics
  starts : ∀ stamp, .startBroadcast stamp ∈ left → d.stamp = some stamp
  stamp : ∀ stamp, d.stamp = some stamp → .startBroadcast stamp ∈ left ∨
    .stopBroadcast ∉ left ∧ p.broadcast = some (manufacturerId, stamp.payload)
  silent : d.stamp = none → b.broadcasting = false

variable {b : Belief} {p : Presence} {d : Desired} {ended : List Ended} {left : List Task}
  {manufacturerId : UInt16} {service : Uuid} {task : Task}

/-! ## What is known -/

/-- The driver knows what is served, if it is as it believes. -/
theorem KnowsService.of_known (hmem : .unregister service ∉ left)
    (hlingers : lingers ended service = false)
    (hserved : p.services.get? service = b.installed.get? service) :
    b.KnowsService p ended left service := by
  refine ⟨fun hgone => ?_, fun _ _ => hserved⟩
  rcases hgone with hgone | hgone
  · exact absurd hgone hmem
  · cases hlingers.symm.trans hgone

/-- What lingers is served, and the driver does not believe it. -/
theorem KnowsService.of_lingers (hlingers : lingers ended service = true)
    (hinstalled : b.installed.get? service = none)
    (hserved : (p.services.get? service).isSome = true) : b.KnowsService p ended left service :=
  ⟨fun _ => ⟨hinstalled, hserved⟩, fun _ hno => by cases hlingers.symm.trans hno⟩

/-- Nothing has changed for a service. -/
theorem KnowsService.of_eq (h : b.KnowsService p ended left service) {b' : Belief} {p' : Presence}
    {ended' : List Ended} {left' : List Task}
    (hinstalled : b'.installed.get? service = b.installed.get? service)
    (hserved : p'.services.get? service = p.services.get? service)
    (hlingers : lingers ended' service = lingers ended service)
    (hleft : .unregister service ∈ left' ↔ .unregister service ∈ left) :
    b'.KnowsService p' ended' left' service where
  gone hgone := by
    rw [hinstalled, hserved]
    rw [hleft, hlingers] at hgone
    exact h.gone hgone
  known hmem hlinger := by
    rw [hinstalled, hserved]
    exact h.known (mt hleft.mpr hmem) (hlingers ▸ hlinger)

/-- It knows whether there is a broadcast, if it is as it believes. -/
theorem KnowsBroadcast.of_known (hmem : .stopBroadcast ∉ left)
    (hlingers : broadcastLingers ended = false) (hbroadcast : p.broadcast.isSome = b.broadcasting) :
    b.KnowsBroadcast p ended left := by
  refine ⟨fun hgone => ?_, fun _ _ => hbroadcast⟩
  rcases hgone with hgone | hgone
  · exact absurd hgone hmem
  · cases hlingers.symm.trans hgone

/-- What lingers is a broadcast that the driver does not believe in. -/
theorem KnowsBroadcast.of_lingers (hlingers : broadcastLingers ended = true)
    (hbroadcasting : b.broadcasting = false) (hbroadcast : p.broadcast.isSome = true) :
    b.KnowsBroadcast p ended left :=
  ⟨fun _ => ⟨hbroadcasting, hbroadcast⟩, fun _ hno => by cases hlingers.symm.trans hno⟩

theorem KnowsBroadcast.of_eq (h : b.KnowsBroadcast p ended left) {b' : Belief} {p' : Presence}
    {ended' : List Ended} {left' : List Task} (hbroadcasting : b'.broadcasting = b.broadcasting)
    (hbroadcast : p'.broadcast = p.broadcast)
    (hlingers : broadcastLingers ended' = broadcastLingers ended)
    (hleft : .stopBroadcast ∈ left' ↔ .stopBroadcast ∈ left) :
    b'.KnowsBroadcast p' ended' left' where
  gone hgone := by
    rw [hbroadcasting, hbroadcast]
    rw [hleft, hlingers] at hgone
    exact h.gone hgone
  known hmem hlinger := by
    rw [hbroadcasting, hbroadcast]
    exact h.known (mt hleft.mpr hmem) (hlingers ▸ hlinger)

/-- An idle radio is known to be idle. -/
theorem knows_initial : Belief.initial.Knows .idle [] [] :=
  ⟨fun _ => .of_known List.not_mem_nil rfl rfl, .of_known List.not_mem_nil rfl rfl⟩

/-! ## Taking up a state -/

/-- What lingers is not taken for installed. -/
theorem KnowsService.lingers_eq_false (h : b.KnowsService p ended left service)
    {characteristics : Characteristics}
    (hinstalled : b.installed.get? service = some characteristics) :
    lingers ended service = false := by
  rcases hlingers : lingers ended service with _ | _
  · rfl
  · cases hinstalled.symm.trans (h.gone (.inr hlingers)).1

/-- As the driver turns to a new state, it forgets what that does not ask for, and is to take it off
the radio. -/
theorem KnowsService.depart (h : b.KnowsService p ended [] service) (d : Desired) :
    (b.depart d).KnowsService p ended (b.plan d) service where
  gone hgone := by
    rcases hgone with hmem | hlingers
    · obtain ⟨characteristics, hinstalled, hdesired⟩ := mem_stale.mp (unregister_mem_plan.mp hmem)
      refine ⟨get?_kept_eq_none fun other hother => ?_, ?_⟩
      · obtain rfl := Option.some.inj (hinstalled.symm.trans hother)
        exact hdesired
      · rw [h.known List.not_mem_nil (h.lingers_eq_false hinstalled), hinstalled]
        rfl
    · obtain ⟨hinstalled, hserved⟩ := h.gone (.inr hlingers)
      refine ⟨get?_kept_eq_none fun other hother => ?_, hserved⟩
      cases hinstalled.symm.trans hother
  known hmem hlingers := by
    rw [h.known List.not_mem_nil hlingers]
    change _ = (b.kept d).get? service
    refine Option.ext fun characteristics => ?_
    rw [get?_kept_eq_some_iff]
    refine ⟨fun hinstalled => ⟨hinstalled, ?_⟩, And.left⟩
    by_contra hne
    exact hmem (unregister_mem_plan.mpr (mem_stale.mpr ⟨characteristics, hinstalled, hne⟩))

/-- It is to end the broadcast as well, if it believes in one. -/
theorem KnowsBroadcast.depart (h : b.KnowsBroadcast p ended []) (d : Desired) :
    (b.depart d).KnowsBroadcast p ended (b.plan d) where
  gone hgone := by
    refine ⟨rfl, ?_⟩
    rcases hlingers : broadcastLingers ended with _ | _
    · have hmem := hgone.resolve_right (by rw [hlingers]; exact Bool.false_ne_true)
      rw [h.known List.not_mem_nil hlingers]
      exact stop_mem_plan.mp hmem
    · exact (h.gone (.inr hlingers)).2
  known hmem hlingers := by
    rw [h.known List.not_mem_nil hlingers]
    rw [stop_mem_plan] at hmem
    exact (Bool.not_eq_true _).mp hmem

theorem Knows.depart (h : b.Knows p ended []) (d : Desired) :
    (b.depart d).Knows p ended (b.plan d) :=
  ⟨fun service => (h.service service).depart d, h.broadcast.depart d⟩

/-- Before its first call, the driver has all to do that the new state asks for. -/
theorem attains_depart (b : Belief) (manufacturerId : UInt16) (d : Desired) (p : Presence) :
    (b.depart d).Attains manufacturerId d p (b.plan d) where
  services service := by
    change (b.kept d).get? service = _ ∨ (b.kept d).get? service = none ∧ _
    rcases hdesired : d.services.get? service with _ | characteristics
    · exact .inl (get?_kept_eq_none fun other _ hother => by cases hdesired.symm.trans hother)
    · by_cases hinstalled : b.installed.get? service = some characteristics
      · exact .inl (get?_kept_eq_some_iff.mpr ⟨hinstalled, hdesired⟩)
      · refine .inr ⟨get?_kept_eq_none fun other hother heq => ?_, characteristics, rfl,
          register_mem_plan.mpr (mem_missing.mpr ⟨hdesired, hinstalled⟩)⟩
        obtain rfl := Option.some.inj (hdesired.symm.trans heq)
        exact hinstalled hother
  registers service characteristics hmem := (mem_missing.mp (register_mem_plan.mp hmem)).1
  starts stamp hmem := start_mem_plan.mp hmem
  stamp stamp hstamp := .inl (start_mem_plan.mpr hstamp)
  silent _ := rfl

/-! ## The end of a task -/

/-- Other tasks are left when one is done. -/
theorem mem_cons_iff_of_ne {t : Task} (h : task ≠ t) : t ∈ left ↔ t ∈ task :: left :=
  (List.mem_cons.trans (or_iff_right h.symm)).symm

/-- Most tasks are not about a given service. -/
theorem KnowsService.pass (h : b.KnowsService p ended (task :: left) service)
    (htask : task.service? ≠ some service) (manufacturerId : UInt16)
    (result : Except RadioError Unit) :
    (b.settle task result).KnowsService (p.after manufacturerId ⟨task, result⟩)
      (ended ++ [⟨task, result⟩]) left service := by
  refine h.of_eq (get?_installed_settle b ?_ result)
    (Presence.get?_services_after p manufacturerId htask result) ?_ (mem_cons_iff_of_ne ?_)
  · rintro characteristics rfl
    exact htask rfl
  · rw [lingers_concat, lingersAfter_of_ne htask]
  · rintro rfl
    exact htask rfl

/-- **What becomes of a service as a task ends**: it is as it was, or as the task has it, or it
lingers. -/
theorem KnowsService.settle (h : b.KnowsService p ended (task :: left) service)
    (hordered : Task.Ordered (task :: left)) (manufacturerId : UInt16)
    (result : Except RadioError Unit) :
    (b.settle task result).KnowsService (p.after manufacturerId ⟨task, result⟩)
      (ended ++ [⟨task, result⟩]) left service := by
  by_cases htask : task.service? = some service
  · have hlingers := lingers_concat ended ⟨task, result⟩ service
    cases task with
    | stopBroadcast => cases htask
    | startBroadcast stamp => cases htask
    | unregister other =>
      obtain rfl := Option.some.inj htask
      obtain ⟨hinstalled, hserved⟩ := h.gone (.inl List.mem_cons_self)
      have hlingers := hlingers.trans (if_pos rfl)
      cases result with
      | ok _ =>
        exact .of_known hordered.notMem hlingers
          ((Table.get?_erase_self p.services other).trans hinstalled.symm)
      | error e => exact .of_lingers hlingers hinstalled hserved
    | register other characteristics =>
      obtain rfl := Option.some.inj htask
      cases result with
      | ok _ =>
        refine .of_known (fun hmem => ?_) (hlingers.trans (if_pos ⟨rfl, rfl⟩)) ?_
        · -- services go before others come
          exact absurd (hordered.stage_le hmem) (by decide : ¬2 ≤ 1)
        · exact (Table.get?_insert_self p.services other characteristics).trans
            (Table.get?_insert_self b.installed other characteristics).symm
      -- a service that could not be registered is neither served nor believed to be
      | error e =>
        have hlingers := hlingers.trans (if_neg fun hand => Bool.false_ne_true hand.2)
        exact h.of_eq rfl rfl hlingers (mem_cons_iff_of_ne nofun)
  · exact h.pass htask manufacturerId result

/-- It is the same with the broadcast. -/
theorem KnowsBroadcast.settle (h : b.KnowsBroadcast p ended (task :: left))
    (hordered : Task.Ordered (task :: left)) (manufacturerId : UInt16)
    (result : Except RadioError Unit) :
    (b.settle task result).KnowsBroadcast (p.after manufacturerId ⟨task, result⟩)
      (ended ++ [⟨task, result⟩]) left := by
  have hlingers := broadcastLingers_concat ended ⟨task, result⟩
  cases task with
  | stopBroadcast =>
    obtain ⟨hbroadcasting, hbroadcast⟩ := h.gone (.inl List.mem_cons_self)
    cases result with
    | ok _ => exact .of_known hordered.notMem hlingers hbroadcasting.symm
    | error e => exact .of_lingers hlingers hbroadcasting hbroadcast
  | unregister service =>
    cases result with
    | ok _ => exact h.of_eq rfl rfl hlingers (mem_cons_iff_of_ne nofun)
    | error e => exact h.of_eq rfl rfl hlingers (mem_cons_iff_of_ne nofun)
  | register service characteristics =>
    cases result with
    | ok _ => exact h.of_eq rfl rfl hlingers (mem_cons_iff_of_ne nofun)
    | error e => exact h.of_eq rfl rfl hlingers (mem_cons_iff_of_ne nofun)
  | startBroadcast stamp =>
    cases result with
    | ok _ =>
      refine .of_known (fun hmem => ?_) (hlingers.trans (Bool.and_false _)) rfl
      -- the broadcast starts last
      exact absurd (hordered.stage_le hmem) (by decide : ¬3 ≤ 0)
    | error e =>
      exact h.of_eq rfl rfl (hlingers.trans (Bool.and_true _)) (mem_cons_iff_of_ne nofun)

/-- **What is known stays known**, however a task ends. -/
theorem Knows.settle (h : b.Knows p ended (task :: left)) (hordered : Task.Ordered (task :: left))
    (manufacturerId : UInt16) (result : Except RadioError Unit) :
    (b.settle task result).Knows (p.after manufacturerId ⟨task, result⟩)
      (ended ++ [⟨task, result⟩]) left :=
  ⟨fun service => (h.service service).settle hordered manufacturerId result,
    h.broadcast.settle hordered manufacturerId result⟩

/-- **A task that ends well brings the radio closer to the desired state.** -/
theorem Attains.settle (h : b.Attains manufacturerId d p (task :: left))
    (hordered : Task.Ordered (task :: left)) :
    (b.settle task (.ok ())).Attains manufacturerId d (p.after manufacturerId ⟨task, .ok ()⟩)
      left where
  services service := by
    by_cases htask : ∃ characteristics, task = .register service characteristics
    · obtain ⟨characteristics, rfl⟩ := htask
      have hdesired := h.registers service characteristics List.mem_cons_self
      exact .inl ((Table.get?_insert_self b.installed service characteristics).trans hdesired.symm)
    · have htask := not_exists.mp htask
      rw [get?_installed_settle b htask]
      rcases h.services service with hdone | ⟨hnone, characteristics, hdesired, hmem⟩
      · exact .inl hdone
      · -- the service is still to be registered, as the task that ended was another
        have hmem := (List.mem_cons.mp hmem).resolve_left (Ne.symm (htask characteristics))
        exact .inr ⟨hnone, characteristics, hdesired, hmem⟩
  registers service characteristics hmem := h.registers service characteristics (.tail _ hmem)
  starts stamp hmem := h.starts stamp (.tail _ hmem)
  stamp stamp hstamp := by
    have hmem : .startBroadcast stamp ∈ task :: left → task ≠ .startBroadcast stamp →
        .startBroadcast stamp ∈ left :=
      fun hmem hne => (List.mem_cons.mp hmem).resolve_left hne.symm
    cases task with
    | stopBroadcast =>
      rcases h.stamp stamp hstamp with hstart | ⟨hno, -⟩
      · exact .inl (hmem hstart nofun)
      · exact absurd List.mem_cons_self hno
    | unregister service =>
      rcases h.stamp stamp hstamp with hstart | ⟨hno, hbroadcast⟩
      · exact .inl (hmem hstart nofun)
      · exact .inr ⟨fun hstop => hno (.tail _ hstop), hbroadcast⟩
    | register service characteristics =>
      rcases h.stamp stamp hstamp with hstart | ⟨hno, hbroadcast⟩
      · exact .inl (hmem hstart nofun)
      · exact .inr ⟨fun hstop => hno (.tail _ hstop), hbroadcast⟩
    | startBroadcast other =>
      obtain rfl := Option.some.inj (hstamp.symm.trans (h.starts other List.mem_cons_self))
      -- the broadcast starts last, so there is none left to be stopped
      exact .inr ⟨fun hstop => absurd (hordered.stage_le hstop) (by decide : ¬3 ≤ 0), rfl⟩
  silent hnone := by
    cases task with
    | stopBroadcast => exact h.silent hnone
    | unregister service => exact h.silent hnone
    | register service characteristics => exact h.silent hnone
    | startBroadcast stamp => cases hnone.symm.trans (h.starts stamp List.mem_cons_self)

/-! ## When nothing is left to do -/

/-- With nothing left to do, the radio shows the desired state but for what lingers. -/
theorem Attains.services_eq_iff (h : b.Attains manufacturerId d p [])
    (hknows : b.Knows p ended []) :
    p.services = d.services ↔ ∀ service, lingers ended service = false := by
  have hinstalled : ∀ service, b.installed.get? service = d.services.get? service := by
    intro service
    rcases h.services service with hdone | ⟨-, characteristics, -, hmem⟩
    · exact hdone
    · cases hmem
  constructor
  · intro heq service
    rcases hlingers : lingers ended service with _ | _
    · rfl
    · obtain ⟨hnone, hserved⟩ := (hknows.service service).gone (.inr hlingers)
      rw [heq, ← hinstalled, hnone] at hserved
      cases hserved
  · intro hno
    refine Table.ext_get? fun service => ?_
    rw [(hknows.service service).known List.not_mem_nil (hno service), hinstalled]

/-- A broadcast ends up as desired, unless it lingers where there is to be none. -/
theorem Attains.broadcast_eq_iff (h : b.Attains manufacturerId d p [])
    (hknows : b.Knows p ended []) :
    p.broadcast = (Presence.showing manufacturerId d).broadcast ↔
      (d.stamp = none → broadcastLingers ended = false) := by
  rw [Presence.showing]
  rcases hstamp : d.stamp with _ | stamp
  · have hbroadcasting : b.broadcasting = false := h.silent hstamp
    constructor
    · intro heq _
      rcases hlingers : broadcastLingers ended with _ | _
      · rfl
      · have hheard := (hknows.broadcast.gone (.inr hlingers)).2
        rw [heq] at hheard
        cases hheard
    · intro hno
      have hsilent := hknows.broadcast.known List.not_mem_nil (hno rfl)
      rw [hbroadcasting] at hsilent
      simpa using hsilent
  · rcases h.stamp stamp hstamp with hmem | ⟨-, hbroadcast⟩
    · cases hmem
    · exact ⟨fun _ => nofun, fun _ => hbroadcast⟩

end Belief

end Nearby
