import Nearby.Proofs.Publisher.Convergence
import Nearby.Proofs.Latest

/-!
# Rounds of the driver

In a `Round` the driver takes one desired state and makes the calls it takes to get there, whatever
the radio answers. The calls are those of the plan, each of them once, and what is installed in the
end is told by the desired state, by what was installed before, and by the answers
(`Round.reconciles`).

A service that could not be registered is not installed. So the next round that desires it registers
it again, and so does every later one until a call succeeds (`rounds_are_exact`).
-/

namespace Nearby

/-- What is believed once all of these tasks have ended. -/
def Belief.settleAll (result : Task → Except RadioError Unit) (b : Belief) (tasks : List Task) :
    Belief :=
  tasks.foldl (fun b task => b.settle task (result task)) b

/-- Different tasks are different calls. -/
theorem Task.call_injective (manufacturerId : UInt16) :
    Function.Injective (Task.call manufacturerId) := by
  intro a b h
  cases a with
  | stopBroadcast | unregister service | register service m | startBroadcast stamp =>
    cases b with
    | stopBroadcast | unregister other | register other n | startBroadcast other => simp_all [call]

namespace Belief

variable {b : Belief} {result : Task → Except RadioError Unit} {tasks : List Task} {service : Uuid}
  {m : Characteristics}

/-- What a task registers of a service, if it ends well. -/
def registers? (result : Task → Except RadioError Unit) (service : Uuid) :
    Task → Option Characteristics
  | .register other m =>
    if other = service ∧ (result (.register other m)).isOk = true then some m else none
  | _ => none

theorem registers?_eq_some_iff {task : Task} : registers? result service task = some m ↔
    task = .register service m ∧ (result (.register service m)).isOk = true := by
  cases task with
  | register other n =>
    rw [registers?, Option.ite_none_right_eq_some]
    constructor
    · rintro ⟨⟨rfl, hok⟩, hm⟩
      obtain rfl := Option.some.inj hm
      exact ⟨rfl, hok⟩
    · rintro ⟨htask, hok⟩
      obtain ⟨rfl, rfl⟩ := Task.register.inj htask
      exact ⟨⟨rfl, hok⟩, rfl⟩
  | stopBroadcast | unregister other | startBroadcast stamp => simp [registers?]

/-- What is installed after a task is what it registered, or as before. -/
theorem get?_settle (b : Belief) (result : Task → Except RadioError Unit) (task : Task)
    (service : Uuid) : (b.settle task (result task)).installed.get? service =
      (registers? result service task).or (b.installed.get? service) := by
  by_cases htask : ∃ m, task = .register service m
  · obtain ⟨m, rfl⟩ := htask
    rcases hresult : result (.register service m) with e | _
    · simp [settle, registers?, hresult, Except.isOk, Except.toBool]
    · simp [settle, registers?, hresult, Except.isOk, Except.toBool]
  · rw [not_exists] at htask
    have hnone : registers? result service task = none := by
      rw [Option.eq_none_iff_forall_ne_some]
      exact fun m h => htask m (registers?_eq_some_iff.mp h).1
    rw [hnone, Option.none_or]
    exact b.get?_installed_settle htask (result task)

/-- Of a service, the register call that succeeded last counts. -/
theorem get?_settleAll (b : Belief) (result : Task → Except RadioError Unit) (tasks : List Task)
    (service : Uuid) : (b.settleAll result tasks).installed.get? service =
      (lastSome (registers? result service) tasks).or (b.installed.get? service) := by
  induction tasks generalizing b with
  | nil => rfl
  | cons task rest ih =>
    rw [lastSome_cons, Option.or_assoc, ← get?_settle]
    exact ih (b.settle task (result task))

/-- Each task that fails is counted. -/
theorem failures_settleAll (b : Belief) (result : Task → Except RadioError Unit) (tasks : List Task) :
    (b.settleAll result tasks).failures =
      b.failures + tasks.countP fun task => !(result task).isOk := by
  induction tasks generalizing b with
  | nil => rfl
  | cons task rest ih =>
    have hrest := ih (b.settle task (result task))
    have hstep : (b.settle task (result task)).failures =
        b.failures + if (!(result task).isOk) = true then 1 else 0 := by
      rcases result task with e | _
      · rfl
      · cases task with
        | stopBroadcast | unregister other | register other m | startBroadcast stamp => rfl
    rw [hstep, Nat.add_right_comm, Nat.add_assoc] at hrest
    rw [List.countP_cons]
    exact hrest

end Belief

namespace Publisher

variable {manufacturerId : UInt16}

/-! ## Rounds -/

/-- The call that a move makes, if it makes one. -/
def Effect.call? : Effect → Option Call
  | .call made => some made
  | .warn _ => none

/-- The calls that the driver makes in the course of a list of moves. -/
def callsOf (manufacturerId : UInt16) : Publisher → List Move → List Call
  | _, [] => []
  | p, move :: rest =>
    (p.move manufacturerId move).2.filterMap Effect.call? ++
      callsOf manufacturerId (p.move manufacturerId move).1 rest

/-- A desired state that the driver takes, and what the radio answers to its calls. -/
structure Round where
  desired : Desired
  answer : Call → Except RadioError Unit

namespace Round

/-- How a task ends. -/
def result (r : Round) (manufacturerId : UInt16) (task : Task) : Except RadioError Unit :=
  r.answer (task.call manufacturerId)

/-- The driver takes the state, and one call after the other is answered. -/
def moves (r : Round) (manufacturerId : UInt16) (b : Belief) : List Move :=
  .takeDesired :: (b.plan r.desired).map fun task => .answered (r.result manufacturerId task)

/-- The publisher with the state handed over. -/
def handedTo (r : Round) (p : Publisher) : Publisher := { p with desired := r.desired, unseen := true }

/-- The publisher after a round. -/
def after (r : Round) (manufacturerId : UInt16) (p : Publisher) : Publisher :=
  (r.handedTo p).run manufacturerId (r.moves manufacturerId p.belief)

/-- The calls made in a round, in order. -/
def calls (r : Round) (manufacturerId : UInt16) (p : Publisher) : List Call :=
  callsOf manufacturerId (r.handedTo p) (r.moves manufacturerId p.belief)

end Round

/-- The answer to a call lets the driver go on with the tasks left. -/
theorem move_answered {p : Publisher} {d : Desired} {task : Task} {rest : List Task}
    (h : p.applying = some ⟨d, task :: rest⟩) (manufacturerId : UInt16)
    (result : Except RadioError Unit) :
    let next := { p with belief := p.belief.settle task result }.continueWith manufacturerId d rest
    (p.move manufacturerId (.answered result)).1 = next.1 ∧
      (p.move manufacturerId (.answered result)).2.filterMap Effect.call? =
        next.2.filterMap Effect.call? := by
  cases result with
  | ok _ => simp [Publisher.move, h]
  | error e =>
    simp only [Publisher.move, h, true_and]
    exact List.filterMap_cons_none rfl

/-- As the calls for its tasks are answered, the driver makes one after the other, and is through with
the state after the last. -/
theorem run_continueWith (p : Publisher) (d : Desired) (result : Task → Except RadioError Unit)
    (tasks : List Task) :
    let start := p.continueWith manufacturerId d tasks
    let answers := tasks.map fun task => Move.answered (result task)
    start.1.run manufacturerId answers = { p with
        belief := p.belief.settleAll result tasks, applying := none, applied := d.generation } ∧
      start.2.filterMap Effect.call? ++ callsOf manufacturerId start.1 answers =
        tasks.map (Task.call manufacturerId) := by
  induction tasks generalizing p with
  | nil => exact ⟨rfl, rfl⟩
  | cons task rest ih =>
    let busy : Publisher := { p with applying := some ⟨d, task :: rest⟩ }
    have hbusy : busy.applying = some ⟨d, task :: rest⟩ := rfl
    obtain ⟨hnext, hcalls⟩ := move_answered hbusy manufacturerId (result task)
    obtain ⟨hlast, hmore⟩ := ih { busy with belief := p.belief.settle task (result task) }
    constructor
    · change (busy.move manufacturerId (.answered (result task))).1.run manufacturerId _ = _
      rw [hnext]
      exact hlast
    · change Task.call manufacturerId task ::
        ((busy.move manufacturerId (.answered (result task))).2.filterMap Effect.call? ++
          callsOf manufacturerId (busy.move manufacturerId (.answered (result task))).1 _) = _
      rw [hnext, hcalls]
      exact congrArg _ hmore

namespace Round

variable {r : Round} {p : Publisher}

/-- The driver takes what was handed over. -/
theorem move_handedTo (hidle : p.applying = none) (r : Round) (manufacturerId : UInt16) :
    (r.handedTo p).move manufacturerId .takeDesired =
      { p with
        desired := r.desired
        unseen := false
        belief := p.belief.depart r.desired }.continueWith manufacturerId r.desired
          (p.belief.plan r.desired) := by
  simp [Publisher.move, handedTo, hidle]

/-- A round leads to where all its tasks have ended. -/
theorem after_eq (hidle : p.applying = none) (r : Round) (manufacturerId : UInt16) :
    r.after manufacturerId p = { p with
      desired := r.desired
      unseen := false
      belief := (p.belief.depart r.desired).settleAll (r.result manufacturerId)
        (p.belief.plan r.desired)
      applying := none
      applied := r.desired.generation } := by
  change ((r.handedTo p).move manufacturerId .takeDesired).1.run manufacturerId _ = _
  rw [move_handedTo hidle]
  exact (run_continueWith _ r.desired (r.result manufacturerId) _).1

/-- **The calls of a round are those of the plan**, however they end. -/
theorem calls_eq (hidle : p.applying = none) (r : Round) (manufacturerId : UInt16) :
    r.calls manufacturerId p = (p.belief.plan r.desired).map (Task.call manufacturerId) := by
  change ((r.handedTo p).move manufacturerId .takeDesired).2.filterMap Effect.call? ++
    callsOf manufacturerId ((r.handedTo p).move manufacturerId .takeDesired).1 _ = _
  rw [move_handedTo hidle]
  exact (run_continueWith _ r.desired (r.result manufacturerId) _).2

theorem applying_after (hidle : p.applying = none) (r : Round) (manufacturerId : UInt16) :
    (r.after manufacturerId p).applying = none := by
  rw [after_eq hidle]

theorem belief_after (hidle : p.applying = none) (r : Round) (manufacturerId : UInt16) :
    (r.after manufacturerId p).belief =
      (p.belief.depart r.desired).settleAll (r.result manufacturerId) (p.belief.plan r.desired) := by
  rw [after_eq hidle]

/-- The calls of a round are for the tasks planned. -/
theorem call_mem_calls (hidle : p.applying = none) {task : Task} :
    task.call manufacturerId ∈ r.calls manufacturerId p ↔ task ∈ p.belief.plan r.desired := by
  rw [calls_eq hidle, List.mem_map_of_injective (Task.call_injective manufacturerId)]

/-- A service is unregistered if it is installed with other characteristics than desired, or not
desired. -/
theorem unregister_mem_calls (hidle : p.applying = none) {service : Uuid} :
    .unregister service ∈ r.calls manufacturerId p ↔
      ∃ m, p.belief.installed.get? service = some m ∧ r.desired.services.get? service ≠ some m := by
  have hcall : Call.unregister service = (Task.unregister service).call manufacturerId := rfl
  rw [hcall, call_mem_calls hidle, Belief.unregister_mem_plan, Belief.mem_stale]

/-- It is registered if it is desired, and not installed like that. -/
theorem register_mem_calls (hidle : p.applying = none) {service : Uuid} {m : Characteristics} :
    .register service m ∈ r.calls manufacturerId p ↔
      r.desired.services.get? service = some m ∧ p.belief.installed.get? service ≠ some m := by
  have hcall : Call.register service m = (Task.register service m).call manufacturerId := rfl
  rw [hcall, call_mem_calls hidle, Belief.register_mem_plan, Belief.mem_missing]

/-- **What is installed after a round** is desired, and was installed before or could be registered. -/
theorem get?_installed_after (hidle : p.applying = none) (service : Uuid) (m : Characteristics) :
    (r.after manufacturerId p).belief.installed.get? service = some m ↔
      r.desired.services.get? service = some m ∧
        (p.belief.installed.get? service = some m ∨
          (r.answer (.register service m)).isOk = true) := by
  rw [belief_after hidle, Belief.get?_settleAll]
  change (lastSome _ _).or ((p.belief.kept r.desired).get? service) = some m ↔ _
  rcases hlast : lastSome (Belief.registers? (r.result manufacturerId) service)
      (p.belief.plan r.desired) with _ | n
  · -- no call for the service succeeded
    rw [Option.none_or, Belief.get?_kept_eq_some_iff]
    constructor
    · exact fun hkept => ⟨hkept.2, .inl hkept.1⟩
    · rintro ⟨hdesired, hinstalled | hok⟩
      · exact ⟨hinstalled, hdesired⟩
      · by_contra hkept
        have hmissing : p.belief.installed.get? service ≠ some m := fun h => hkept ⟨h, hdesired⟩
        have htask : Task.register service m ∈ p.belief.plan r.desired :=
          Belief.register_mem_plan.mpr (Belief.mem_missing.mpr ⟨hdesired, hmissing⟩)
        cases (lastSome_eq_none_iff.mp hlast _ htask).symm.trans
          (Belief.registers?_eq_some_iff.mpr ⟨rfl, hok⟩)
  · -- the call that succeeded was for what is desired
    obtain ⟨task, htask, hregisters⟩ := exists_of_lastSome hlast
    obtain ⟨rfl, hok⟩ := Belief.registers?_eq_some_iff.mp hregisters
    obtain ⟨hdesired, -⟩ := Belief.mem_missing.mp (Belief.register_mem_plan.mp htask)
    rw [Option.some_or]
    constructor
    · intro heq
      obtain rfl := Option.some.inj heq
      exact ⟨hdesired, .inr hok⟩
    · exact fun h => hdesired.symm.trans h.1

/-- What a round does, between what is believed before and after it. -/
structure Reconciles (r : Round) (before : Belief) (calls : List Call) (after : Belief) : Prop where
  /-- No call is made twice. -/
  once : calls.Nodup
  unregisters : ∀ service, .unregister service ∈ calls ↔
    ∃ m, before.installed.get? service = some m ∧ r.desired.services.get? service ≠ some m
  registers : ∀ service m, .register service m ∈ calls ↔
    r.desired.services.get? service = some m ∧ before.installed.get? service ≠ some m
  /-- Services go before others come. -/
  order : calls.Pairwise fun first second =>
    ∀ service m other, first = .register service m → second ≠ .unregister other
  /-- A service that is desired as it is, is left alone. -/
  spares : ∀ service m, before.installed.get? service = some m →
    r.desired.services.get? service = some m →
    .unregister service ∉ calls ∧ ∀ other, .register service other ∉ calls
  installed : ∀ service m, after.installed.get? service = some m ↔
    r.desired.services.get? service = some m ∧
      (before.installed.get? service = some m ∨ (r.answer (.register service m)).isOk = true)
  desired : ∀ service m, after.installed.get? service = some m →
    r.desired.services.get? service = some m
  complete : (∀ service m, .register service m ∈ calls →
    (r.answer (.register service m)).isOk = true) → after.installed = r.desired.services
  failures : after.failures = before.failures + calls.countP fun call => !(r.answer call).isOk

theorem reconciles (hidle : p.applying = none) (r : Round) (manufacturerId : UInt16) :
    r.Reconciles p.belief (r.calls manufacturerId p) (r.after manufacturerId p).belief := by
  have hdesired (service : Uuid) (m : Characteristics)
      (h : (r.after manufacturerId p).belief.installed.get? service = some m) :
      r.desired.services.get? service = some m := ((get?_installed_after hidle service m).mp h).1
  have hordered := Belief.ordered_plan p.belief r.desired
  refine ⟨?_, fun service => unregister_mem_calls hidle, fun service m => register_mem_calls hidle, ?_,
    fun service m hinstalled hdesired => ⟨?_, fun other => ?_⟩, get?_installed_after hidle, hdesired,
    fun hok => ?_, ?_⟩
  · -- no task is planned twice, and no two tasks make the same call
    rw [calls_eq hidle]
    have hnodup : (p.belief.plan r.desired).Nodup := hordered.imp fun h => h.2
    exact hnodup.map (Task.call_injective manufacturerId)
  · -- stale services go before missing ones come
    rw [calls_eq hidle, List.pairwise_map]
    refine hordered.imp fun {first second} hprecedes service m other hfirst hsecond => ?_
    have hregister : first = .register service m := Task.call_injective manufacturerId hfirst
    have hunregister : second = .unregister other := Task.call_injective manufacturerId hsecond
    have hstage := hprecedes.1
    rw [hregister, hunregister] at hstage
    exact absurd hstage (by simp [Task.stage])
  · rw [unregister_mem_calls hidle]
    rintro ⟨other, hother, hne⟩
    rw [Option.some.inj (hother.symm.trans hinstalled)] at hne
    exact hne hdesired
  · rw [register_mem_calls hidle]
    rintro ⟨hother, hne⟩
    rw [Option.some.inj (hother.symm.trans hdesired)] at hne
    exact hne hinstalled
  · refine Table.ext_get? fun service => Option.ext fun m => ⟨hdesired service m, fun hm => ?_⟩
    rw [get?_installed_after hidle]
    by_cases hinstalled : p.belief.installed.get? service = some m
    · exact ⟨hm, .inl hinstalled⟩
    · exact ⟨hm, .inr (hok service m ((register_mem_calls hidle).mpr ⟨hm, hinstalled⟩))⟩
  · rw [belief_after hidle, Belief.failures_settleAll, calls_eq hidle, List.countP_map]
    rfl

end Round

/-! ## One round after the other -/

/-- The publisher after some rounds. -/
def afterRounds (manufacturerId : UInt16) (p : Publisher) (rounds : List Round) : Publisher :=
  rounds.foldl (fun p r => r.after manufacturerId p) p

/-- The calls of some rounds, with their answers. -/
def answeredIn (manufacturerId : UInt16) :
    Publisher → List Round → List (Call × Except RadioError Unit)
  | _, [] => []
  | p, r :: rest =>
    (r.calls manufacturerId p).map (fun call => (call, r.answer call)) ++
      answeredIn manufacturerId (r.after manufacturerId p) rest

/-- The answer to a call to register the service. -/
def registering? (service : Uuid) : Call × Except RadioError Unit → Option (Except RadioError Unit)
  | (.register other _, result) => if other = service then some result else none
  | _ => none

/-- A service is not installed if the last call to register it failed. -/
def Forgets (answered : List (Call × Except RadioError Unit)) (b : Belief) : Prop :=
  ∀ service e, lastSome (registering? service) answered = some (.error e) →
    b.installed.get? service = none

variable {p : Publisher} {answered : List (Call × Except RadioError Unit)}

theorem registering?_eq_some_iff {service : Uuid} {x : Call × Except RadioError Unit}
    {result : Except RadioError Unit} :
    registering? service x = some result ↔ ∃ m, x = (.register service m, result) := by
  constructor
  · intro h
    rw [registering?.eq_def] at h
    split at h
    · obtain ⟨rfl, heq⟩ := Option.ite_none_right_eq_some.mp h
      obtain rfl := Option.some.inj heq
      exact ⟨_, rfl⟩
    · cases h
  · rintro ⟨m, rfl⟩
    exact if_pos rfl

/-- **What could not be registered is not installed**, as long as no call succeeds. -/
theorem Forgets.round (h : Forgets answered p.belief) (hidle : p.applying = none) (r : Round)
    (manufacturerId : UInt16) :
    Forgets (answered ++ (r.calls manufacturerId p).map fun call => (call, r.answer call))
      (r.after manufacturerId p).belief := by
  intro service e hlast
  rw [Option.eq_none_iff_forall_ne_some]
  intro m hinstalled
  obtain ⟨hdesired, hgot⟩ := (Round.get?_installed_after hidle service m).mp hinstalled
  have hcall : p.belief.installed.get? service ≠ some m →
      (Call.register service m, r.answer (.register service m)) ∈
        (r.calls manufacturerId p).map fun call => (call, r.answer call) :=
    fun hmissing => List.mem_map_of_mem ((Round.register_mem_calls hidle).mpr ⟨hdesired, hmissing⟩)
  rw [lastSome_append] at hlast
  rcases hround : lastSome (registering? service)
      ((r.calls manufacturerId p).map fun call => (call, r.answer call)) with _ | result
  · -- it is not called for in this round, so it would have been installed before
    rw [hround, Option.none_or] at hlast
    have hmissing : p.belief.installed.get? service ≠ some m := by
      rw [h service e hlast]
      exact nofun
    cases (lastSome_eq_none_iff.mp hround _ (hcall hmissing)).symm.trans
      (registering?_eq_some_iff.mpr ⟨m, rfl⟩)
  · -- its last call in this round failed, but what is installed was not missing or could be
    -- registered
    rw [hround, Option.some_or] at hlast
    obtain rfl := Option.some.inj hlast
    obtain ⟨x, hx, hregistering⟩ := exists_of_lastSome hround
    obtain ⟨n, rfl⟩ := registering?_eq_some_iff.mp hregistering
    obtain ⟨call, hmem, heq⟩ := List.mem_map.mp hx
    obtain ⟨rfl, herror⟩ := Prod.mk.inj heq
    obtain ⟨hn, hmissing⟩ := (Round.register_mem_calls hidle).mp hmem
    obtain rfl := Option.some.inj (hn.symm.trans hdesired)
    rcases hgot with hinstalled | hok
    · exact hmissing hinstalled
    · rw [herror] at hok
      cases hok

/-- After a row of rounds the driver is idle. -/
theorem applying_afterRounds (hidle : p.applying = none) (manufacturerId : UInt16)
    (rounds : List Round) : (p.afterRounds manufacturerId rounds).applying = none := by
  induction rounds generalizing p with
  | nil => exact hidle
  | cons r rest ih => exact ih (Round.applying_after hidle r manufacturerId)

/-- After a row of rounds, what the last call failed to register is not installed. -/
theorem Forgets.rounds (h : Forgets answered p.belief) (hidle : p.applying = none)
    (manufacturerId : UInt16) (rounds : List Round) :
    Forgets (answered ++ answeredIn manufacturerId p rounds)
      (p.afterRounds manufacturerId rounds).belief := by
  induction rounds generalizing p answered with
  | nil => rwa [answeredIn, List.append_nil]
  | cons r rest ih =>
    rw [answeredIn, ← List.append_assoc]
    exact ih (h.round hidle r manufacturerId) (Round.applying_after hidle r manufacturerId)

/-- **Each round makes just the calls it takes**, whatever was installed before and whichever calls
failed. A service whose last register call failed is registered again by the next round that desires
it. -/
theorem rounds_are_exact (manufacturerId : UInt16) (hidle : p.applying = none)
    (earlier : List Round) (r : Round) :
    let q := p.afterRounds manufacturerId earlier
    r.Reconciles q.belief (r.calls manufacturerId q) (r.after manufacturerId q).belief ∧
      (r.after manufacturerId q).applying = none ∧
      ∀ service m e, r.desired.services.get? service = some m →
        lastSome (registering? service) (answeredIn manufacturerId p earlier) = some (.error e) →
        .register service m ∈ r.calls manufacturerId q := by
  intro q
  have hq : q.applying = none := applying_afterRounds hidle manufacturerId earlier
  have hnothing : Forgets [] p.belief := by
    intro service e hlast
    cases hlast
  refine ⟨r.reconciles hq manufacturerId, Round.applying_after hq r manufacturerId,
    fun service m e hm hlast => ?_⟩
  rw [Round.register_mem_calls hq, hnothing.rounds hidle manufacturerId earlier service e hlast]
  exact ⟨hm, nofun⟩

/-- A state in which the first of two services has other characteristics than at first. -/
def firstChanged : Desired :=
  ⟨1, none, .ofList [(.ofNat 1, .ofList [(.ofNat 3, [7])]), (.ofNat 2, ∅)]⟩

/-- The radio refuses to register it anew. -/
def refusedOnce : Round := ⟨firstChanged, fun call =>
  match call with
  | .register _ _ => .error (.gattServer "busy")
  | _ => .ok ()⟩

/-- The service that was refused is registered again, and the other one is left alone. -/
theorem rounds_are_exact_refusedOnce :
    let p : Publisher :=
      { initial with belief := ⟨.ofList [(.ofNat 1, ∅), (.ofNat 2, ∅)], false, 0⟩ }
    let q := p.afterRounds 0 [refusedOnce]
    refusedOnce.calls 0 p =
        [.unregister (.ofNat 1), .register (.ofNat 1) (.ofList [(.ofNat 3, [7])])] ∧
      q.belief.failures = 1 ∧
      .register (.ofNat 1) (.ofList [(.ofNat 3, [7])]) ∈
        Round.calls ⟨firstChanged, fun _ => .ok ()⟩ 0 q := by
  intro p q
  have hagain := (rounds_are_exact 0 (p := p) rfl [refusedOnce] ⟨firstChanged, fun _ => .ok ()⟩).2.2
  refine ⟨by decide +kernel, by decide +kernel, ?_⟩
  exact hagain (.ofNat 1) (.ofList [(.ofNat 3, [7])]) (.gattServer "busy") rfl (by decide +kernel)

end Publisher

end Nearby
