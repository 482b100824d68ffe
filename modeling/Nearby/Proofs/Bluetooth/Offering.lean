import Mathlib.Data.List.Induction
import Nearby.Bluetooth.Peripheral
import Nearby.Proofs.Latest
import Nearby.Proofs.Table

/-!
# What a peripheral offers

A call about a service first changes the services that are recorded. Then the application that
holds them is taken back, and another one is registered. If the daemon refuses the other one, the
call fails and nothing is offered any more, but what is recorded stays as the call would have it.

So the next service that is registered with success is offered with all that was *asked* for, by
calls that failed as well, and not with what was *granted*: a service that could not be registered is
offered after all, and one that could not be unregistered is not (`Session.offers_what_was_asked`).
-/

namespace Nearby.Bluetooth

/-! ## Dialogues -/

namespace Dialogue

/-- A dialogue or an exchange goes on as long as nothing fails. -/
theorem run_bind {ε α β : Type} (d : ExceptT ε (StateM Daemon) α)
    (next : α → ExceptT ε (StateM Daemon) β) (b : Daemon) :
    (d >>= next).run b = match d.run b with
      | (.ok a, c) => (next a).run c
      | (.error e, c) => (.error e, c) := by
  change StateT.run (ExceptT.run (d >>= next)) b = _
  rw [ExceptT.run_bind, StateT.run_bind]
  rcases hd : d.run b with ⟨_ | _, c⟩
  · rw [StateT.run, hd]
    rfl
  · rw [StateT.run, hd]
    rfl

/-- One that ends well has gone on to its end. -/
theorem exists_of_run_bind {ε α β : Type} {d : ExceptT ε (StateM Daemon) α}
    {next : α → ExceptT ε (StateM Daemon) β} {b c : Daemon} {y : β}
    (h : (d >>= next).run b = (.ok y, c)) :
    ∃ x between, d.run b = (.ok x, between) ∧ (next x).run between = (.ok y, c) := by
  rw [run_bind] at h
  rcases hd : d.run b with ⟨_ | x, between⟩
  · rw [hd] at h
    cases h
  · rw [hd] at h
    exact ⟨x, between, rfl, h⟩

/-- A method that fails does so before anything else. -/
theorem run_call (m : Method) (b : Daemon) :
    (call m).run b = ((b.fault? m).elim (.ok ()) .error, b) := by
  have hget : (get : Dialogue Daemon).run b = (.ok b, b) := rfl
  rw [call, run_bind, hget]
  dsimp only
  rcases b.fault? m with _ | failure
  · rfl
  · rfl

theorem run_reporting {α : Type} (error : Failure → RadioError) (d : Dialogue α) (b : Daemon) :
    (reporting error d).run b = ((d.run b).1.mapError error, (d.run b).2) := rfl

end Dialogue

namespace Peripheral

/-! ## Applications -/

/-- The daemon with another application registered. -/
def accepting (adapter : String) (application : Application) (b : Daemon) : Daemon :=
  { b with
    applications := b.applications.insert b.nextRegistration application
    nextRegistration := b.nextRegistration + 1
    log := b.log.push (.registerApplication adapter) }

theorem run_submitApplication (adapter : String) (application : Application) (b : Daemon) :
    (submitApplication adapter application).run b =
      match b.fault? .registerApplication with
      | some failure => (.error failure, b)
      | none => (.ok b.nextRegistration, accepting adapter application b) := by
  rw [submitApplication, Dialogue.run_bind, Dialogue.run_call]
  rcases b.fault? .registerApplication with _ | failure
  · rfl
  · rfl

theorem faults_withdrawApplication (registration : Option Registration) (b : Daemon) :
    (withdrawApplication registration b).faults = b.faults := by
  unfold withdrawApplication
  split
  · rfl
  · rfl

/-- An application that is taken back is gone, and the others stay. -/
theorem get?_withdrawApplication {b : Daemon}
    (h : b.faults.lookup .unregisterApplication = none)
    (registration : Option Registration) (r : Registration) :
    (withdrawApplication registration b).applications.get? r =
      if registration = some r then none else b.applications.get? r := by
  cases registration with
  | none => rfl
  | some other =>
    simp only [withdrawApplication, Daemon.fault?, h, Table.get?_erase, Option.some.injEq, eq_comm]

/-- The application registered before is taken back in any case. If there are services, the daemon
accepts another one or refuses it. -/
theorem serve_cases (p : Peripheral) (b : Daemon) :
    let c := withdrawApplication p.application b
    p.services = ∅ ∧ p.serve b = (.ok (), { p with application := none }, c) ∨
      (∃ e, (b.fault? .registerApplication).isSome = true ∧
        p.serve b = (.error e, { p with application := none }, c)) ∨
      p.serve b = (.ok (), { p with application := some c.nextRegistration },
        accepting p.adapter p.services c) := by
  intro c
  -- taking an application back does not change which methods fail
  have hfault : c.fault? .registerApplication = b.fault? .registerApplication := by
    rw [Daemon.fault?, faults_withdrawApplication, Daemon.fault?]
  by_cases hempty : p.services.isEmpty = true
  · refine .inl ⟨Table.eq_empty_of_isEmpty hempty, ?_⟩
    rw [serve, if_pos hempty]
  · right
    rw [serve, if_neg hempty]
    dsimp only
    rw [Dialogue.run_reporting, run_submitApplication, hfault]
    rcases b.fault? .registerApplication with _ | failure
    · exact .inr rfl
    · exact .inl ⟨_, rfl, rfl⟩

/-! ## Calls -/

/-- A call about a service. -/
inductive Request
  | register (service : Uuid) (characteristics : Characteristics)
  | unregister (service : Uuid)

namespace Request

/-- The service that a call is about. -/
def service : Request → Uuid
  | .register service _ => service
  | .unregister service => service

/-- What is to be offered of the service, if anything. -/
def wanted : Request → Option Characteristics
  | .register _ characteristics => some characteristics
  | .unregister _ => none

/-- The services to offer, as a call would have them. -/
def record (services : Application) : Request → Application
  | .register service characteristics => services.insert service characteristics
  | .unregister service => services.erase service

/-- Makes the call. -/
def perform (p : Peripheral) (b : Daemon) : Request → Except RadioError Unit × Peripheral × Daemon
  | .register service characteristics => p.register service characteristics b
  | .unregister service => p.unregister service b

theorem get?_record (r : Request) (services : Application) (u : Uuid) :
    (r.record services).get? u = if u = r.service then r.wanted else services.get? u := by
  cases r with
  | register service characteristics => exact services.get?_insert service u characteristics
  | unregister service => exact services.get?_erase service u

/-- What is wanted already changes nothing. -/
theorem record_eq_self_iff (r : Request) (services : Application) :
    r.record services = services ↔ services.get? r.service = r.wanted := by
  constructor
  · intro h
    rw [← h, get?_record, if_pos rfl]
  · intro h
    refine Table.ext_get? fun u => ?_
    rw [get?_record]
    split
    · rename_i hu
      rw [hu, h]
    · rfl

/-- All but a call to unregister what is not recorded offer the services anew. -/
theorem perform_eq (r : Request) (p : Peripheral) (b : Daemon) :
    r.perform p b =
      if r.wanted = none ∧ p.services.get? r.service = none then (.ok (), p, b)
      else { p with services := r.record p.services }.serve b := by
  cases r with
  | register service characteristics => rfl
  | unregister service =>
    change p.unregister service b =
      if none = none ∧ p.services.get? service = none then _ else _
    rcases h : p.services.get? service with _ | characteristics
    · simp [Peripheral.unregister, Table.contains, h]
    · simp [Peripheral.unregister, Table.contains, h, record]

end Request

/-! ## What was asked and what was granted -/

/-- The last call about a service, and what it returned. -/
def lastCall? (u : Uuid) (log : List (Request × Except RadioError Unit)) :
    Option (Request × Except RadioError Unit) :=
  lastSome (fun call => if call.1.service = u then some call else none) log

/-- What the last call about a service wanted. -/
def asked (log : List (Request × Except RadioError Unit)) (u : Uuid) : Option Characteristics :=
  (lastCall? u log).bind fun call => call.1.wanted

/-- What the last call about a service wanted that succeeded. -/
def granted (log : List (Request × Except RadioError Unit)) (u : Uuid) : Option Characteristics :=
  asked (log.filter fun call => call.2.isOk) u

section Log

variable {log : List (Request × Except RadioError Unit)} {call : Request × Except RadioError Unit}
  {u : Uuid}

theorem lastCall?_concat : lastCall? u (log ++ [call]) =
    if call.1.service = u then some call else lastCall? u log := by
  rw [lastCall?, lastSome_append, lastSome_cons]
  split
  · rfl
  · rfl

theorem asked_concat :
    asked (log ++ [call]) u = if call.1.service = u then call.1.wanted else asked log u := by
  rw [asked, lastCall?_concat]
  split
  · rfl
  · rfl

theorem granted_concat : granted (log ++ [call]) u =
    if call.2.isOk = true ∧ call.1.service = u then call.1.wanted else granted log u := by
  rw [granted, List.filter_append, List.filter_singleton]
  by_cases hok : call.2.isOk = true
  · rw [hok, cond_true, asked_concat, granted]
    simp
  · rw [Bool.not_eq_true] at hok
    simp [hok, granted]

/-- **What was asked and what was granted differ** exactly if the last call failed and wanted a
change. -/
theorem asked_ne_granted_iff : asked log u ≠ granted log u ↔
    ∃ r e, lastCall? u log = some (r, .error e) ∧ r.wanted ≠ granted log u := by
  induction log using List.reverseRecOn with
  | nil => simp [asked, granted, lastCall?, lastSome]
  | append_singleton log call ih =>
    obtain ⟨r, result⟩ := call
    rw [asked_concat, granted_concat, lastCall?_concat]
    by_cases hu : r.service = u
    · cases result with
      | ok _ => simp [hu, Except.isOk, Except.toBool]
      | error e => simp [hu, Except.isOk, Except.toBool]
    · simpa [hu] using ih

end Log

/-! ## Sessions -/

/-- A call, with the methods of the daemon that fail meanwhile. -/
structure Attempt where
  request : Request
  faults : List (Method × Failure)

/-- A peripheral in use, with the calls that were made so far and what they returned. -/
structure Session where
  peripheral : Peripheral
  daemon : Daemon
  log : List (Request × Except RadioError Unit)

namespace Session

/-- A peripheral that was just opened. -/
def opened (adapter : String) (b : Daemon) : Session := ⟨⟨adapter, ∅, none, none⟩, b, []⟩

/-- So every peripheral begins. -/
theorem eq_opened_of_acquire {p : Peripheral} {b c : Daemon} (h : acquire.run b = (.ok p, c)) :
    (⟨p, c, []⟩ : Session) = opened p.adapter c := by
  rw [acquire] at h
  obtain ⟨_, _, -, h⟩ := Dialogue.exists_of_run_bind h
  obtain ⟨name, _, -, h⟩ := Dialogue.exists_of_run_bind h
  obtain ⟨_, _, -, h⟩ := Dialogue.exists_of_run_bind h
  -- the adapter may have to be turned on
  split at h
  · obtain ⟨_, _, -, h⟩ := Dialogue.exists_of_run_bind h
    cases h
    rfl
  · cases h
    rfl

/-- The services that are recorded as those to offer. -/
def recorded (s : Session) : Application := s.peripheral.services

/-- The services that are offered. -/
def offered (s : Session) : Application :=
  (s.peripheral.application.bind s.daemon.applications.get?).getD ∅

/-- A call, as the peripheral and the daemon answer it. -/
def answer (s : Session) (a : Attempt) : Except RadioError Unit × Peripheral × Daemon :=
  a.request.perform s.peripheral { s.daemon with faults := a.faults }

/-- What a call returns. -/
def result (s : Session) (a : Attempt) : Except RadioError Unit := (s.answer a).1

/-- The session after a call. -/
def after (s : Session) (a : Attempt) : Session :=
  ⟨(s.answer a).2.1, (s.answer a).2.2, s.log ++ [(a.request, s.result a)]⟩

/-- The session after calls. -/
def run (s : Session) (attempts : List Attempt) : Session := attempts.foldl after s

variable {s : Session} {a : Attempt}

/-- The daemon as a call finds it, once the application was taken back. -/
def cleared (s : Session) (a : Attempt) : Daemon :=
  withdrawApplication s.peripheral.application { s.daemon with faults := a.faults }

/-- The peripheral with what a call asks for on record. -/
def holding (s : Session) (a : Attempt) (application : Option Registration) : Peripheral :=
  { s.peripheral with services := a.request.record s.recorded, application }

/-- **What a call can do**: nothing, if it unregisters what is not recorded; offer nothing any more,
whether it fails or not; or offer all services that are then recorded. -/
theorem answer_cases (s : Session) (a : Attempt) :
    a.request.wanted = none ∧ a.request.record s.recorded = s.recorded ∧
        s.answer a = (.ok (), s.peripheral, { s.daemon with faults := a.faults }) ∨
      a.request.record s.recorded = ∅ ∧ s.answer a = (.ok (), s.holding a none, s.cleared a) ∨
      (∃ e, (a.faults.lookup .registerApplication).isSome = true ∧
        s.answer a = (.error e, s.holding a none, s.cleared a)) ∨
      s.answer a = (.ok (), s.holding a (some (s.cleared a).nextRegistration),
        accepting s.peripheral.adapter (a.request.record s.recorded) (s.cleared a)) := by
  rw [answer, Request.perform_eq]
  split
  · rename_i hidle
    obtain ⟨hwanted, hnone⟩ := hidle
    exact .inl ⟨hwanted, (a.request.record_eq_self_iff _).mpr (hnone.trans hwanted.symm), rfl⟩
  · exact .inr (serve_cases (s.holding a s.peripheral.application) _)

/-! ### What is offered -/

/-- What is recorded and what is offered, as the calls so far have it. -/
structure Sound (s : Session) : Prop where
  recorded : ∀ u, s.recorded.get? u = asked s.log u
  registered : ∀ r, s.peripheral.application = some r →
    s.daemon.applications.get? r = some s.recorded

theorem sound_opened (adapter : String) (b : Daemon) : (opened adapter b).Sound :=
  ⟨fun _ => rfl, fun _ h => by cases h⟩

/-- Whatever a call returns, it records what it asks for. -/
theorem recorded_after (s : Session) (a : Attempt) :
    (s.after a).recorded = a.request.record s.recorded := by
  obtain ⟨-, hsame, h⟩ | ⟨-, h⟩ | ⟨e, -, h⟩ | h := answer_cases s a
  · rw [hsame, recorded, after, h, recorded]
  all_goals
    rw [recorded, after, h]
    rfl

theorem Sound.after (h : s.Sound) (a : Attempt) : (s.after a).Sound := by
  constructor
  · intro u
    rw [recorded_after, Request.get?_record, Session.after, asked_concat, h.recorded]
    simp only [eq_comm]
  · intro r hr
    rw [recorded_after]
    rw [Session.after] at hr ⊢
    obtain ⟨-, hsame, h'⟩ | ⟨-, h'⟩ | ⟨e, -, h'⟩ | h' := answer_cases s a
    · rw [h'] at hr ⊢
      rw [hsame]
      exact h.registered r hr
    · rw [h'] at hr
      cases hr
    · rw [h'] at hr
      cases hr
    · rw [h'] at hr ⊢
      cases hr
      exact Table.get?_insert_self ..

theorem Sound.run (h : s.Sound) (attempts : List Attempt) : (s.run attempts).Sound := by
  induction attempts generalizing s with
  | nil => exact h
  | cons a rest ih => exact ih (h.after a)

/-- A call fails only if the daemon refuses the application, and then nothing is offered. -/
theorem offered_of_error {e : RadioError} (h : s.result a = .error e) :
    (a.faults.lookup .registerApplication).isSome = true ∧ (s.after a).offered = ∅ := by
  obtain ⟨-, -, h'⟩ | ⟨-, h'⟩ | ⟨e', hfault, h'⟩ | h' := answer_cases s a
  · rw [result, h'] at h
    cases h
  · rw [result, h'] at h
    cases h
  · refine ⟨hfault, ?_⟩
    rw [offered, Session.after, h']
    rfl
  · rw [result, h'] at h
    cases h

/-- A service that is registered with success is offered with all others that are recorded. -/
theorem Sound.offered_of_ok (h : s.Sound) (hwanted : a.request.wanted ≠ none)
    (hok : s.result a = .ok ()) : (s.after a).offered = (s.after a).recorded := by
  have hregistered := (h.after a).registered
  obtain ⟨hidle, -⟩ | ⟨hempty, h'⟩ | ⟨e, -, h'⟩ | h' := answer_cases s a
  · exact absurd hidle hwanted
  · rw [recorded_after, hempty, offered, Session.after, h']
    rfl
  · rw [result, h'] at hok
    cases hok
  · have happlication : (s.after a).peripheral.application =
        some (s.cleared a).nextRegistration := by
      rw [Session.after, h']
      rfl
    rw [offered, happlication, Option.bind_some, hregistered _ happlication, Option.getD_some]

/-- The daemon has no application but the one the peripheral holds and those from before. -/
def OffersOnly (before : Table Registration Application) (s : Session) : Prop :=
  ∀ r application, s.daemon.applications.get? r = some application →
    s.peripheral.application = some r ∨ before.get? r = some application

theorem OffersOnly.after {before : Table Registration Application} (h : s.OffersOnly before)
    (hfree : a.faults.lookup .unregisterApplication = none) : (s.after a).OffersOnly before := by
  -- what is there once the application was taken back was there from the start
  have hcleared {r : Registration} {application : Application}
      (hr : (s.cleared a).applications.get? r = some application) :
      before.get? r = some application := by
    rw [cleared, get?_withdrawApplication hfree] at hr
    split at hr
    · cases hr
    · rename_i hother
      exact (h r application hr).resolve_left hother
  intro r application hr
  rw [Session.after] at hr ⊢
  obtain ⟨-, -, h'⟩ | ⟨-, h'⟩ | ⟨e, -, h'⟩ | h' := answer_cases s a
  · rw [h'] at hr ⊢
    exact h r application hr
  · rw [h'] at hr
    exact .inr (hcleared hr)
  · rw [h'] at hr
    exact .inr (hcleared hr)
  · rw [h'] at hr ⊢
    rw [accepting, Table.get?_insert] at hr
    split at hr
    · rename_i hnext
      exact .inl (congrArg some hnext.symm)
    · exact .inr (hcleared hr)

theorem OffersOnly.run {before : Table Registration Application} (h : s.OffersOnly before)
    {attempts : List Attempt}
    (hfree : ∀ x ∈ attempts, x.faults.lookup .unregisterApplication = none) :
    (s.run attempts).OffersOnly before := by
  induction attempts generalizing s with
  | nil => exact h
  | cons a rest ih =>
    obtain ⟨ha, hrest⟩ := List.forall_mem_cons.mp hfree
    exact ih (h.after ha) hrest

/-- **A peripheral offers all that it was asked for** since it was acquired, whenever a call that asks
for a service has succeeded. -/
theorem get?_offered_of_acquire {p : Peripheral} {b c : Daemon} (h : acquire.run b = (.ok p, c))
    (attempts : List Attempt) (a : Attempt) :
    let s := (⟨p, c, []⟩ : Session).run attempts
    a.request.wanted ≠ none → s.result a = .ok () →
      ∀ u, (s.after a).offered.get? u = asked (s.after a).log u := by
  intro s hwanted hok u
  have hacquired : (⟨p, c, []⟩ : Session).Sound := by
    rw [eq_opened_of_acquire h]
    exact sound_opened p.adapter c
  have hs : s.Sound := hacquired.run attempts
  rw [hs.offered_of_ok hwanted hok, (hs.after a).recorded]

/-- **What is offered is what was asked for**, whatever was granted. A call records what it asks for
even if it fails, and then nothing is offered. As soon as a service is registered with success, all
that was asked for is offered with it: that is what was granted, but for the services of which the
last call failed and wanted a change. -/
theorem offers_what_was_asked (adapter : String) (b : Daemon) (attempts : List Attempt)
    (a : Attempt) :
    let s := (opened adapter b).run attempts
    let t := s.after a
    t.recorded = a.request.record s.recorded ∧
      (∀ e, s.result a = .error e → (a.faults.lookup .registerApplication).isSome = true ∧
        t.offered = ∅ ∧
        (t.recorded = s.recorded ↔ s.recorded.get? a.request.service = a.request.wanted)) ∧
      (∀ service m, a.request = .register service m → s.result a = .ok () →
        ∀ u, t.offered.get? u = asked t.log u ∧
          (t.offered.get? u ≠ granted t.log u ↔
            ∃ r e, lastCall? u t.log = some (r, .error e) ∧ r.wanted ≠ granted t.log u)) ∧
      ((∀ x ∈ attempts ++ [a], x.faults.lookup .unregisterApplication = none) →
        ∀ application ∈ t.daemon.applications.values,
          application = t.offered ∨ application ∈ b.applications.values) := by
  intro s t
  have hs : s.Sound := (sound_opened adapter b).run attempts
  have ht : t.Sound := hs.after a
  refine ⟨recorded_after s a, fun e he => ?_, fun service m hrequest hok u => ?_, fun hfree => ?_⟩
  · obtain ⟨hfault, hoffered⟩ := offered_of_error he
    refine ⟨hfault, hoffered, ?_⟩
    rw [recorded_after, Request.record_eq_self_iff]
  · have hwanted : a.request.wanted ≠ none := by
      rw [hrequest]
      nofun
    rw [hs.offered_of_ok hwanted hok, ht.recorded]
    exact ⟨rfl, asked_ne_granted_iff⟩
  · have hopened : (opened adapter b).OffersOnly b.applications := fun _ _ h => .inr h
    have hthen : (attempts ++ [a]).foldl Session.after (opened adapter b) = t :=
      List.foldl_append
    have honly : t.OffersOnly b.applications := hthen ▸ hopened.run hfree
    intro application happlication
    obtain ⟨r, hr⟩ := Table.mem_values.mp happlication
    refine (honly r application hr).imp (fun hheld => ?_) fun hbefore => ?_
    · rw [offered, hheld, Option.bind_some, hr, Option.getD_some]
    · exact Table.mem_values.mpr ⟨r, hbefore⟩

/-- The daemon refuses to register a service. -/
def refused : Attempt :=
  ⟨.register (.ofNat 1) (.ofList [(.ofNat 3, [1])]),
    [(.registerApplication, ⟨"org.bluez.Error.Failed", "busy"⟩)]⟩

/-- A call for another service, which the daemon accepts. -/
def accepted : Attempt := ⟨.register (.ofNat 2) (.ofList [(.ofNat 3, [2])]), []⟩

/-- The service that was refused is offered with the other one. -/
theorem offers_what_was_asked_refused :
    let s := (opened "hci0" .empty).run [refused]
    let t := s.after accepted
    s.offered = ∅ ∧ s.result accepted = .ok () ∧
      t.offered.get? (.ofNat 1) = some (.ofList [(.ofNat 3, [1])]) ∧
      t.offered.get? (.ofNat 1) ≠ granted t.log (.ofNat 1) ∧
      ∀ application ∈ t.daemon.applications.values, application = t.offered := by
  intro s t
  have haccepted : s.result accepted = .ok () := rfl
  obtain ⟨-, -, hoffered, honly⟩ := offers_what_was_asked "hci0" .empty [refused] accepted
  obtain ⟨hasked, hgranted⟩ := hoffered _ _ rfl haccepted (.ofNat 1)
  have hfree : ∀ x ∈ [refused] ++ [accepted], x.faults.lookup .unregisterApplication = none := by
    simp [refused, accepted]
  refine ⟨by decide +kernel, haccepted, hasked.trans (by decide +kernel), hgranted.mpr ?_, ?_⟩
  · exact ⟨refused.request, _, rfl, by decide +kernel⟩
  · exact fun application h => (honly hfree application h).resolve_right List.not_mem_nil

/-- **A call that fails does not leave the services as they were**, and a service may be offered
about which no call ever succeeded. -/
theorem not_always_granted :
    (¬∀ (adapter : String) (b : Daemon) (attempts : List Attempt) (a : Attempt),
      let s := (opened adapter b).run attempts
      ∀ e, s.result a = .error e → (s.after a).recorded = s.recorded) ∧
    ¬∀ (adapter : String) (b : Daemon) (attempts : List Attempt) (a : Attempt),
      let s := (opened adapter b).run attempts
      ∀ service m, a.request = .register service m → s.result a = .ok () →
        ∀ u, ((s.after a).offered.get? u).isSome = true →
          ∃ call ∈ (s.after a).log, call.1.service = u ∧ call.2 = .ok () := by
  constructor
  · intro hleft
    have hsame := hleft "hci0" .empty [] refused _ rfl
    revert hsame
    decide +kernel
  · intro hregistered
    obtain ⟨call, hcall, hservice, hok⟩ :=
      hregistered "hci0" .empty [refused] accepted _ _ rfl rfl (.ofNat 1) (by decide +kernel)
    have hfailed : ∀ call ∈ (((opened "hci0" .empty).run [refused]).after accepted).log,
        call.1.service = .ofNat 1 → call.2.isOk = false := by
      decide +kernel
    have hnot := hfailed call hcall hservice
    rw [hok] at hnot
    cases hnot

end Session

end Peripheral

end Nearby.Bluetooth
