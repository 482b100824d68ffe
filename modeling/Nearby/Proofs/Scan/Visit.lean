import Nearby.Proofs.Scan.Fetch
import Nearby.Proofs.Table

/-!
# Visits to a peer

A fetch goes from call to call as it is answered. A `Visit` holds the answers of a peer to all of its
calls, and no link is lost meanwhile. Then the fetch comes to an end, and there is one thing only that
it can come to (`Visit.endsWith_begin`): the readings, where each read that failed has left a gap.

What these readings are does not depend on how the peer lists its services. If it serves a table of
services, the readings are that table with the gaps (`Visit.IsTo.readings_eq`).
-/

namespace Nearby.Scan

/-- What a peer answers to a fetch: the services found on it, and what comes of each read. -/
structure Visit where
  found : List RemoteService
  read : Target → Except RadioError Bytes

namespace Visit

/-- The answer to a call. -/
def answer (v : Visit) : Call → Answer
  | .discover _ => .services (.ok v.found)
  | .read _ service characteristic => .value (v.read ⟨service, characteristic⟩)
  | _ => .done (.ok ())

/-- No read ends with the loss of the link. -/
def KeepsLink (v : Visit) : Prop :=
  ∀ target ∈ targets v.found, ∀ e, v.read target = .error e → e.isLinkLoss = false

/-- True if a characteristic can be read. -/
def reads (v : Visit) (service characteristic : Uuid) : Bool :=
  match v.read ⟨service, characteristic⟩ with
  | .ok _ => true
  | .error _ => false

/-- Adds what comes of a read. -/
def take (v : Visit) (readings : Readings) (target : Target) : Readings :=
  match v.read target with
  | .ok value => readings.record target value
  | .error _ => readings

/-- Everything that can be read. -/
def readings (v : Visit) : Readings := (targets v.found).foldl v.take ∅

/-- What a turn comes to, with the answers of a visit. -/
inductive EndsWith (v : Visit) (id : FetchId) : Fetch.Turn → Outcome → Prop
  | ended {turn : Fetch.Turn} {phases : List Report} {outcome : Outcome} (next : turn.next = none)
    (reports : turn.reports = phases ++ [.finished outcome]) : EndsWith v id turn outcome
  | goesOn {turn turn' : Fetch.Turn} {f : Fetch} {call : Call} {outcome : Outcome}
    (next : turn.next = some (f, call)) (resume : f.resume id (v.answer call) = some turn')
    (rest : EndsWith v id turn' outcome) : EndsWith v id turn outcome

/-! ## What a fetch comes to -/

variable {v : Visit} {id : FetchId}

/-- A turn that was the last tells how the visit ends. -/
theorem endsWith_of_ended {turn : Fetch.Turn} {phases : List Report} {outcome : Outcome}
    (hnext : turn.next = none) (hreports : turn.reports = phases ++ [.finished outcome])
    (other : Outcome) : v.EndsWith id turn other ↔ other = outcome := by
  constructor
  · intro h
    cases h with
    | ended _ reports =>
      have hlast := congrArg List.getLast? (reports.symm.trans hreports)
      rw [List.getLast?_concat, List.getLast?_concat] at hlast
      cases hlast
      rfl
    | goesOn next => cases hnext.symm.trans next
  · rintro rfl
    exact .ended hnext hreports

/-- A visit ends as it does once the next answer has come. -/
theorem endsWith_of_goesOn {turn turn' : Fetch.Turn} {f : Fetch} {call : Call}
    (hnext : turn.next = some (f, call)) (hresume : f.resume id (v.answer call) = some turn')
    (outcome : Outcome) : v.EndsWith id turn outcome ↔ v.EndsWith id turn' outcome := by
  constructor
  · intro h
    cases h with
    | ended next => cases hnext.symm.trans next
    | goesOn next resume rest =>
      cases hnext.symm.trans next
      cases hresume.symm.trans resume
      exact rest
  · exact .goesOn hnext hresume

/-- A fetch reads what is left to read, and leaves out what cannot be read. What the turn reports
before that does not matter. -/
theorem endsWith_proceed {ts : List Target}
    (hkeeps : ∀ t ∈ ts, ∀ e, v.read t = .error e → e.isLinkLoss = false) (f : Fetch)
    (warnings : List Warning) {turn : Fetch.Turn} (phases : List Report)
    (hnext : turn.next = (f.proceed id warnings ts).next)
    (hreports : turn.reports = phases ++ (f.proceed id warnings ts).reports) (outcome : Outcome) :
    v.EndsWith id turn outcome ↔ outcome = .ok (ts.foldl v.take f.readings) := by
  induction ts generalizing f warnings turn phases with
  | nil => exact endsWith_of_ended hnext hreports outcome
  | cons t rest ih =>
    obtain ⟨ht, hrest⟩ := List.forall_mem_cons.mp hkeeps
    let g : Fetch := { f with stage := .reading t rest }
    let call : Call := .read id t.service t.characteristic
    rw [List.foldl_cons, take]
    rcases hread : v.read t with e | value
    · have hresume : g.resume id (v.answer call) =
          some (g.proceed id [.readSkipped t.characteristic g.peer e] rest) := by
        rw [answer, hread]
        exact if_neg (by simp [ht e hread])
      rw [endsWith_of_goesOn hnext hresume]
      exact ih hrest g _ [] rfl rfl
    · have hresume : g.resume id (v.answer call) =
          some (Fetch.proceed { g with readings := g.readings.record t value } id [] rest) := by
        rw [answer, hread]
        rfl
      rw [endsWith_of_goesOn hnext hresume]
      exact ih hrest { g with readings := g.readings.record t value } _ [] rfl rfl

/-- **A fetch comes to the readings of the visit**, and to nothing else, as long as the link holds. -/
theorem endsWith_begin (hkeeps : v.KeepsLink) (peer : RadioId) (epoch : Nat) (outcome : Outcome) :
    v.EndsWith id ((Fetch.new peer epoch).begin id) outcome ↔ outcome = .ok v.readings := by
  -- the peer is connected to, and its services are discovered
  rw [endsWith_of_goesOn rfl rfl, endsWith_of_goesOn rfl rfl]
  refine endsWith_proceed hkeeps { Fetch.new peer epoch with stage := .discovering } []
    [.phase .reading] ?_ ?_ outcome
  · rfl
  · rfl

/-! ## Readings as a table of values -/

/-- The value that was read of a characteristic. -/
def look (readings : Readings) (target : Target) : Option Bytes :=
  (readings.get? target.service).bind fun m => m.get? target.characteristic

/-- No service is listed of which nothing was read. -/
def IsTight (readings : Readings) : Prop := ∀ service, readings.get? service ≠ some ∅

/-- Tight readings are equal as soon as they have the same values. -/
theorem ext_look {a b : Readings} (ha : IsTight a) (hb : IsTight b) (h : ∀ t, look a t = look b t) :
    a = b := by
  -- a service that only one of them lists would have nothing in it
  have hempty {r : Readings} {service : Uuid} {m : Characteristics} (hm : r.get? service = some m)
      (hnone : ∀ u, look r ⟨service, u⟩ = none) : r.get? service = some ∅ := by
    rw [hm]
    refine congrArg some (Table.ext_get? fun u => ?_)
    have hu := hnone u
    rw [look, hm] at hu
    exact hu
  refine Table.ext_get? fun service => ?_
  rcases hma : a.get? service with _ | m
  · rcases hmb : b.get? service with _ | n
    · rfl
    · refine absurd (hempty hmb fun u => ?_) (hb service)
      rw [← h, look, hma]
      rfl
  · rcases hmb : b.get? service with _ | n
    · refine absurd (hempty hma fun u => ?_) (ha service)
      rw [h, look, hmb]
      rfl
    · refine congrArg some (Table.ext_get? fun u => ?_)
      have hu := h ⟨service, u⟩
      rw [look, look, hma, hmb] at hu
      exact hu

/-- A value that is recorded is found, and all else is as it was. -/
theorem look_record (r : Readings) (target t : Target) (value : Bytes) :
    look (r.record target value) t = if t = target then some value else look r t := by
  rw [look, Readings.record]
  by_cases ht : t = target
  · rw [if_pos ht, ht, Table.get?_insert_self]
    exact Table.get?_insert_self ..
  rw [if_neg ht, look]
  by_cases hservice : t.service = target.service
  · have hu : t.characteristic ≠ target.characteristic := by
      intro hu
      cases t
      cases target
      cases hservice
      cases hu
      exact ht rfl
    rw [hservice, Table.get?_insert_self]
    change Table.get? (Table.insert _ target.characteristic value) t.characteristic = _
    rw [Table.get?_insert_of_ne _ hu]
    rcases r.get? target.service with _ | m
    · rfl
    · rfl
  · rw [Table.get?_insert_of_ne _ hservice]

/-- A value that was read is found. -/
theorem look_take (r : Readings) (target t : Target) :
    look (v.take r target) t =
      if t = target then ((v.read t).toOption).or (look r t) else look r t := by
  rw [take]
  rcases hread : v.read target with e | value
  · by_cases ht : t = target
    · rw [if_pos ht, ht, hread]
      rfl
    · rw [if_neg ht]
  · dsimp only
    rw [look_record]
    by_cases ht : t = target
    · rw [if_pos ht, if_pos ht, ht, hread]
      rfl
    · rw [if_neg ht, if_neg ht]

/-- All values that were read are found, and no others. -/
theorem look_foldl_take (ts : List Target) (r : Readings) (t : Target) :
    look (ts.foldl v.take r) t =
      if t ∈ ts then ((v.read t).toOption).or (look r t) else look r t := by
  induction ts generalizing r with
  | nil => rfl
  | cons target rest ih =>
    rw [List.foldl_cons, ih, look_take]
    by_cases hrest : t ∈ rest
    · rw [if_pos hrest, if_pos (List.mem_cons_of_mem _ hrest)]
      by_cases ht : t = target
      · rw [if_pos ht, ← Option.or_assoc, Option.or_self]
      · rw [if_neg ht]
    · rw [if_neg hrest]
      by_cases ht : t = target
      · rw [if_pos ht, if_pos (List.mem_cons.mpr (.inl ht))]
      · rw [if_neg ht, if_neg (by simp [ht, hrest])]

/-- **What was read of a visit**: the characteristics worth reading that could be read. -/
theorem look_readings (v : Visit) (t : Target) :
    look v.readings t = if t ∈ targets v.found then (v.read t).toOption else none := by
  rw [readings, look_foldl_take]
  simp only [look, Table.get?_empty, Option.bind_none, Option.or_none]

/-- Readings stay tight as a value is recorded. -/
theorem IsTight.record {r : Readings} (h : IsTight r) (target : Target) (value : Bytes) :
    IsTight (r.record target value) := by
  intro service hservice
  rw [Readings.record] at hservice
  by_cases hs : service = target.service
  · -- the value that was read is there
    rw [hs, Table.get?_insert_self] at hservice
    have hu := congrArg (Table.get? · target.characteristic) (Option.some.inj hservice)
    simp only [Table.get?_insert_self, Table.get?_empty] at hu
    cases hu
  · rw [Table.get?_insert_of_ne _ hs] at hservice
    exact h service hservice

/-- They stay tight as one is read. -/
theorem IsTight.take {r : Readings} (h : IsTight r) (target : Target) : IsTight (v.take r target) := by
  rw [Visit.take]
  rcases v.read target with e | value
  · exact h
  · exact h.record target value

theorem isTight_readings (v : Visit) : IsTight v.readings := by
  rw [readings]
  generalize targets v.found = ts
  suffices h : ∀ r, IsTight r → IsTight (ts.foldl v.take r) from h ∅ nofun
  induction ts with
  | nil => exact fun r hr => hr
  | cons target rest ih => exact fun r hr => ih _ (hr.take target)

/-- What is to be read is what can be read of the services that are not reserved. -/
theorem mem_targets {found : List RemoteService} {t : Target} :
    t ∈ targets found ↔ ∃ s ∈ found, s.uuid = t.service ∧ s.uuid.isReserved = false ∧
      ∃ c ∈ s.characteristics, c.readable = true ∧ c.uuid = t.characteristic := by
  rw [targets, List.mem_flatMap]
  constructor
  · rintro ⟨s, hs, ht⟩
    obtain ⟨hs, hreserved⟩ := List.mem_filter.mp hs
    obtain ⟨c, hc, rfl⟩ := List.mem_map.mp ht
    obtain ⟨hc, hreadable⟩ := List.mem_filter.mp hc
    exact ⟨s, hs, rfl, by simpa using hreserved, c, hc, hreadable, rfl⟩
  · rintro ⟨s, hs, hservice, hreserved, c, hc, hreadable, hu⟩
    refine ⟨s, List.mem_filter.mpr ⟨hs, by simpa using hreserved⟩, ?_⟩
    exact List.mem_map.mpr ⟨c, List.mem_filter.mpr ⟨hc, hreadable⟩, by rw [hservice, hu]⟩

/-! ## Visits to a peer that serves a table of services -/

/-- A visit to a peer that serves a table of services. These are found, with all of their
characteristics readable, and apart from them only reserved services; each characteristic is read as
it is served, or cannot be read. -/
structure IsTo (v : Visit) (services : Table Uuid Characteristics) : Prop where
  listed : ∀ service m, services.get? service = some m → ∃ s ∈ v.found, s.uuid = service
  served : ∀ s ∈ v.found, s.uuid.isReserved = false → ∃ m, services.get? s.uuid = some m ∧
    ∀ u, (∃ c ∈ s.characteristics, c.readable = true ∧ c.uuid = u) ↔ ∃ value, m.get? u = some value
  read : ∀ service m u value, services.get? service = some m → m.get? u = some value →
    v.read ⟨service, u⟩ = .ok value ∨ ∃ e, v.read ⟨service, u⟩ = .error e ∧ e.isLinkLoss = false

/-- A visit on which nothing is missed. -/
def IsWhole (v : Visit) (services : Table Uuid Characteristics) : Prop :=
  ∀ service m u value, services.get? service = some m → m.get? u = some value →
    v.reads service u = true

/-- What a visit reads of a service. -/
def got (v : Visit) (service : Uuid) (m : Characteristics) : Characteristics :=
  m.filter fun u _ => v.reads service u

/-- The services are none of those that a fetch passes over. -/
def IsUnreserved (services : Table Uuid Characteristics) : Prop :=
  ∀ service m, services.get? service = some m → service.isReserved = false

variable {services : Table Uuid Characteristics}

/-- Of a peer that lists what it offers, all that it offers is to be read. -/
theorem mem_targets_iff (h : v.IsTo services) (hun : IsUnreserved services) (t : Target) :
    t ∈ targets v.found ↔ ∃ value, look services t = some value := by
  rw [mem_targets]
  constructor
  · rintro ⟨s, hs, hservice, hreserved, hc⟩
    obtain ⟨m, hm, hkeys⟩ := h.served s hs hreserved
    obtain ⟨value, hvalue⟩ := (hkeys t.characteristic).mp hc
    rw [hservice] at hm
    exact ⟨value, by rw [look, hm]; exact hvalue⟩
  · rintro ⟨value, hlook⟩
    obtain ⟨m, hm, hvalue⟩ := Option.bind_eq_some_iff.mp hlook
    obtain ⟨s, hs, hservice⟩ := h.listed t.service m hm
    have hreserved := hun t.service m hm
    rw [← hservice] at hm hreserved
    obtain ⟨n, hn, hkeys⟩ := h.served s hs hreserved
    obtain rfl := Option.some.inj (hm.symm.trans hn)
    exact ⟨s, hs, hservice, hreserved, (hkeys t.characteristic).mpr ⟨value, hvalue⟩⟩

/-- On a visit to such a peer the link is not lost. -/
theorem IsTo.keepsLink (h : v.IsTo services) (hun : IsUnreserved services) : v.KeepsLink := by
  intro t ht e he
  obtain ⟨value, hlook⟩ := (mem_targets_iff h hun t).mp ht
  obtain ⟨m, hm, hvalue⟩ := Option.bind_eq_some_iff.mp hlook
  rcases h.read t.service m t.characteristic value hm hvalue with hread | ⟨e', hread, hloss⟩
  · cases he.symm.trans hread
  · cases he.symm.trans hread
    exact hloss

/-- What was got is what the peer offers and what could be read. -/
theorem look_map_got (v : Visit) (services : Table Uuid Characteristics) (t : Target) :
    look (services.map v.got) t =
      (look services t).filter fun _ => v.reads t.service t.characteristic := by
  rw [look, look, Table.get?_map]
  rcases services.get? t.service with _ | m
  · rfl
  · exact Table.get?_filter ..

/-- What is found in the readings is what was got. -/
theorem IsTo.look_readings (h : v.IsTo services) (hun : IsUnreserved services) (t : Target) :
    look v.readings t = look (services.map v.got) t := by
  rw [Visit.look_readings, look_map_got]
  by_cases ht : t ∈ targets v.found
  · obtain ⟨value, hlook⟩ := (mem_targets_iff h hun t).mp ht
    obtain ⟨m, hm, hvalue⟩ := Option.bind_eq_some_iff.mp hlook
    rw [if_pos ht, hlook, reads]
    rcases h.read t.service m t.characteristic value hm hvalue with hread | ⟨e, hread, -⟩
    · rw [hread]
      rfl
    · rw [hread]
      rfl
  · have hnone : look services t = none := by
      rcases hlook : look services t with _ | value
      · rfl
      · exact absurd ((mem_targets_iff h hun t).mpr ⟨value, hlook⟩) ht
    rw [if_neg ht, hnone]
    rfl

/-- **The readings are what is served, with the gaps**, and without the services of which nothing
could be read. -/
theorem IsTo.readings_eq (h : v.IsTo services) (hun : IsUnreserved services) :
    v.readings = (services.map v.got).filter fun _ m => !m.isEmpty := by
  refine ext_look (isTight_readings v) ?_ fun t => ?_
  · intro service hservice
    rw [Table.get?_filter, Option.filter_eq_some_iff] at hservice
    cases hservice.2
  · rw [h.look_readings hun, look, look, Table.get?_filter]
    rcases (services.map v.got).get? t.service with _ | m
    · rfl
    by_cases hempty : m.isEmpty = true
    · -- where nothing was read, there is nothing to look for
      rw [Table.eq_empty_of_isEmpty hempty]
      rfl
    · rw [Option.filter_some_pos (by simpa using hempty)]

/-! ## A visit to order -/

/-- A visit to a peer that serves a table of services, beside one that every peer has. The reads that
are named fail. -/
def failing (services : Table Uuid Characteristics) (fails : Target → Bool) : Visit where
  found := ⟨genericAccessUuid, []⟩ ::
    services.entries.map fun e => ⟨e.1, e.2.keys.map fun u => ⟨u, true⟩⟩
  read t :=
    match look services t with
    | some value => if fails t then .error (.readFailed t.characteristic "") else .ok value
    | none => .error (.readFailed t.characteristic "")

theorem isTo_failing (services : Table Uuid Characteristics) (fails : Target → Bool) :
    (failing services fails).IsTo services where
  listed service m hm := by
    refine ⟨_, List.mem_cons_of_mem _ (List.mem_map.mpr ⟨(service, m), ?_, rfl⟩), rfl⟩
    exact Table.get?_eq_some_iff.mp hm
  served s hs hreserved := by
    rcases List.mem_cons.mp hs with rfl | hs
    · cases hreserved
    · obtain ⟨⟨service, m⟩, hm, rfl⟩ := List.mem_map.mp hs
      refine ⟨m, Table.get?_eq_some_iff.mpr hm, fun u => ?_⟩
      rw [← Table.mem_keys]
      constructor
      · rintro ⟨c, hc, -, rfl⟩
        obtain ⟨u, hu, rfl⟩ := List.mem_map.mp hc
        exact hu
      · exact fun hu => ⟨⟨u, true⟩, List.mem_map.mpr ⟨u, hu, rfl⟩, rfl, rfl⟩
  read service m u value hm hvalue := by
    have hlook : look services ⟨service, u⟩ = some value := by
      rw [look, hm]
      exact hvalue
    simp only [failing, hlook]
    by_cases hfails : fails ⟨service, u⟩ = true
    · exact .inr ⟨_, if_pos hfails, rfl⟩
    · exact .inl (if_neg hfails)

theorem isWhole_failing (services : Table Uuid Characteristics) :
    (failing services fun _ => false).IsWhole services := by
  intro service m u value hm hvalue
  have hlook : look services ⟨service, u⟩ = some value := by
    rw [look, hm]
    exact hvalue
  simp [reads, failing, hlook]

end Visit

end Nearby.Scan
