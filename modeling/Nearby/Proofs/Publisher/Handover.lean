import Nearby.Proofs.Publisher.Logbook
import Mathlib.Data.List.Basic

/-!
# The handover from callers to the driver

Callers change what is published, each by itself at once, and hand the state the radio should be in
to the driver; then they wait until the driver reports their generation, or a later one. The driver
takes the state that was handed over last, so what is handed over while it is busy may never be
applied by itself.

A `Handover` puts callers and driver together. What was published is kept as a list of editions,
whose place in the list is their generation. Nothing is lost on the way: whatever the driver takes is
an edition, and always a later one than before; who has returned has seen an edition applied that
contains the change; and a driver with nothing to do has applied the last edition there is.
-/

namespace Nearby.Publisher

/-- A call that changes what is published. -/
inductive Request
  | publish (service : Uuid) (ad : Advertisement) (draws : List Stamp)
  | unpublish (service : Uuid) (draws : List Stamp)
  | clear

/-- The publisher once a call has had its effect. A call has none if it is refused, if there is
nothing to withdraw, or as long as all stamps drawn repeat the present one. -/
def change? (p : Publisher) : Request → Option Publisher
  | .publish service ad draws =>
    match p.publish service ad draws with
    | .error _ => none
    | .ok changed => changed
  | .unpublish service draws =>
    if p.published.contains service then p.unpublish service draws else none
  | .clear => if p.published.isEmpty then none else p.clear

/-- What is published at a time. -/
structure Edition where
  published : Table Uuid Published
  stamp : Option Stamp

/-- The state of the radio that goes with an edition. -/
def Edition.desired (e : Edition) (generation : Nat) : Desired :=
  ⟨generation, e.stamp, e.published.map fun _ service => service.characteristics⟩

/-- What is published now. -/
def edition (p : Publisher) : Edition := ⟨p.published, p.stamp⟩

/-- There is no stamp to broadcast if nothing is published. -/
def Edition.IsQuiet (e : Edition) : Prop := e.published.isEmpty = true → e.stamp = none

/-- The publisher with another edition, which is handed over to the driver. -/
def handOver (p : Publisher) (e : Edition) : Publisher :=
  { p with
    published := e.published
    stamp := e.stamp
    generation := p.generation + 1
    desired := e.desired (p.generation + 1)
    unseen := true }

variable {p q : Publisher}

/-- To publish anew is to hand an edition over. -/
theorem eq_of_republish {published : Table Uuid Published} {draws : List Stamp}
    (h : p.republish published draws = some q) : ∃ e, q = p.handOver e := by
  rw [republish] at h
  split at h
  · exact ⟨⟨published, none⟩, (Option.some.inj h).symm⟩
  · obtain ⟨stamp, -, hq⟩ := Option.bind_eq_some_iff.mp h
    exact ⟨⟨published, stamp⟩, (Option.some.inj hq).symm⟩

theorem eq_of_publish {service : Uuid} {ad : Advertisement} {draws : List Stamp}
    (h : p.publish service ad draws = .ok (some q)) : ∃ e, q = p.handOver e := by
  rw [publish] at h
  split at h
  · cases h
  split at h
  · cases h
  · exact eq_of_republish (Except.ok.inj h)

/-- Where nothing is published, no stamp is handed over. -/
theorem isQuiet_of_republish {published : Table Uuid Published} {draws : List Stamp}
    (h : p.republish published draws = some q) : q.edition.IsQuiet := by
  intro hempty
  rw [republish] at h
  split at h
  · obtain rfl := Option.some.inj h
    rfl
  · rename_i hsome
    obtain ⟨stamp, -, hq⟩ := Option.bind_eq_some_iff.mp h
    obtain rfl := Option.some.inj hq
    exact absurd hempty hsome

theorem isQuiet_of_publish {service : Uuid} {ad : Advertisement} {draws : List Stamp}
    (h : p.publish service ad draws = .ok (some q)) : q.edition.IsQuiet := by
  rw [publish] at h
  split at h
  · cases h
  split at h
  · cases h
  · exact isQuiet_of_republish (Except.ok.inj h)

/-- **A change makes an edition, and hands it over.** -/
theorem eq_of_change? {request : Request} (h : p.change? request = some q) :
    ∃ e, q = p.handOver e := by
  cases request with
  | publish service ad draws =>
    rw [change?] at h
    split at h
    · cases h
    · rename_i changed hchanged
      exact eq_of_publish (h ▸ hchanged)
  | unpublish service draws =>
    rw [change?] at h
    split at h
    · exact eq_of_republish h
    · cases h
  | clear =>
    rw [change?] at h
    split at h
    · cases h
    · exact eq_of_republish h

/-- Callers and driver. -/
structure Handover where
  logbook : Logbook
  /-- What was published, by generation. -/
  editions : List Edition
  /-- The generations that callers wait for. -/
  waiting : List Nat
  /-- The generations of the calls that have returned. -/
  returned : List Nat
  /-- The generations that the driver has reported, oldest first. -/
  reports : List Nat

namespace Handover

/-- What may happen next. -/
inductive Happening
  /-- A call has its effect. -/
  | requests (request : Request)
  /-- The driver takes the state handed over last. -/
  | takes
  /-- The radio answers the driver. -/
  | answers (result : Except RadioError Unit)
  /-- The driver reports the generation that it has applied. -/
  | reports
  /-- A call returns. -/
  | returns (generation : Nat)

/-- Nothing is published. -/
def initial : Handover := ⟨.initial, [Publisher.initial.edition], [], [], []⟩

/-- The publisher that is shared. -/
def publisher (h : Handover) : Publisher := h.logbook.publisher

/-- The generation that was reported last. -/
def reported (h : Handover) : Nat := h.reports.getLastD 0

/-- What comes of a happening. The driver reports what it has applied before it takes another state,
and a call returns once its generation or a later one is reported. -/
def after (manufacturerId : UInt16) (h : Handover) : Happening → Handover
  | .requests request =>
    match h.publisher.change? request with
    | none => h
    | some publisher =>
      { h with
        logbook := { h.logbook with publisher }
        editions := h.editions ++ [publisher.edition]
        waiting := h.waiting ++ [publisher.generation] }
  | .takes =>
    if h.reports.length = h.logbook.past.length then
      { h with logbook := h.logbook.move manufacturerId .takeDesired }
    else h
  | .answers result => { h with logbook := h.logbook.move manufacturerId (.answered result) }
  | .reports =>
    match h.logbook.past[h.reports.length]? with
    | none => h
    | some a => { h with reports := h.reports ++ [a.generation] }
  | .returns generation =>
    if generation ∈ h.waiting ∧ generation ≤ h.reported then
      { h with waiting := h.waiting.erase generation, returned := h.returned ++ [generation] }
    else h

/-- The handover after a list of happenings. -/
def run (manufacturerId : UInt16) (h : Handover) (happenings : List Happening) : Handover :=
  happenings.foldl (after manufacturerId) h

end Handover

/-! ## The driver -/

namespace Logbook

/-- The states the driver has taken, oldest first. -/
def taken (l : Logbook) : List Desired := l.applications.map (·.desired)

/-- Their generations, after that of the state the radio starts in. -/
def generations (l : Logbook) : List Nat := 0 :: l.taken.map (·.generation)

/-- **The invariant of the driver**, which takes one edition after the other. -/
structure Follows (l : Logbook) (editions : List Edition) : Prop where
  logbook : l.Fits
  length : editions.length = l.publisher.generation + 1
  current : editions[l.publisher.generation]? = some l.publisher.edition
  /-- What was handed over last is what is published now. -/
  desired : l.publisher.desired = l.publisher.edition.desired l.publisher.generation
  /-- What the driver takes is an edition. -/
  editions : ∀ d ∈ l.taken, ∃ e, editions[d.generation]? = some e ∧ d = e.desired d.generation
  increasing : l.generations.Pairwise (· < ·)
  unseen : l.publisher.unseen = true → ∀ g ∈ l.generations, g < l.publisher.generation
  seen : l.publisher.unseen = false → l.taken.getLast?.getD .initial = l.publisher.desired

theorem follows_initial : initial.Follows [Publisher.initial.edition] where
  logbook := fits_initial
  length := rfl
  current := rfl
  desired := rfl
  editions := List.forall_mem_nil _
  increasing := List.pairwise_singleton _ _
  unseen h := by cases h
  seen _ := rfl

variable {l : Logbook} {editions : List Edition}

/-- The driver has never taken a state later than the present one. -/
theorem Follows.le_generation (h : l.Follows editions) {g : Nat} (hg : g ∈ l.generations) :
    g ≤ l.publisher.generation := by
  rcases List.mem_cons.mp hg with rfl | hg
  · exact Nat.zero_le _
  · obtain ⟨d, hd, rfl⟩ := List.mem_map.mp hg
    obtain ⟨e, he, -⟩ := h.editions d hd
    obtain ⟨hlt, -⟩ := List.getElem?_eq_some_iff.mp he
    rw [h.length] at hlt
    exact Nat.le_of_lt_succ hlt

/-- The generation handed over last is the latest. -/
theorem Follows.generation_desired (h : l.Follows editions) :
    l.publisher.desired.generation = l.publisher.generation := by
  rw [h.desired]
  rfl

/-- A change makes one more edition. -/
theorem Follows.handOver (h : l.Follows editions) (e : Edition) :
    Follows { l with publisher := l.publisher.handOver e } (editions ++ [e]) where
  logbook := h.logbook.change rfl rfl
  length := by
    rw [List.length_append, h.length]
    rfl
  current := by
    change (editions ++ [e])[l.publisher.generation + 1]? = some e
    rw [← h.length, List.getElem?_concat_length]
  desired := rfl
  editions d hd := by
    obtain ⟨edition, hedition, hdesired⟩ := h.editions d hd
    obtain ⟨hlt, -⟩ := List.getElem?_eq_some_iff.mp hedition
    exact ⟨edition, (List.getElem?_append_left hlt).trans hedition, hdesired⟩
  increasing := h.increasing
  unseen _ g hg := Nat.lt_succ_of_le (h.le_generation hg)
  seen hseen := by cases hseen

/-- A step of the driver that takes no state. -/
theorem Follows.of_taken_eq (h : l.Follows editions) {m : Logbook} (hm : m.Fits)
    (hpublisher : ∃ belief applying applied,
      m.publisher = { l.publisher with belief, applying, applied })
    (htaken : m.taken = l.taken) : m.Follows editions := by
  obtain ⟨belief, applying, applied, hpublisher⟩ := hpublisher
  have hgenerations : m.generations = l.generations := by rw [generations, htaken]; rfl
  refine ⟨hm, ?_, ?_, ?_, ?_, ?_, ?_, ?_⟩
  · rw [hpublisher]
    exact h.length
  · rw [hpublisher]
    exact h.current
  · rw [hpublisher]
    exact h.desired
  · rw [htaken]
    exact h.editions
  · rw [hgenerations]
    exact h.increasing
  · rw [hpublisher, hgenerations]
    exact h.unseen
  · rw [hpublisher, htaken]
    exact h.seen

/-- The driver takes the state that was handed over last. -/
theorem Follows.of_taken_concat (h : l.Follows editions) (hunseen : l.publisher.unseen = true)
    {m : Logbook} (hm : m.Fits)
    (hpublisher : ∃ belief applying applied,
      m.publisher = { l.publisher with unseen := false, belief, applying, applied })
    (htaken : m.taken = l.taken ++ [l.publisher.desired]) : m.Follows editions := by
  obtain ⟨belief, applying, applied, hpublisher⟩ := hpublisher
  have hgeneration := h.generation_desired
  refine ⟨hm, ?_, ?_, ?_, ?_, ?_, ?_, ?_⟩
  · rw [hpublisher]
    exact h.length
  · rw [hpublisher]
    exact h.current
  · rw [hpublisher]
    exact h.desired
  · rw [htaken]
    refine List.forall_mem_append.mpr ⟨h.editions, List.forall_mem_singleton.mpr ?_⟩
    refine ⟨l.publisher.edition, ?_, ?_⟩
    · rw [hgeneration]
      exact h.current
    · rw [hgeneration]
      exact h.desired
  · -- what was not seen is newer than all that was taken
    rw [generations, htaken, List.map_append, ← List.cons_append]
    refine List.pairwise_append.mpr ⟨h.increasing, List.pairwise_singleton _ _, fun g hg g' hg' => ?_⟩
    obtain rfl := List.mem_singleton.mp hg'
    exact Nat.lt_of_lt_of_eq (h.unseen hunseen g hg) hgeneration.symm
  · intro hseen
    rw [hpublisher] at hseen
    cases hseen
  · intro _
    rw [htaken, List.getLast?_concat, hpublisher]
    rfl

theorem taken_proceed (l : Logbook) (p : Publisher) (a : Application) (tasks : List Task) :
    (l.proceed p a tasks).taken = l.past.map (·.desired) ++ [a.desired] := by
  rw [taken, applications_proceed, List.map_append]
  rfl

/-- **Every move of the driver keeps its invariant.** -/
theorem Follows.move (h : l.Follows editions) (manufacturerId : UInt16) (move : Move) :
    (l.move manufacturerId move).Follows editions := by
  have hfits := h.logbook.move manufacturerId move
  have hmoves := h.logbook.moves manufacturerId move
  generalize l.move manufacturerId move = m at hfits hmoves
  cases hmoves with
  | rests => exact h
  | takes idle unseen =>
    obtain ⟨applying, applied, hpublisher⟩ := l.publisher_proceed _ _ _
    refine h.of_taken_concat unseen hfits ⟨_, _, _, hpublisher⟩ ?_
    rw [taken_proceed, taken, applications_of_idle idle]
  | answers a task rest result present applying plan =>
    obtain ⟨applying, applied, hpublisher⟩ := l.publisher_proceed _ _ _
    refine h.of_taken_eq hfits ⟨_, _, _, hpublisher⟩ ?_
    rw [taken_proceed, taken, applications_of_busy present, List.map_append]
    rfl

/-- A driver with nothing to do has applied what was handed over last. -/
theorem Follows.lastApplied_eq (h : l.Follows editions) (hidle : l.present = none)
    (hseen : l.publisher.unseen = false) : l.lastApplied = l.publisher.desired := by
  have hlast : l.lastApplied = l.taken.getLast?.getD .initial := by
    rw [taken, applications_of_idle hidle, List.getLast?_map]
    rfl
  rw [hlast, h.seen hseen]

/-- The generations that were applied are those of the applications, in order. -/
theorem generations_eq (l : Logbook) :
    l.generations = (0 :: l.past.map (·.generation)) ++ l.present.toList.map (·.generation) := by
  rw [generations, taken, applications, List.map_append, List.map_append, List.map_map,
    List.map_map]
  rfl

/-- The state that was applied last is the first one, or that of an application that is over. -/
theorem lastApplied_mem (l : Logbook) :
    l.lastApplied.generation ∈ 0 :: l.past.map (·.generation) := by
  rw [lastApplied]
  rcases hlast : l.past.getLast? with _ | a
  · exact List.mem_cons_self
  · exact List.mem_cons_of_mem _ (List.mem_map_of_mem (List.mem_of_getLast? hlast))

/-- **The present generation counts as applied just when the driver has nothing to do.** -/
theorem Follows.settled_iff (h : l.Follows editions) :
    l.publisher.generation ≤ l.publisher.applied ↔
      l.present = none ∧ l.publisher.unseen = false := by
  have hincreasing := h.increasing
  rw [generations_eq, List.pairwise_append] at hincreasing
  rw [h.logbook.applied]
  constructor
  · intro hle
    have hseen : l.publisher.unseen = false := by
      rw [← Bool.not_eq_true]
      intro hunseen
      refine absurd (h.unseen hunseen _ ?_) (Nat.not_lt.mpr hle)
      rw [generations_eq]
      exact List.mem_append_left _ l.lastApplied_mem
    refine ⟨?_, hseen⟩
    rcases hpresent : l.present with _ | a
    · rfl
    -- the state being applied is the last one, and later than all that were applied
    have hlast := h.seen hseen
    rw [taken, applications_of_busy hpresent, List.map_append, List.map_singleton,
      List.getLast?_concat, Option.getD_some] at hlast
    have hlt := hincreasing.2.2 _ l.lastApplied_mem a.generation (by simp [hpresent])
    rw [Application.generation, hlast, h.generation_desired] at hlt
    exact absurd hle (Nat.not_le.mpr hlt)
  · rintro ⟨hidle, hseen⟩
    rw [h.lastApplied_eq hidle hseen]
    exact Nat.le_of_eq h.generation_desired.symm

end Logbook

/-! ## Callers -/

namespace Handover

/-- **The invariant of the handover.** -/
structure Fits (h : Handover) : Prop where
  driver : h.logbook.Follows h.editions
  /-- The driver reports what it is through with. -/
  reports : h.reports <+: h.logbook.past.map (·.generation)
  waiting : ∀ g ∈ h.waiting, 0 < g
  returned : ∀ g ∈ h.returned, ∃ a ∈ h.logbook.past, g ≤ a.generation

theorem fits_initial : initial.Fits where
  driver := Logbook.follows_initial
  reports := List.nil_prefix
  waiting := List.forall_mem_nil _
  returned := List.forall_mem_nil _

variable {h : Handover}

/-- A move of the driver leaves the history right. -/
theorem Fits.move (hf : h.Fits) (manufacturerId : UInt16) (move : Move) :
    Fits { h with logbook := h.logbook.move manufacturerId move } where
  driver := hf.driver.move manufacturerId move
  reports := hf.reports.trans ((hf.driver.logbook.past_move manufacturerId move).map _)
  waiting := hf.waiting
  returned g hg := by
    obtain ⟨a, ha, hle⟩ := hf.returned g hg
    exact ⟨a, (hf.driver.logbook.past_move manufacturerId move).subset ha, hle⟩

/-- So does a request that changes what is published. -/
theorem Fits.request (hf : h.Fits) {request : Request} {publisher : Publisher}
    (hchange : h.publisher.change? request = some publisher) :
    Fits { h with
      logbook := { h.logbook with publisher }
      editions := h.editions ++ [publisher.edition]
      waiting := h.waiting ++ [publisher.generation] } := by
  obtain ⟨e, rfl⟩ := eq_of_change? hchange
  exact ⟨hf.driver.handOver e, hf.reports, List.forall_mem_append.mpr
    ⟨hf.waiting, List.forall_mem_singleton.mpr (Nat.succ_pos _)⟩, hf.returned⟩

/-- So does a call that returns once its generation was applied. -/
theorem Fits.report (hf : h.Fits) {a : Application}
    (ha : h.logbook.past[h.reports.length]? = some a) :
    Fits { h with reports := h.reports ++ [a.generation] } := by
  refine ⟨hf.driver, ?_, hf.waiting, hf.returned⟩
  have htake := List.prefix_iff_eq_take.mp hf.reports
  have hnext : (h.logbook.past.map (·.generation))[h.reports.length]? = some a.generation := by
    rw [List.getElem?_map, ha]
    rfl
  have hreports : h.reports ++ [a.generation] =
      (h.logbook.past.map (·.generation)).take (h.reports.length + 1) := by
    rw [List.take_add_one, hnext, ← htake]
    rfl
  change h.reports ++ [a.generation] <+: _
  rw [hreports]
  exact List.take_prefix _ _

/-- What was reported last is what the driver is through with. -/
theorem Fits.mem_of_le_reported (hf : h.Fits) {g : Nat} (hpos : 0 < g) (hg : g ≤ h.reported) :
    ∃ a ∈ h.logbook.past, g ≤ a.generation := by
  rw [reported] at hg
  rcases List.eq_nil_or_concat' h.reports with hnone | ⟨reports, last, hlast⟩
  · rw [hnone] at hg
    exact absurd hpos (Nat.not_lt.mpr hg)
  · rw [hlast, List.getLastD_concat] at hg
    have hmem : last ∈ h.logbook.past.map (·.generation) := by
      refine hf.reports.subset ?_
      rw [hlast]
      exact List.mem_append_right _ List.mem_cons_self
    obtain ⟨a, ha, rfl⟩ := List.mem_map.mp hmem
    exact ⟨a, ha, hg⟩

/-- **Every happening keeps the invariant.** -/
theorem Fits.after (hf : h.Fits) (manufacturerId : UInt16) (happening : Happening) :
    (h.after manufacturerId happening).Fits := by
  cases happening with
  | requests request =>
    rw [Handover.after]
    split
    · exact hf
    · rename_i publisher hchange
      exact hf.request hchange
  | takes =>
    rw [Handover.after]
    split
    · exact hf.move manufacturerId .takeDesired
    · exact hf
  | answers result => exact hf.move manufacturerId (.answered result)
  | reports =>
    rw [Handover.after]
    split
    · exact hf
    · rename_i a ha
      exact hf.report ha
  | returns g =>
    rw [Handover.after]
    split
    · rename_i hreturn
      obtain ⟨hwaiting, hg⟩ := hreturn
      refine ⟨hf.driver, hf.reports, fun g' hg' => hf.waiting g' (List.mem_of_mem_erase hg'),
        List.forall_mem_append.mpr ⟨hf.returned, List.forall_mem_singleton.mpr ?_⟩⟩
      exact hf.mem_of_le_reported (hf.waiting g hwaiting) hg
    · exact hf

/-- What is not a call is none of the callers' business. -/
theorem Fits.frame_after (hf : h.Fits) (manufacturerId : UInt16) {happening : Happening}
    (hcall : ∀ request, happening ≠ .requests request) :
    ∃ unseen belief applying applied, (h.after manufacturerId happening).publisher =
      { h.publisher with unseen, belief, applying, applied } := by
  cases happening with
  | requests request => exact absurd rfl (hcall request)
  | takes =>
    rw [Handover.after]
    split
    · exact hf.driver.logbook.frame_move manufacturerId .takeDesired
    · exact ⟨_, _, _, _, rfl⟩
  | answers result => exact hf.driver.logbook.frame_move manufacturerId (.answered result)
  | reports =>
    rw [Handover.after]
    split
    · exact ⟨_, _, _, _, rfl⟩
    · exact ⟨_, _, _, _, rfl⟩
  | returns g =>
    rw [Handover.after]
    split
    · exact ⟨_, _, _, _, rfl⟩
    · exact ⟨_, _, _, _, rfl⟩

theorem Fits.run (hf : h.Fits) (manufacturerId : UInt16) (happenings : List Happening) :
    (h.run manufacturerId happenings).Fits := by
  induction happenings generalizing h with
  | nil => exact hf
  | cons x rest ih => exact ih (hf.after manufacturerId x)

/-- What callers and driver can rely on. -/
structure LosesNothing (h : Handover) : Prop where
  /-- Every change has its edition, and the last one is what is published. -/
  editions : h.editions.length = h.publisher.generation + 1 ∧
    h.editions[h.publisher.generation]? = some h.publisher.edition
  /-- The driver applies later and later generations. -/
  applied : (0 :: h.logbook.past.map (·.generation)).Pairwise (· < ·) ∧
    h.publisher.applied = h.logbook.lastApplied.generation
  /-- It reports them in turn. -/
  reported : (0 :: h.reports).Pairwise (· < ·) ∧ h.reports <+: h.logbook.past.map (·.generation)
  /-- Who has returned after a change, has done so after an edition was applied, with all it takes,
  that was made by the change or later. -/
  returned : ∀ g ∈ h.returned, ∃ a ∈ h.logbook.past, g ≤ a.generation ∧
    a.ended.map (·.task) = a.plan ∧
    ∃ e, h.editions[a.generation]? = some e ∧ a.desired = e.desired a.generation
  /-- A driver that waits, with nothing handed over, has applied what is published. -/
  settled : h.publisher.applying = none → h.publisher.unseen = false →
    h.logbook.lastApplied = h.publisher.edition.desired h.publisher.generation

theorem Fits.losesNothing (hf : h.Fits) : h.LosesNothing := by
  have hincreasing : (0 :: h.logbook.past.map (·.generation)).Pairwise (· < ·) := by
    refine hf.driver.increasing.sublist (List.Sublist.cons_cons 0 ?_)
    rw [Logbook.taken, Logbook.applications, List.map_append, List.map_append, List.map_map]
    exact List.sublist_append_left _ _
  refine ⟨⟨hf.driver.length, hf.driver.current⟩, ⟨hincreasing, hf.driver.logbook.applied⟩,
    ⟨hincreasing.sublist (hf.reports.sublist.cons_cons 0), hf.reports⟩, fun g hg => ?_,
    fun hidle hseen => ?_⟩
  · obtain ⟨a, ha, hle⟩ := hf.returned g hg
    have htaken : a.desired ∈ h.logbook.taken :=
      List.mem_map.mpr ⟨a, List.mem_append_left _ ha, rfl⟩
    exact ⟨a, ha, hle, hf.driver.logbook.past a ha, hf.driver.editions a.desired htaken⟩
  · have hpresent : h.logbook.present = none := hf.driver.logbook.present_eq_none_iff.mpr hidle
    rw [hf.driver.lastApplied_eq hpresent hseen]
    exact hf.driver.desired

/-- **No change of what is published is lost**, in whatever order calls take effect and return, and
the driver goes its way. -/
theorem loses_nothing (manufacturerId : UInt16) (happenings : List Happening) :
    (initial.run manufacturerId happenings).LosesNothing :=
  (fits_initial.run manufacturerId happenings).losesNothing

/-- Two services are published before the driver looks. It applies them together, and that releases
both callers. -/
example :
    let h := initial.run defaultManufacturerId
      [.requests (.publish (.ofNat 1) (.new ⟨.ofNat 7⟩ "list") [⟨1⟩]),
        .requests (.publish (.ofNat 2) (.new ⟨.ofNat 8⟩ "list") [⟨2⟩]), .takes, .answers (.ok ()),
        .answers (.ok ()), .answers (.ok ()), .reports, .returns 1, .returns 2]
    h.reports = [2] ∧ h.returned = [1, 2] := by
  decide +kernel

end Handover

end Nearby.Publisher
