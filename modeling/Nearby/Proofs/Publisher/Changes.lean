import Nearby.Proofs.Publisher.Offer

/-!
# The books of a publisher

A call to publish is rejected if the advertisement cannot be encoded, or if another service carries
its identifier (`Publisher.rejects_publish`). Withdrawing what is not published, or everything when
there is nothing, has no effect either. Every other call makes just one change, as soon as it has
drawn a stamp that differs from the present one (`change?_eq`).

So the generation counts the changes, no two services carry the same identifier, and there is a stamp
as long as anything is published (`Handover.books_balance`). A service that takes another
advertisement sets the identifier of the old one free.
-/

namespace Nearby.Publisher

open Characteristics (encode)

/-- The stamps that a call draws. -/
def Request.draws : Request → List Stamp
  | .publish _ _ draws => draws
  | .unpublish _ draws => draws
  | .clear => []

variable {p q : Publisher} {service other : Uuid} {ad : Advertisement} {adId : AdId}
  {draws : List Stamp}

/-! ## Rejections -/

/-- A service other than this one carries the identifier. -/
def Carries (published : Table Uuid Published) (other service : Uuid) (adId : AdId) : Prop :=
  ∃ present, published.get? other = some present ∧ other ≠ service ∧ present.adId = adId

/-- The other carrier that a search finds is one. -/
theorem carries_of_otherCarrier? (h : p.otherCarrier? service adId = some other) :
    Carries p.published other service adId := by
  obtain ⟨present, hpresent⟩ := Table.mem_keys.mp (List.mem_of_head? h)
  rw [Table.get?_filter, Option.filter_eq_some_iff] at hpresent
  obtain ⟨hother, hcarries⟩ := hpresent
  have hboth : other ≠ service ∧ present.adId = adId := by simpa using hcarries
  exact ⟨present, hother, hboth⟩

theorem otherCarrier?_eq_none_iff :
    p.otherCarrier? service adId = none ↔ ∀ other, ¬ Carries p.published other service adId := by
  constructor
  · rintro hnone other ⟨present, hother, hne, hid⟩
    exact adId_ne_of_otherCarrier?_eq_none hnone hne hother hid
  · intro hfree
    rw [Option.eq_none_iff_forall_ne_some]
    exact fun other h => hfree other (carries_of_otherCarrier? h)

/-- What cannot be encoded is rejected. -/
theorem publish_of_error {e : Characteristics.EncodeError} (hencode : encode (prepare ad) = .error e) :
    p.publish service ad draws = .error (.encode e) := by
  simp only [publish, hencode]

/-- What another service carries is rejected. -/
theorem publish_of_carrier {m : Characteristics} (hencode : encode (prepare ad) = .ok m)
    (hcarrier : p.otherCarrier? service ad.id = some other) :
    p.publish service ad draws = .error (.duplicate ad.id other) := by
  have hid : (prepare ad).id = ad.id := rfl
  simp only [publish, hencode, hid, hcarrier]

/-- All else is published. -/
theorem publish_of_free {m : Characteristics} (hencode : encode (prepare ad) = .ok m)
    (hfree : p.otherCarrier? service ad.id = none) :
    p.publish service ad draws =
      .ok (p.republish (p.published.insert service ⟨ad.id, m⟩) draws) := by
  have hid : (prepare ad).id = ad.id := rfl
  simp only [publish, hencode, hid, hfree]

/-- When a call to publish is rejected, and why. -/
structure Rejects (p : Publisher) (service : Uuid) (ad : Advertisement) (draws : List Stamp) :
    Prop where
  rejected : (∃ error, p.publish service ad draws = .error error) ↔
    (∃ e, encode (prepare ad) = .error e) ∨ ∃ other, Carries p.published other service ad.id
  /-- What cannot be encoded is not looked at further. -/
  unencodable : ∀ e, p.publish service ad draws = .error (.encode e) ↔ encode (prepare ad) = .error e
  duplicate : ∀ adId other, p.publish service ad draws = .error (.duplicate adId other) →
    adId = ad.id ∧ Carries p.published other service ad.id

/-- **A call to publish is rejected exactly if the advertisement cannot be encoded or another service
carries its identifier.** -/
theorem rejects_publish (p : Publisher) (service : Uuid) (ad : Advertisement) (draws : List Stamp) :
    p.Rejects service ad draws := by
  rcases hencode : encode (prepare ad) with e | m
  · have hpublish : p.publish service ad draws = .error (.encode e) := publish_of_error hencode
    exact ⟨by simp [hpublish, hencode], by simp [hpublish, hencode], by simp [hpublish]⟩
  rcases hcarrier : p.otherCarrier? service ad.id with _ | other
  · have hpublish : p.publish service ad draws = .ok _ := publish_of_free hencode hcarrier
    have hfree := otherCarrier?_eq_none_iff.mp hcarrier
    exact ⟨by simp [hpublish, hencode, hfree], by simp [hpublish, hencode], by simp [hpublish]⟩
  · have hpublish : p.publish service ad draws = .error _ := publish_of_carrier hencode hcarrier
    have hcarries := carries_of_otherCarrier? hcarrier
    refine ⟨⟨fun _ => .inr ⟨other, hcarries⟩, fun _ => ⟨_, hpublish⟩⟩,
      by simp [hpublish, hencode], ?_⟩
    rintro adId found herror
    rw [hpublish] at herror
    cases herror
    exact ⟨rfl, hcarries⟩

/-! ## Changes -/

/-- What is published once a call has had its effect. -/
def Request.leads (published : Table Uuid Published) : Request → Table Uuid Published
  | .publish service ad _ =>
    match encode (prepare ad) with
    | .ok m => published.insert service ⟨ad.id, m⟩
    | .error _ => published
  | .unpublish service _ => published.erase service
  | .clear => ∅

/-- True for a call that is to change what is published: it is not rejected, and there is something to
withdraw if it withdraws. -/
def Request.isEffective (p : Publisher) : Request → Bool
  | .publish service ad draws => (p.publish service ad draws).isOk
  | .unpublish service _ => p.published.contains service
  | .clear => !p.published.isEmpty

/-- True if a call does not have to draw any more stamps: nothing is left to broadcast a stamp for, or
one that it drew differs from the present one. -/
def Request.isStamped (p : Publisher) (request : Request) : Bool :=
  (request.leads p.published).isEmpty || request.draws.any fun stamp => some stamp ≠ p.stamp

/-- A request that has an effect leads to what it asks for, under a new stamp. -/
theorem change?_of_effective {request : Request} (h : request.isEffective p = true) :
    p.change? request = p.republish (request.leads p.published) request.draws := by
  cases request with
  | publish service ad draws =>
    rw [Request.isEffective] at h
    rcases hencode : encode (prepare ad) with e | m
    · rw [publish_of_error hencode] at h
      cases h
    rcases hcarrier : p.otherCarrier? service ad.id with _ | other
    · simp only [change?, publish_of_free hencode hcarrier, Request.leads, hencode, Request.draws]
    · rw [publish_of_carrier hencode hcarrier] at h
      cases h
  | unpublish service draws => exact if_pos h
  | clear => exact if_neg (by simpa [Request.isEffective] using h)

/-- Any other request changes nothing. -/
theorem change?_of_not_effective {request : Request} (h : request.isEffective p = false) :
    p.change? request = none := by
  cases request with
  | publish service ad draws =>
    rw [Request.isEffective] at h
    rw [change?]
    rcases hpublish : p.publish service ad draws with error | changed
    · rfl
    · rw [hpublish] at h
      cases h
  | unpublish service draws => exact if_neg (by simpa [Request.isEffective] using h)
  | clear => exact if_pos (by simpa [Request.isEffective] using h)

/-- What a change makes of the publisher: the next generation, with a stamp of its own if there is
anything to broadcast it for. -/
structure Advances (p q : Publisher) (published : Table Uuid Published) : Prop where
  handedOver : ∃ stamp, q = p.handOver ⟨published, stamp⟩
  stamp : q.stamp = none ↔ published.isEmpty = true
  fresh : q.stamp ≠ none → q.stamp ≠ p.stamp

/-- A change advances the generation by one, and draws a stamp that is not the last. -/
theorem advances_of_republish {published : Table Uuid Published}
    (h : p.republish published draws = some q) : Advances p q published := by
  rw [republish] at h
  split at h
  · rename_i hempty
    obtain rfl := Option.some.inj h
    exact ⟨⟨none, rfl⟩, iff_of_true rfl hempty, fun hsome => absurd rfl hsome⟩
  · rename_i hsome
    obtain ⟨_, hstamp, hq⟩ := Option.bind_eq_some_iff.mp h
    obtain ⟨stamp, hfresh, rfl⟩ := Option.map_eq_some_iff.mp hstamp
    obtain rfl := Option.some.inj hq
    have hne : some stamp ≠ p.stamp := by simpa using List.find?_some hfresh
    exact ⟨⟨some stamp, rfl⟩, iff_of_false (by simp) hsome, fun _ => hne⟩

/-- There is no change to make if something is published, and no stamp is drawn but the last. -/
theorem republish_eq_none_iff {published : Table Uuid Published} :
    p.republish published draws = none ↔
      (published.isEmpty || draws.any fun stamp => some stamp ≠ p.stamp) = false := by
  rw [republish]
  rcases published.isEmpty with _ | _
  · rcases hfresh : freshStamp? p.stamp draws with _ | stamp
    · have hnone := List.find?_eq_none.mp hfresh
      simpa using hnone
    · have hfound : (draws.any fun stamp => some stamp ≠ p.stamp) = true :=
        List.any_eq_true.mpr ⟨stamp, List.mem_of_find?_eq_some hfresh, by
          simpa using List.find?_some hfresh⟩
      rw [hfound]
      simp
  · simp

/-- **A call changes what is published exactly if it is effective and has its stamp**, and then it
makes one change. -/
theorem change?_cases (p : Publisher) (request : Request) :
    match p.change? request with
    | none => (request.isEffective p && request.isStamped p) = false
    | some q => (request.isEffective p && request.isStamped p) = true ∧
        Advances p q (request.leads p.published) := by
  rcases heffective : request.isEffective p with _ | _
  · rw [change?_of_not_effective heffective]
    rfl
  · rw [change?_of_effective heffective, Bool.true_and]
    rcases hchange : p.republish (request.leads p.published) request.draws with _ | q
    · exact republish_eq_none_iff.mp hchange
    · refine ⟨?_, advances_of_republish hchange⟩
      rw [← Bool.not_eq_false, Request.isStamped, ← republish_eq_none_iff, hchange]
      simp

/-- An effective call that leaves nothing published withdraws something. -/
theorem isEmpty_eq_false_of_leads {request : Request} (heffective : request.isEffective p = true)
    (hempty : (request.leads p.published).isEmpty = true) : p.published.isEmpty = false := by
  rw [← Bool.not_eq_true]
  intro hnothing
  have hpublished := Table.eq_empty_of_isEmpty hnothing
  have hleads := Table.eq_empty_of_isEmpty hempty
  cases request with
  | publish service ad draws =>
    rw [Request.isEffective] at heffective
    rcases hencode : encode (prepare ad) with e | m
    · rw [publish_of_error hencode] at heffective
      cases heffective
    · have hself := congrArg (Table.get? · service) hleads
      simp only [Request.leads, hencode, Table.get?_insert_self, Table.get?_empty] at hself
      cases hself
  | unpublish service draws =>
    rw [Request.isEffective, hpublished] at heffective
    cases heffective
  | clear =>
    rw [Request.isEffective, hnothing] at heffective
    cases heffective

/-! ## Over a run -/

namespace Handover

variable {h : Handover}

/-- True for a call that changes what is published. -/
def isChange (h : Handover) : Happening → Bool
  | .requests request => request.isEffective h.publisher && request.isStamped h.publisher
  | _ => false

/-- The number of changes that are made in the course of a list of happenings. -/
def changes (manufacturerId : UInt16) : Handover → List Happening → Nat
  | _, [] => 0
  | h, x :: rest =>
    (if h.isChange x then 1 else 0) + changes manufacturerId (h.after manufacturerId x) rest

/-- What is published is in order, after this many changes. -/
structure Keeps (h : Handover) (changes : Nat) : Prop where
  distinct : ∀ s t a b, h.publisher.published.get? s = some a →
    h.publisher.published.get? t = some b → a.adId = b.adId → s = t
  stamp : h.publisher.stamp = none ↔ h.publisher.published.isEmpty = true
  generation : h.publisher.generation = changes
  /-- The driver was handed what is published. -/
  desired : h.publisher.desired = h.publisher.edition.desired h.publisher.generation

/-- What a call does. -/
structure Responds (h : Handover) (manufacturerId : UInt16) (request : Request) : Prop where
  /-- A change hands over the next generation, with another stamp. -/
  changes : request.isEffective h.publisher = true → request.isStamped h.publisher = true →
    let q := (h.after manufacturerId (.requests request)).publisher
    q.published = request.leads h.publisher.published ∧
      q.generation = h.publisher.generation + 1 ∧ q.stamp ≠ h.publisher.stamp ∧
      q.desired = q.edition.desired q.generation ∧ q.unseen = true
  /-- A call without effect leaves everything as it is. -/
  refused : request.isEffective h.publisher = false → h.after manufacturerId (.requests request) = h
  /-- A call that has not found its stamp yet has done nothing. -/
  drawing : request.isStamped h.publisher = false → h.after manufacturerId (.requests request) = h

/-- A change hands over an edition, with another stamp. -/
theorem advances_of_isChange {request : Request} (hchange : h.isChange (.requests request) = true)
    (manufacturerId : UInt16) :
    Advances h.publisher (h.after manufacturerId (.requests request)).publisher
      (request.leads h.publisher.published) := by
  have hcases := change?_cases h.publisher request
  rw [Handover.after]
  rcases hq : h.publisher.change? request with _ | q
  · rw [hq] at hcases
    cases hchange.symm.trans hcases
  · rw [hq] at hcases
    exact hcases.2

/-- A request that does not change anything leaves everything as it is. -/
theorem after_of_isChange_eq_false {request : Request}
    (hchange : h.isChange (.requests request) = false) (manufacturerId : UInt16) :
    h.after manufacturerId (.requests request) = h := by
  have hcases := change?_cases h.publisher request
  rw [Handover.after]
  rcases hq : h.publisher.change? request with _ | q
  · rfl
  · rw [hq] at hcases
    cases hchange.symm.trans hcases.1

/-- Callers find the publisher as they left it: what the driver does is no change. -/
theorem generation_after (hf : h.Fits) (manufacturerId : UInt16) (happening : Happening) :
    (h.after manufacturerId happening).publisher.generation =
      h.publisher.generation + if h.isChange happening then 1 else 0 := by
  by_cases hcall : ∃ request, happening = .requests request
  · obtain ⟨request, rfl⟩ := hcall
    rcases hchange : h.isChange (.requests request) with _ | _
    · rw [after_of_isChange_eq_false hchange]
      rfl
    · obtain ⟨stamp, hq⟩ := (advances_of_isChange hchange manufacturerId).handedOver
      rw [hq]
      rfl
  · rw [not_exists] at hcall
    obtain ⟨unseen, belief, applying, applied, hpublisher⟩ := hf.frame_after manufacturerId hcall
    rw [hpublisher]
    cases happening with
    | requests request => exact absurd rfl (hcall request)
    | takes | answers | reports | returns => rfl

/-- **The generation counts the changes.** -/
theorem generation_run (hf : h.Fits) (manufacturerId : UInt16) (happenings : List Happening) :
    (h.run manufacturerId happenings).publisher.generation =
      h.publisher.generation + h.changes manufacturerId happenings := by
  induction happenings generalizing h with
  | nil => rfl
  | cons x rest ih =>
    have hrest := ih (hf.after manufacturerId x)
    rw [generation_after hf, Nat.add_assoc] at hrest
    exact hrest

/-- There is a stamp exactly if anything is published. -/
def IsStamped (p : Publisher) : Prop := p.stamp = none ↔ p.published.isEmpty = true

theorem isStamped_after (hf : h.Fits) (hs : IsStamped h.publisher) (manufacturerId : UInt16)
    (happening : Happening) : IsStamped (h.after manufacturerId happening).publisher := by
  by_cases hcall : ∃ request, happening = .requests request
  · obtain ⟨request, rfl⟩ := hcall
    rcases hchange : h.isChange (.requests request) with _ | _
    · rwa [after_of_isChange_eq_false hchange]
    · have hadvances := advances_of_isChange hchange manufacturerId
      obtain ⟨stamp, hq⟩ := hadvances.handedOver
      have hstamp := hadvances.stamp
      rw [hq] at hstamp ⊢
      exact hstamp
  · rw [not_exists] at hcall
    obtain ⟨unseen, belief, applying, applied, hpublisher⟩ := hf.frame_after manufacturerId hcall
    rw [hpublisher]
    exact hs

theorem isStamped_run (hf : h.Fits) (hs : IsStamped h.publisher) (manufacturerId : UInt16)
    (happenings : List Happening) : IsStamped (h.run manufacturerId happenings).publisher := by
  induction happenings generalizing h with
  | nil => exact hs
  | cons x rest ih => exact ih (hf.after manufacturerId x) (isStamped_after hf hs manufacturerId x)

/-- A change comes with another stamp. -/
theorem stamp_ne_of_isChange (hs : IsStamped h.publisher) {request : Request}
    (hchange : h.isChange (.requests request) = true) (manufacturerId : UInt16) :
    (h.after manufacturerId (.requests request)).publisher.stamp ≠ h.publisher.stamp := by
  have hadvances := advances_of_isChange hchange manufacturerId
  obtain ⟨heffective, -⟩ := Bool.and_eq_true_iff.mp hchange
  intro hsame
  by_cases hnone : (h.after manufacturerId (.requests request)).publisher.stamp = none
  · -- without stamps before and after, nothing was published, and nothing was withdrawn
    have hempty := isEmpty_eq_false_of_leads heffective (hadvances.stamp.mp hnone)
    rw [hsame] at hnone
    cases hempty.symm.trans (hs.mp hnone)
  · exact hadvances.fresh hnone hsame

theorem responds (hs : IsStamped h.publisher) (manufacturerId : UInt16) (request : Request) :
    h.Responds manufacturerId request := by
  refine ⟨fun heffective hstamped => ?_, fun hrefused => ?_, fun hdrawing => ?_⟩
  · have hchange : h.isChange (.requests request) = true := by simp [isChange, heffective, hstamped]
    have hne := stamp_ne_of_isChange hs hchange manufacturerId
    obtain ⟨stamp, hq⟩ := (advances_of_isChange hchange manufacturerId).handedOver
    rw [hq] at hne ⊢
    exact ⟨rfl, rfl, hne, rfl, rfl⟩
  · exact after_of_isChange_eq_false (by simp [isChange, hrefused]) manufacturerId
  · exact after_of_isChange_eq_false (by simp [isChange, hdrawing]) manufacturerId

/-- **The books of a publisher balance**, whatever callers and the driver do: identifiers are distinct,
there is a stamp as long as anything is published, and the generation counts the changes. Every
further call makes one change or none. -/
theorem books_balance (manufacturerId : UInt16) (happenings : List Happening) :
    let h := initial.run manufacturerId happenings
    h.Keeps (initial.changes manufacturerId happenings) ∧
      (∀ request, h.Responds manufacturerId request) ∧
      ∀ service ad draws, h.publisher.Rejects service ad draws := by
  intro h
  have hs : IsStamped h.publisher :=
    isStamped_run fits_initial (iff_of_true rfl rfl) manufacturerId happenings
  have hoffers : Offers h.publisher.published _ :=
    offers_run fits_initial offers_empty manufacturerId happenings
  refine ⟨⟨fun s t a b ha hb hid => ?_, hs, ?_, ?_⟩, responds hs manufacturerId,
    h.publisher.rejects_publish⟩
  · obtain ⟨ad, had, hadId⟩ := hoffers.adId s a ha
    obtain ⟨bd, hbd, hbdId⟩ := hoffers.adId t b hb
    exact hoffers.serves.distinct s t ad bd had hbd (hadId.trans (hid.trans hbdId.symm))
  · exact (generation_run fits_initial manufacturerId happenings).trans (Nat.zero_add _)
  · exact (fits_initial.run manufacturerId happenings).driver.desired

/-- A service that takes another advertisement sets the identifier of the old one free. Before that,
it was not free. -/
example :
    let lamp := Advertisement.new ⟨.ofNat 7⟩ "lamp"
    let heater := Advertisement.new ⟨.ofNat 8⟩ "heater"
    let calls : List Happening := [.requests (.publish (.ofNat 1) lamp [⟨1⟩]),
      .requests (.publish (.ofNat 2) lamp [⟨2⟩]), .requests (.publish (.ofNat 1) heater [⟨1⟩, ⟨3⟩]),
      .requests (.publish (.ofNat 2) lamp [⟨2⟩])]
    (initial.run 0 calls).publisher.published.values.map (·.adId) = [heater.id, lamp.id] ∧
      initial.changes 0 calls = 3 := by
  decide +kernel

end Handover

end Nearby.Publisher
