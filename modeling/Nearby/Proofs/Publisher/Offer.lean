import Nearby.Proofs.Characteristics.RoundTrip
import Nearby.Proofs.Publisher.Vouching

/-!
# What is on offer

The publisher keeps the characteristics of its services, and not the advertisements that callers have
handed in. Here these are kept beside it: what is on `offered` changes with every call that has its
effect, and with nothing else.

At all times the services that are published carry what is on offer, each advertisement encoded as it
was prepared, and no two services carry the same identifier (`Handover.serves_offered`). A radio whose
driver has nothing to do serves just these services.
-/

namespace Nearby

open Characteristics (encode)

/-- Services carry the advertisements on offer. -/
structure Serves (services : Table Uuid Characteristics) (offers : Table Uuid Advertisement) :
    Prop where
  encoded : ∀ service ad, offers.get? service = some ad →
    ∃ m, services.get? service = some m ∧ encode ad = .ok m
  offered : ∀ service m, services.get? service = some m → ∃ ad, offers.get? service = some ad
  kept : ∀ service ad, offers.get? service = some ad → ad.lost = false
  distinct : ∀ s t a b, offers.get? s = some a → offers.get? t = some b → a.id = b.id → s = t

namespace Serves

variable {services : Table Uuid Characteristics} {offers : Table Uuid Advertisement}

theorem empty : Serves ∅ ∅ := ⟨nofun, nofun, nofun, nofun⟩

/-- No two of the advertisements on offer have the same identifier. -/
theorem nodup_ids (h : Serves services offers) : (offers.values.map Advertisement.id).Nodup := by
  rw [Table.values, List.map_map]
  refine (Table.nodup_entries offers).map_on fun a ha b hb hid => ?_
  have hoffer := Table.get?_eq_some_iff.mpr ha
  have hother := Table.get?_eq_some_iff.mpr hb
  have hservice := h.distinct a.1 b.1 a.2 b.2 hoffer hother hid
  rw [hservice, hother] at hoffer
  exact Prod.ext hservice (Option.some.inj hoffer).symm

/-- Nothing on offer is lost. -/
theorem kept_of_mem (h : Serves services offers) {ad : Advertisement} (had : ad ∈ offers.values) :
    ad.lost = false := by
  obtain ⟨⟨service, ad⟩, hmem, rfl⟩ := List.mem_map.mp had
  exact h.kept service ad (Table.get?_eq_some_iff.mpr hmem)

/-- A service is withdrawn from both. -/
theorem erase (h : Serves services offers) (service : Uuid) :
    Serves (services.erase service) (offers.erase service) := by
  have hsome {s : Uuid} {ad : Advertisement} (hs : (offers.erase service).get? s = some ad) :
      s ≠ service ∧ offers.get? s = some ad := by
    rw [Table.get?_erase] at hs
    exact Option.ite_none_left_eq_some.mp hs
  refine ⟨fun s ad hs => ?_, fun s m hs => ?_, fun s ad hs => h.kept s ad (hsome hs).2,
    fun s t a b hs ht => h.distinct s t a b (hsome hs).2 (hsome ht).2⟩
  · obtain ⟨hne, hs⟩ := hsome hs
    rw [Table.get?_erase_of_ne _ hne]
    exact h.encoded s ad hs
  · rw [Table.get?_erase] at hs
    obtain ⟨hne, hs⟩ := Option.ite_none_left_eq_some.mp hs
    rw [Table.get?_erase_of_ne _ hne]
    exact h.offered s m hs

/-- A service takes an advertisement that no other one carries. -/
theorem insert (h : Serves services offers) {service : Uuid} {ad : Advertisement}
    {m : Characteristics} (hencode : encode ad = .ok m) (hkept : ad.lost = false)
    (hother : ∀ s other, s ≠ service → offers.get? s = some other → other.id ≠ ad.id) :
    Serves (services.insert service m) (offers.insert service ad) where
  encoded s a hs := by
    by_cases hservice : s = service
    · subst hservice
      rw [Table.get?_insert_self] at hs
      obtain rfl := Option.some.inj hs
      exact ⟨m, Table.get?_insert_self .., hencode⟩
    · rw [Table.get?_insert_of_ne _ hservice] at hs ⊢
      exact h.encoded s a hs
  offered s n hs := by
    by_cases hservice : s = service
    · exact ⟨ad, by rw [hservice, Table.get?_insert_self]⟩
    · rw [Table.get?_insert_of_ne _ hservice] at hs ⊢
      exact h.offered s n hs
  kept s a hs := by
    by_cases hservice : s = service
    · rw [hservice, Table.get?_insert_self] at hs
      exact Option.some.inj hs ▸ hkept
    · rw [Table.get?_insert_of_ne _ hservice] at hs
      exact h.kept s a hs
  -- two services have different identifiers, and so has the new one by what was checked
  distinct s t a b hs ht hid := by
    by_cases hs' : s = service
    · by_cases ht' : t = service
      · rw [hs', ht']
      · rw [hs', Table.get?_insert_self] at hs
        rw [Table.get?_insert_of_ne _ ht'] at ht
        exact absurd (Option.some.inj hs ▸ hid.symm) (hother t b ht' ht)
    · rw [Table.get?_insert_of_ne _ hs'] at hs
      by_cases ht' : t = service
      · rw [ht', Table.get?_insert_self] at ht
        exact absurd (Option.some.inj ht ▸ hid) (hother s a hs' hs)
      · rw [Table.get?_insert_of_ne _ ht'] at ht
        exact h.distinct s t a b hs ht hid

end Serves

namespace Publisher

/-- What is on offer after a call that had its effect. -/
def Request.offer (offers : Table Uuid Advertisement) : Request → Table Uuid Advertisement
  | .publish service ad _ => offers.insert service (prepare ad)
  | .unpublish service _ => offers.erase service
  | .clear => ∅

/-- The characteristics of the services that are published. -/
def services (published : Table Uuid Published) : Table Uuid Characteristics :=
  published.map fun _ service => service.characteristics

/-- What is published carries what is on offer, and is filed with its identifiers. -/
structure Offers (published : Table Uuid Published) (offers : Table Uuid Advertisement) : Prop where
  serves : Serves (services published) offers
  adId : ∀ service p, published.get? service = some p →
    ∃ ad, offers.get? service = some ad ∧ ad.id = p.adId

theorem offers_empty : Offers ∅ ∅ := ⟨.empty, nofun⟩

variable {p q : Publisher} {offers : Table Uuid Advertisement}

theorem published_of_republish {published : Table Uuid Published} {draws : List Stamp}
    (h : p.republish published draws = some q) : q.published = published := by
  rw [republish] at h
  split at h
  · exact congrArg Publisher.published (Option.some.inj h).symm
  · obtain ⟨stamp, -, hq⟩ := Option.bind_eq_some_iff.mp h
    exact congrArg Publisher.published (Option.some.inj hq).symm

/-- No other service carries the identifier if none is found. -/
theorem adId_ne_of_otherCarrier?_eq_none {service : Uuid} {adId : AdId}
    (h : p.otherCarrier? service adId = none) {s : Uuid} {other : Published} (hs : s ≠ service)
    (hother : p.published.get? s = some other) : other.adId ≠ adId := by
  intro hid
  have hmem : s ∈ (p.published.filter fun id published =>
      id ≠ service && published.adId = adId).keys := by
    rw [Table.mem_keys]
    refine ⟨other, ?_⟩
    rw [Table.get?_filter, hother, Option.filter_some_pos]
    simp [hs, hid]
  rw [otherCarrier?, List.head?_eq_none_iff] at h
  rw [h] at hmem
  cases hmem

/-- What is published is on offer, as it was prepared. -/
theorem Offers.publish (h : Offers p.published offers) {service : Uuid} {ad : Advertisement}
    {draws : List Stamp} (hpublish : p.publish service ad draws = .ok (some q)) :
    Offers q.published (offers.insert service (prepare ad)) := by
  rw [Publisher.publish] at hpublish
  split at hpublish
  · cases hpublish
  rename_i m hencode
  split at hpublish
  · cases hpublish
  rename_i hcarrier
  rw [published_of_republish (Except.ok.inj hpublish)]
  constructor
  · rw [services, Table.map_insert]
    refine h.serves.insert hencode rfl fun s other hs hother => ?_
    obtain ⟨n, hn, -⟩ := h.serves.encoded s other hother
    rw [services, Table.get?_map, Option.map_eq_some_iff] at hn
    obtain ⟨present, hpresent, -⟩ := hn
    obtain ⟨a, ha, hid⟩ := h.adId s present hpresent
    rw [Option.some.inj (hother.symm.trans ha), hid]
    exact adId_ne_of_otherCarrier?_eq_none hcarrier hs hpresent
  · intro s present hs
    by_cases hservice : s = service
    · rw [hservice, Table.get?_insert_self] at hs ⊢
      exact ⟨prepare ad, rfl, congrArg Published.adId (Option.some.inj hs)⟩
    · rw [Table.get?_insert_of_ne _ hservice] at hs ⊢
      exact h.adId s present hs

/-- What is withdrawn is not. -/
theorem Offers.erase {published : Table Uuid Published} (h : Offers published offers)
    (service : Uuid) : Offers (published.erase service) (offers.erase service) := by
  constructor
  · rw [services, Table.map_erase]
    exact h.serves.erase service
  · intro s present hs
    rw [Table.get?_erase] at hs
    obtain ⟨hne, hs⟩ := Option.ite_none_left_eq_some.mp hs
    rw [Table.get?_erase_of_ne _ hne]
    exact h.adId s present hs

/-- **A call that has its effect changes what is published and what is on offer alike.** -/
theorem Offers.change (h : Offers p.published offers) {request : Request}
    (hchange : p.change? request = some q) : Offers q.published (request.offer offers) := by
  cases request with
  | publish service ad draws =>
    rw [change?] at hchange
    split at hchange
    · cases hchange
    · rename_i changed hpublish
      exact h.publish (hchange ▸ hpublish)
  | unpublish service draws =>
    rw [change?] at hchange
    split at hchange
    · rw [published_of_republish hchange]
      exact h.erase service
    · cases hchange
  | clear =>
    rw [change?] at hchange
    split at hchange
    · cases hchange
    · rw [published_of_republish hchange]
      exact offers_empty

/-! ## Over a run -/

namespace Handover

/-- What is on offer after a happening. -/
def offerAfter (h : Handover) (offers : Table Uuid Advertisement) :
    Happening → Table Uuid Advertisement
  | .requests request => if (h.publisher.change? request).isSome then request.offer offers else offers
  | _ => offers

/-- What is on offer after a list of happenings. -/
def offered (manufacturerId : UInt16) :
    Handover → Table Uuid Advertisement → List Happening → Table Uuid Advertisement
  | _, offers, [] => offers
  | h, offers, x :: rest =>
    offered manufacturerId (h.after manufacturerId x) (h.offerAfter offers x) rest

variable {h : Handover}

/-- **Whatever happens, what is published carries what is on offer.** -/
theorem offers_after (hf : h.Fits) (ho : Offers h.publisher.published offers)
    (manufacturerId : UInt16) (happening : Happening) :
    Offers (h.after manufacturerId happening).publisher.published
      (h.offerAfter offers happening) := by
  by_cases hcall : ∃ request, happening = .requests request
  · obtain ⟨request, rfl⟩ := hcall
    rw [Handover.after, offerAfter]
    rcases hchange : h.publisher.change? request with _ | q
    · exact ho
    · exact ho.change hchange
  · -- whatever else happens is no change of what is published
    rw [not_exists] at hcall
    obtain ⟨unseen, belief, applying, applied, hpublisher⟩ := hf.frame_after manufacturerId hcall
    rw [hpublisher]
    cases happening with
    | requests request => exact absurd rfl (hcall request)
    | takes | answers | reports | returns => exact ho

theorem offers_run (hf : h.Fits) (ho : Offers h.publisher.published offers)
    (manufacturerId : UInt16) (happenings : List Happening) :
    Offers (h.run manufacturerId happenings).publisher.published
      (offered manufacturerId h offers happenings) := by
  induction happenings generalizing h offers with
  | nil => exact ho
  | cons x rest ih => exact ih (hf.after manufacturerId x) (offers_after hf ho manufacturerId x)

/-- The services that the radio serves after a list of happenings. -/
def served (manufacturerId : UInt16) (happenings : List Happening) : Table Uuid Characteristics :=
  ((initial.run manufacturerId happenings).logbook.presence manufacturerId).services

/-- What is on offer after a list of happenings. -/
def onOffer (manufacturerId : UInt16) (happenings : List Happening) : Table Uuid Advertisement :=
  offered manufacturerId initial ∅ happenings

/-- The calls to the radio have all succeeded, and the driver has nothing left to do. -/
structure Settles (manufacturerId : UInt16) (happenings : List Happening) : Prop where
  succeeds : ∀ x ∈ happenings, x.Succeeds
  idle : (initial.run manufacturerId happenings).publisher.applying = none
  seen : (initial.run manufacturerId happenings).publisher.unseen = false

/-- **A radio with nothing to do serves what is on offer.** -/
theorem Settles.serves {manufacturerId : UInt16} {happenings : List Happening}
    (h : Settles manufacturerId happenings) :
    Serves (served manufacturerId happenings) (onOffer manufacturerId happenings) := by
  rw [served, eq_showing_of_settled h.succeeds h.idle h.seen]
  exact (offers_run fits_initial offers_empty manufacturerId happenings).serves

end Handover

end Publisher

end Nearby
