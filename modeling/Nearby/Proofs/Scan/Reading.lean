import Nearby.Proofs.Characteristics.Gaps
import Nearby.Proofs.Publisher.Offer
import Nearby.Proofs.Scan.Visit

/-!
# Reading what is on offer

A peer visits a radio that serves what is on offer. If every read succeeds, the visit brings just the
advertisements on offer, by ascending service (`Visit.brings_of_isWhole`).

If some reads fail, the visit brings an advertisement from each service whose identifier was read. Its
hash is that of the advertisement on offer, if it was read at all, whatever else of it is missing
(`Visit.of_mem_ads`). So an advertisement with gaps can have the key of the whole one
(`Visit.exists_key_iff`).
-/

namespace Nearby

open Characteristics (encode decode idUuid hashUuid wireKeys TellsApart)

/-- What is on offer can be read back: no service is one that a fetch passes over, and the keys of
each advertisement are told apart. -/
def IsReadable (offers : Table Uuid Advertisement) : Prop :=
  ∀ service ad, offers.get? service = some ad →
    service.isReserved = false ∧ TellsApart (wireKeys ad)

/-- All offers can be read exactly if each can. -/
theorem isReadable_iff {offers : Table Uuid Advertisement} : IsReadable offers ↔
    ∀ e ∈ offers.entries, e.1.isReserved = false ∧ TellsApart (wireKeys e.2) := by
  constructor
  · exact fun h e he => h e.1 e.2 (Table.get?_eq_some_iff.mpr he)
  · exact fun h service ad hoffer => h (service, ad) (Table.get?_eq_some_iff.mp hoffer)

instance (offers : Table Uuid Advertisement) : Decidable (IsReadable offers) :=
  decidable_of_iff _ isReadable_iff.symm

namespace Scan

variable {services : Table Uuid Characteristics} {offers : Table Uuid Advertisement} {v : Visit}
  {service : Uuid} {ad : Advertisement} {m : Characteristics} {peer : RadioId}

/-- What is served is not reserved. -/
theorem isUnreserved_of_serves (hs : Serves services offers) (hr : IsReadable offers) :
    Visit.IsUnreserved services := by
  intro service m hm
  obtain ⟨ad, hoffer⟩ := hs.offered service m hm
  exact (hr service ad hoffer).1

/-! ## Advertisements of services -/

/-- A service is decoded if it has an identifier. -/
theorem decodeService_fst (peer : RadioId) (service : Uuid) (m : Characteristics)
    (ad : Advertisement) :
    (decodeService peer service m).1 = some ad ↔ ad = (decode m).ad ∧ ad.id.isZero = false := by
  rw [decodeService]
  by_cases hzero : (decode m).ad.id.isZero = true
  · simp only [hzero, if_true]
    constructor
    · exact nofun
    · rintro ⟨rfl, hid⟩
      cases hzero.symm.trans hid
  · simp only [hzero]
    constructor
    · rintro ⟨⟩
      exact ⟨rfl, Bool.eq_false_iff.mpr hzero⟩
    · rintro ⟨rfl, -⟩
      rfl

/-- What a service carries is read from its characteristics, with nothing skipped. -/
theorem decode_of_serves (hs : Serves services offers) (hr : IsReadable offers)
    (hm : services.get? service = some m) (hoffer : offers.get? service = some ad) :
    decode m = ⟨ad, []⟩ ∧ ad.id.isZero = false := by
  obtain ⟨n, hn, hencode⟩ := hs.encoded service ad hoffer
  obtain rfl := Option.some.inj (hm.symm.trans hn)
  exact ⟨Characteristics.decode_eq_of_told hencode (hr service ad hoffer).2
    (hs.kept service ad hoffer), Characteristics.isZero_id_of_encode hencode⟩

/-- What is on offer is what the services carry. -/
theorem offers_eq_map (hs : Serves services offers) (hr : IsReadable offers) :
    offers = services.map fun _ m => (decode m).ad := by
  refine Table.ext_get? fun service => ?_
  rw [Table.get?_map]
  rcases hoffer : offers.get? service with _ | ad
  · rcases hm : services.get? service with _ | m
    · rfl
    · obtain ⟨ad, had⟩ := hs.offered service m hm
      cases hoffer.symm.trans had
  · obtain ⟨m, hm, -⟩ := hs.encoded service ad hoffer
    rw [hm, Option.map_some, (decode_of_serves hs hr hm hoffer).1]

/-- **What is served reads as what is on offer**, by ascending service. -/
theorem decodeReadings_of_serves (hs : Serves services offers) (hr : IsReadable offers)
    (peer : RadioId) : decodeReadings peer services = (offers.values, []) := by
  have hdecoded : services.entries.map (fun e => decodeService peer e.1 e.2) =
      services.entries.map fun e => (some (decode e.2).ad, []) := by
    refine List.map_congr_left fun e he => ?_
    have hm := Table.get?_eq_some_iff.mpr he
    obtain ⟨ad, hoffer⟩ := hs.offered e.1 e.2 hm
    obtain ⟨hdecode, hid⟩ := decode_of_serves hs hr hm hoffer
    simp [decodeService, hdecode, hid]
  rw [decodeReadings, hdecoded, offers_eq_map hs hr]
  refine Prod.ext ?_ ?_
  · simp [Table.values, Table.map, List.filterMap_map, Function.comp_def]
  · simp [List.flatMap_map]

/-! ## Visits without gaps -/

namespace Visit

/-- A fetch from a peer comes to an end in just one way, and gives these advertisements without any
warning. -/
def Brings (v : Visit) (peer : RadioId) (ads : List Advertisement) : Prop :=
  ∃ readings, decodeReadings peer readings = (ads, []) ∧
    ∀ id epoch outcome, v.EndsWith id ((Fetch.new peer epoch).begin id) outcome ↔
      outcome = .ok readings

/-- A visit on which all is read brings back all that is served. -/
theorem readings_of_isWhole (hv : v.IsTo services) (hwhole : v.IsWhole services)
    (hs : Serves services offers) (hr : IsReadable offers) : v.readings = services := by
  rw [hv.readings_eq (isUnreserved_of_serves hs hr)]
  refine Table.ext_get? fun service => ?_
  rw [Table.get?_filter, Table.get?_map]
  rcases hm : services.get? service with _ | m
  · rfl
  have hgot : v.got service m = m := by
    refine Table.ext_get? fun u => ?_
    rw [got, Table.get?_filter]
    rcases hvalue : m.get? u with _ | value
    · rfl
    · exact Option.filter_some_pos (hwhole service m u value hm hvalue)
  -- a service that carries an advertisement has characteristics
  obtain ⟨ad, hoffer⟩ := hs.offered service m hm
  obtain ⟨hdecode, hid⟩ := decode_of_serves hs hr hm hoffer
  have hempty : m.isEmpty ≠ true := by
    intro hempty
    rw [Table.eq_empty_of_isEmpty hempty] at hdecode
    cases hdecode
    cases hid
  rw [Option.map_some, hgot, Option.filter_some_pos (by simp [hempty])]

/-- **A visit without gaps brings what is on offer**, by ascending service. -/
theorem brings_of_isWhole (hv : v.IsTo services) (hwhole : v.IsWhole services)
    (hs : Serves services offers) (hr : IsReadable offers) (peer : RadioId) :
    v.Brings peer offers.values := by
  refine ⟨services, decodeReadings_of_serves hs hr peer, fun id epoch outcome => ?_⟩
  rw [endsWith_begin (hv.keepsLink (isUnreserved_of_serves hs hr)),
    readings_of_isWhole hv hwhole hs hr]

/-! ## Visits with gaps -/

/-- The advertisements that a visit brings. -/
def ads (v : Visit) (peer : RadioId) : List Advertisement := (decodeReadings peer v.readings).1

/-- What a visit leaves of an advertisement: its identifier, which must be read, and its hash, if that
is read. -/
structure IsTrace (v : Visit) (service : Uuid) (ad trace : Advertisement) : Prop where
  reads : v.reads service idUuid = true
  id : trace.id = ad.id
  hash : trace.hash = if v.reads service hashUuid = true then ad.hash else default

/-- The traces of a visit are those of the services that were read. -/
theorem mem_ads {trace : Advertisement} :
    trace ∈ v.ads peer ↔ ∃ service m, v.readings.get? service = some m ∧ trace = (decode m).ad ∧
      trace.id.isZero = false := by
  rw [ads, decodeReadings, List.mem_filterMap]
  constructor
  · rintro ⟨d, hd, htrace⟩
    obtain ⟨⟨service, m⟩, hm, rfl⟩ := List.mem_map.mp hd
    exact ⟨service, m, Table.get?_eq_some_iff.mpr hm,
      (decodeService_fst peer service m trace).mp htrace⟩
  · rintro ⟨service, m, hm, htrace⟩
    exact ⟨_, List.mem_map.mpr ⟨(service, m), Table.get?_eq_some_iff.mp hm, rfl⟩,
      (decodeService_fst peer service m trace).mpr htrace⟩

/-- What is read of a service has an identifier exactly if the characteristic with it is read. -/
theorem isZero_id_decode_got (hs : Serves services offers) (hr : IsReadable offers)
    (hm : services.get? service = some m) :
    (decode (v.got service m)).ad.id.isZero = !v.reads service idUuid := by
  obtain ⟨ad, hoffer⟩ := hs.offered service m hm
  obtain ⟨n, hn, hencode⟩ := hs.encoded service ad hoffer
  obtain rfl := Option.some.inj (hm.symm.trans hn)
  rw [got, Characteristics.id_decode_filter hencode (hr service ad hoffer).2]
  rcases v.reads service idUuid with _ | _
  · rfl
  · exact Characteristics.isZero_id_of_encode hencode

/-- A service of which the identifier was read leaves a trace of its advertisement. -/
theorem isTrace_decode_got (hs : Serves services offers) (hr : IsReadable offers)
    (hm : services.get? service = some m) (hoffer : offers.get? service = some ad)
    (hreads : v.reads service idUuid = true) :
    v.IsTrace service ad (decode (v.got service m)).ad := by
  obtain ⟨n, hn, hencode⟩ := hs.encoded service ad hoffer
  obtain rfl := Option.some.inj (hm.symm.trans hn)
  refine ⟨hreads, ?_, Characteristics.hash_decode_filter hencode (hr service ad hoffer).2 _⟩
  rw [got, Characteristics.id_decode_filter hencode (hr service ad hoffer).2, if_pos hreads]

/-- **What a visit brings are traces of what is on offer.** -/
theorem of_mem_ads (hv : v.IsTo services) (hs : Serves services offers) (hr : IsReadable offers)
    {trace : Advertisement} (htrace : trace ∈ v.ads peer) :
    ∃ service ad, offers.get? service = some ad ∧ v.IsTrace service ad trace := by
  obtain ⟨service, n, hn, rfl, hid⟩ := mem_ads.mp htrace
  rw [hv.readings_eq (isUnreserved_of_serves hs hr), Table.get?_filter, Option.filter_eq_some_iff,
    Table.get?_map, Option.map_eq_some_iff] at hn
  obtain ⟨⟨m, hm, rfl⟩, -⟩ := hn
  obtain ⟨ad, hoffer⟩ := hs.offered service m hm
  rw [isZero_id_decode_got hs hr hm, Bool.not_eq_false'] at hid
  exact ⟨service, ad, hoffer, isTrace_decode_got hs hr hm hoffer hid⟩

/-- **A visit brings a trace of what is on offer** if it reads the identifier. -/
theorem exists_isTrace (hv : v.IsTo services) (hs : Serves services offers) (hr : IsReadable offers)
    (hoffer : offers.get? service = some ad) (hreads : v.reads service idUuid = true) :
    ∃ trace ∈ v.ads peer, v.IsTrace service ad trace := by
  obtain ⟨m, hm, hencode⟩ := hs.encoded service ad hoffer
  have hid : (decode (v.got service m)).ad.id.isZero = false := by
    rw [isZero_id_decode_got hs hr hm, hreads]
    rfl
  refine ⟨_, mem_ads.mpr ⟨service, v.got service m, ?_, rfl, hid⟩,
    isTrace_decode_got hs hr hm hoffer hreads⟩
  rw [hv.readings_eq (isUnreserved_of_serves hs hr), Table.get?_filter, Table.get?_map, hm,
    Option.map_some, Option.filter_some_pos]
  -- nothing would be read of an empty service, not even the identifier
  rw [Bool.not_eq_true', Bool.eq_false_iff]
  intro hempty
  rw [Table.eq_empty_of_isEmpty hempty] at hid
  cases hid

/-! ## Keys -/

/-- A visit learns the key of an advertisement: it reads the identifier, and the hash, unless there is
none. -/
def LearnsKey (v : Visit) (service : Uuid) (ad : Advertisement) : Prop :=
  v.reads service idUuid = true ∧ (v.reads service hashUuid = true ∨ ad.hash = default)

/-- A trace has the key of its advertisement exactly if the hash was read with it. -/
theorem IsTrace.key_eq_iff {trace : Advertisement} (h : v.IsTrace service ad trace) :
    trace.key = ad.key ↔ v.LearnsKey service ad := by
  rw [Advertisement.key, Advertisement.key, Prod.mk.injEq, and_iff_right h.id, LearnsKey,
    and_iff_right h.reads, h.hash]
  by_cases hhash : v.reads service hashUuid = true
  · simp [hhash]
  · simp [hhash, eq_comm]

/-- A trace with the identifier of an advertisement on offer is a trace of it. -/
theorem isTrace_of_id (hv : v.IsTo services) (hs : Serves services offers) (hr : IsReadable offers)
    (hoffer : offers.get? service = some ad) {trace : Advertisement} (htrace : trace ∈ v.ads peer)
    (hid : trace.id = ad.id) : v.IsTrace service ad trace := by
  obtain ⟨service', ad', hoffer', h⟩ := of_mem_ads hv hs hr htrace
  obtain rfl := hs.distinct service' service ad' ad hoffer' hoffer (h.id.symm.trans hid)
  obtain rfl := Option.some.inj (hoffer'.symm.trans hoffer)
  exact h

/-- **What is read with gaps may have the key of the whole**: it does as soon as the key was learnt. -/
theorem exists_key_iff (hv : v.IsTo services) (hs : Serves services offers) (hr : IsReadable offers)
    (hoffer : offers.get? service = some ad) :
    (∃ trace ∈ v.ads peer, trace.key = ad.key) ↔ v.LearnsKey service ad := by
  constructor
  · rintro ⟨trace, htrace, hkey⟩
    exact (isTrace_of_id hv hs hr hoffer htrace (congrArg Prod.fst hkey)).key_eq_iff.mp hkey
  · intro hlearns
    obtain ⟨trace, htrace, h⟩ : ∃ trace ∈ v.ads peer, v.IsTrace service ad trace :=
      exists_isTrace hv hs hr hoffer hlearns.1
    exact ⟨trace, htrace, h.key_eq_iff.mpr hlearns⟩

end Visit

end Scan

end Nearby
