import Nearby.Proofs.Agreement
import Nearby.Proofs.Cache.Losses

/-!
# Whether a gap is closed

A read may fail, and then the visit goes on without that characteristic. When the peer is visited
again and every read succeeds, the cache holds the advertisement as a whole. What a subscriber has
heard is another matter.

The cache compares by identifier and hash, and the hash is read from the peer like everything else. So
a subscriber hears of the whole advertisement exactly if the visit before did not learn its key
(`Visit.heals_iff`). If that visit read identifier and hash and missed some other part, the two count
as the same advertisement, and the last thing a subscriber has heard of it is the one with the gap
(`Visit.not_always_heals`).
-/

namespace Nearby

open Publisher.Handover (Happening Settles served onOffer)
open Cache (Operation heardBy history)

namespace Cache

/-! ## The last that was heard -/

/-- The last that was heard of an advertisement. -/
def lastAbout (adId : AdId) (heard : List Advertisement) : Option Advertisement :=
  (heard.filter fun ad => ad.id = adId).getLast?

/-- What is heard later is the last. -/
theorem lastAbout_append (adId : AdId) (a b : List Advertisement) :
    lastAbout adId (a ++ b) = (lastAbout adId b).or (lastAbout adId a) := by
  rw [lastAbout, List.filter_append, List.getLast?_append]
  rfl

/-- Nothing was heard about an advertisement that no event is about. -/
theorem lastAbout_eq_none_iff {adId : AdId} {heard : List Advertisement} :
    lastAbout adId heard = none ↔ ∀ ad ∈ heard, ad.id ≠ adId := by
  rw [lastAbout, List.getLast?_eq_none_iff, List.filter_eq_nil_iff]
  simp

/-- The last of what was heard was heard. -/
theorem mem_of_lastAbout {adId : AdId} {heard : List Advertisement} {ad : Advertisement}
    (h : lastAbout adId heard = some ad) : ad ∈ heard ∧ ad.id = adId := by
  obtain ⟨hmem, hid⟩ := List.mem_filter.mp (List.mem_of_getLast? h)
  exact ⟨hmem, of_decide_eq_true hid⟩

/-- Where only one thing was heard of an advertisement, it is the last. -/
theorem lastAbout_eq_some {ad : Advertisement} {heard : List Advertisement} (had : ad ∈ heard)
    (hone : ∀ other ∈ heard, other.id = ad.id → other = ad) : lastAbout ad.id heard = some ad := by
  rcases hlast : lastAbout ad.id heard with _ | last
  · exact absurd rfl (lastAbout_eq_none_iff.mp hlast ad had)
  · obtain ⟨hmem, hid⟩ := mem_of_lastAbout hlast
    rw [hone last hmem hid]

/-- A fetch adds what it tells to what was heard before. -/
theorem history_fetched (handler : Handler) (c : Cache) (heard : List Advertisement)
    (ops : List Operation) (now : Timestamp) (stamp : Stamp) (peer : RadioId)
    (ads : List Advertisement) :
    history handler c heard (ops ++ [.fetched now stamp peer ads]) =
      history handler c heard ops ++
        heardBy handler ((Operation.fetched now stamp peer ads).events (c.run ops)) := by
  induction ops generalizing c heard with
  | nil => rfl
  | cons op ops ih => exact ih (op.after c) _

/-! ## What a fetch tells of one advertisement -/

variable {c : Cache} {s : Subscription} {stamp : Stamp} {peer : RadioId} {ad : Advertisement}
  {ads : List Advertisement}

/-- If the key of an advertisement was not known, it is the last thing a fetch tells of it. -/
theorem lastAbout_additions_of_new {known : List Advertisement}
    (hnodup : (ads.map Advertisement.id).Nodup) (had : ad ∈ ads) {wanted : String}
    (hwanted : ad.isWanted wanted) (hnew : ∀ k ∈ known, k.key ≠ ad.key) :
    lastAbout ad.id ((additions known ads).filter (·.isWanted wanted)) = some ad := by
  refine lastAbout_eq_some ?_ fun other hother hid => ?_
  · rw [filter_additions, List.mem_filter]
    refine ⟨had, decide_eq_true ⟨hwanted, fun hknown => ?_⟩⟩
    obtain ⟨k, hk, hkey⟩ := List.mem_map.mp hknown
    exact hnew k hk hkey
  · have hfetched := List.mem_of_mem_filter (List.mem_of_mem_filter hother)
    exact List.inj_on_of_nodup_map hnodup hfetched had hid

/-- If the key was known, there is no addition. -/
theorem lastAbout_additions_of_known {known : List Advertisement}
    (hnodup : (ads.map Advertisement.id).Nodup) (had : ad ∈ ads) (wanted : String)
    (hknown : ∃ k ∈ known, k.key = ad.key) :
    lastAbout ad.id ((additions known ads).filter (·.isWanted wanted)) = none := by
  refine lastAbout_eq_none_iff.mpr fun other hother hid => ?_
  rw [filter_additions, List.mem_filter] at hother
  obtain ⟨hfetched, hnew⟩ := hother
  obtain rfl := List.inj_on_of_nodup_map hnodup hfetched had hid
  obtain ⟨k, hk, hkey⟩ := hknown
  exact (of_decide_eq_true hnew).2 (List.mem_map.mpr ⟨k, hk, hkey⟩)

/-- **When the last thing a subscriber has heard of an advertisement is the one that was fetched**: if
its key is new, or if it was heard before and nothing with its identifier is lost. -/
theorem lastAbout_fetched_iff (h : c.HasDistinctHandlers) (hs : s ∈ c.subscriptions)
    (now : Timestamp) (hnodup : (ads.map Advertisement.id).Nodup) (had : ad ∈ ads)
    (hkept : ad.lost = false) (hwanted : ad.isWanted s.wanted) (heard : List Advertisement) :
    let known := c.superseded stamp peer
    lastAbout ad.id
        (heard ++ heardBy s.handler ((Operation.fetched now stamp peer ads).events c)) = some ad ↔
      (∀ k ∈ known, k.key ≠ ad.key) ∨
        lastAbout ad.id heard = some ad ∧
          ∀ gone ∈ losses known ads, gone.isWanted s.wanted → gone.id ≠ ad.id := by
  intro known
  have hdef : c.superseded stamp peer = known := rfl
  rw [heardBy_fetched h hs, hdef, lastAbout_append, lastAbout_append]
  by_cases hnew : ∀ k ∈ known, k.key ≠ ad.key
  · rw [lastAbout_additions_of_new hnodup had hwanted hnew]
    exact iff_of_true rfl (.inl hnew)
  · have hknown : ∃ k ∈ known, k.key = ad.key := by simpa using hnew
    rw [lastAbout_additions_of_known hnodup had s.wanted hknown, Option.none_or, or_iff_right hnew]
    rcases hlast : lastAbout ad.id (((losses known ads).filter (·.isWanted s.wanted)).map
        Advertisement.asLost) with _ | last
    · -- nothing is heard of it, so the last word is what it was
      rw [hlast, Option.none_or, iff_self_and]
      intro _ gone hgone hgoneWanted
      refine lastAbout_eq_none_iff.mp hlast gone.asLost ?_
      exact List.mem_map_of_mem (List.mem_filter.mpr ⟨hgone, hgoneWanted⟩)
    · -- the last thing heard is a loss
      obtain ⟨hmem, hid⟩ := mem_of_lastAbout hlast
      obtain ⟨gone, hgone, rfl⟩ := List.mem_map.mp hmem
      obtain ⟨hgone, hgoneWanted⟩ := List.mem_filter.mp hgone
      rw [hlast, Option.some_or]
      refine iff_of_false (fun hsame => ?_) fun hnone => hnone.2 gone hgone hgoneWanted hid
      obtain rfl : gone.asLost = ad := Option.some.inj hsame
      cases hkept

end Cache

namespace Scan.Visit

/-- **Whether a gap is closed.** After a visit without gaps, the last thing a subscriber has heard of
an advertisement on offer is that advertisement, provided that its key was not known, or else that it
was heard before and nothing with its identifier is lost. If what was known was brought by an earlier
visit, on which some reads may have failed, this says: provided that the earlier visit did not learn
the key, or else that the advertisement was heard before. -/
theorem heals_iff (manufacturerId : UInt16) {after : List Happening} {later : Visit}
    (hlater : later.Reaches manufacturerId after)
    (hwhole : later.IsWhole (served manufacturerId after)) (config : Cache.Config)
    (ops : List Operation) (now : Timestamp) (stamp : Stamp) (peer : RadioId) {s : Subscription}
    (hs : s ∈ ((Cache.new config).run ops).subscriptions) {ad : Advertisement}
    (had : ad ∈ (onOffer manufacturerId after).values) (hwanted : ad.isWanted s.wanted) :
    let ads := (onOffer manufacturerId after).values
    let known := ((Cache.new config).run ops).superseded stamp peer
    let last := fun ops => Cache.lastAbout ad.id (history s.handler (Cache.new config) [] ops)
    later.Brings peer ads ∧
      (last (ops ++ [.fetched now stamp peer ads]) = some ad ↔
        (∀ k ∈ known, k.key ≠ ad.key) ∨ last ops = some ad ∧
          ∀ gone ∈ Cache.losses known ads, gone.isWanted s.wanted → gone.id ≠ ad.id) ∧
      ∀ (before : List Happening) (earlier : Visit), earlier.Reaches manufacturerId before →
        known = earlier.ads peer →
        ∀ service, (onOffer manufacturerId before).get? service = some ad →
          (last (ops ++ [.fetched now stamp peer ads]) = some ad ↔
            ¬ earlier.LearnsKey service ad ∨ last ops = some ad) := by
  intro ads known last
  have hserves := hlater.settles.serves
  have hheard : last (ops ++ [.fetched now stamp peer ads]) = some ad ↔
      (∀ k ∈ known, k.key ≠ ad.key) ∨ last ops = some ad ∧
        ∀ gone ∈ Cache.losses known ads, gone.isWanted s.wanted → gone.id ≠ ad.id := by
    change Cache.lastAbout ad.id (history _ _ _ (ops ++ _)) = _ ↔ _
    rw [Cache.history_fetched]
    exact Cache.lastAbout_fetched_iff (Cache.hasDistinctHandlers_run config ops) hs now
      hserves.nodup_ids had (hserves.kept_of_mem had) hwanted _
  refine ⟨hlater.brings hwhole peer, hheard, ?_⟩
  intro before earlier hearlier hknown service hoffer
  have hkey : (∃ k ∈ known, k.key = ad.key) ↔ earlier.LearnsKey service ad := by
    rw [hknown]
    exact exists_key_iff hearlier.isTo hearlier.settles.serves hearlier.readable hoffer
  -- what was known of the peer is what the earlier visit brought
  rw [hheard]
  by_cases hlearns : earlier.LearnsKey service ad
  · -- what is known under the identifier is known under the key, so it is not lost
    have hgone : ∀ gone ∈ Cache.losses known ads, gone.isWanted s.wanted → gone.id ≠ ad.id := by
      intro gone hmem _ hid
      obtain ⟨hmem, hlost⟩ := Cache.of_mem_losses hmem
      rw [hknown] at hmem
      have htrace := isTrace_of_id hearlier.isTo hearlier.settles.serves hearlier.readable hoffer
        hmem hid
      exact hlost ad had (htrace.key_eq_iff.mpr hlearns).symm
    have hnew : ¬ ∀ k ∈ known, k.key ≠ ad.key := by
      obtain ⟨k, hk, hsame⟩ := hkey.mpr hlearns
      exact fun hnew => hnew k hk hsame
    rw [or_iff_right hnew, or_iff_right (not_not_intro hlearns)]
    exact ⟨fun h => h.1, fun h => ⟨h, hgone⟩⟩
  · refine iff_of_true (.inl fun k hk hsame => ?_) (.inl hlearns)
    exact hlearns (hkey.mp ⟨k, hk, hsame⟩)

/-! ## A lamp with a gap -/

/-- The device that offers the lamp publishes it again, so that it is broadcast under another stamp. -/
def lampRepeated : List Happening :=
  lampOffered ++ [.reports, .requests (.publish (.ofNat 1) lamp [⟨2⟩]), .takes, .answers (.ok ()),
    .answers (.ok ())]

theorem reaches_lampRepeated (fails : Target → Bool) :
    (reaching lampRepeated fails).Reaches defaultManufacturerId lampRepeated where
  settles := by
    refine ⟨?_, Option.isNone_iff_eq_none.mp (by decide +kernel), by decide +kernel⟩
    simp [lampRepeated, lampOffered, Happening.Succeeds]
  readable := by decide +kernel
  isTo := isTo_failing _ _

theorem values_lampRepeated :
    (onOffer defaultManufacturerId lampRepeated).values = [Publisher.prepare lamp] := by
  decide +kernel

/-- A subscriber waits, and the lamp is visited while the reads of one characteristic fail. -/
def visitedWithGap (characteristic : Uuid) : List Operation :=
  [.subscribe "lamp" ⟨"list"⟩, .fetched ⟨0⟩ ⟨1⟩ ⟨"aa"⟩
    ((reaching lampOffered fun t => t.characteristic = characteristic).ads ⟨"aa"⟩)]

/-- Without its hash the lamp counts as another one, and the subscriber hears of the whole lamp as soon
as it is visited again. -/
theorem heals_lamp :
    let gap := visitedWithGap Characteristics.hashUuid
    let heard := fun ops => history ⟨"list"⟩ (Cache.new .default) [] ops
    Cache.lastAbout lamp.id (heard gap) = some { Publisher.prepare lamp with hash := default } ∧
      Cache.lastAbout lamp.id
          (heard (gap ++ [.fetched ⟨5⟩ ⟨2⟩ ⟨"aa"⟩ [Publisher.prepare lamp]])) =
        some (Publisher.prepare lamp) := by
  intro gap heard
  let earlier := reaching lampOffered fun t => t.characteristic = Characteristics.hashUuid
  have hs : ⟨"lamp", ⟨"list"⟩⟩ ∈ ((Cache.new .default).run gap).subscriptions := by decide +kernel
  have had : Publisher.prepare lamp ∈ (onOffer defaultManufacturerId lampRepeated).values := by
    rw [values_lampRepeated]
    exact List.mem_singleton_self _
  have hknown : ((Cache.new .default).run gap).superseded ⟨2⟩ ⟨"aa"⟩ = earlier.ads ⟨"aa"⟩ := by
    decide +kernel
  have hoffer : (onOffer defaultManufacturerId lampOffered).get? (.ofNat 1) =
      some (Publisher.prepare lamp) := by
    decide +kernel
  have hmissed : ¬ earlier.LearnsKey (.ofNat 1) (Publisher.prepare lamp) := by
    rw [LearnsKey]
    decide +kernel
  obtain ⟨-, -, hheals⟩ := heals_iff defaultManufacturerId (reaches_lampRepeated _) (isWhole_failing _)
    .default gap ⟨5⟩ ⟨2⟩ ⟨"aa"⟩ hs had (by decide +kernel)
  have hhealed := (hheals lampOffered earlier (reaches_lampOffered _) hknown _ hoffer).mpr
    (.inl hmissed)
  rw [values_lampRepeated] at hhealed
  refine ⟨?_, hhealed⟩
  decide +kernel

/-- **A gap may stay.** An attribute of the lamp cannot be read at first. Later the lamp is visited
again, and everything can be read; but the subscriber has heard of a lamp without attribute, and hears
nothing else. -/
theorem not_always_heals :
    let room := Characteristics.attributeUuid "room"
    let ops := visitedWithGap room ++ [.fetched ⟨5⟩ ⟨2⟩ ⟨"aa"⟩ [Publisher.prepare lamp]]
    (reaching lampOffered fun t => t.characteristic = room).Reaches defaultManufacturerId
        lampOffered ∧
      (reaching lampRepeated fun _ => false).Brings ⟨"aa"⟩ [Publisher.prepare lamp] ∧
      Publisher.prepare lamp ∈ ((Cache.new .default).run ops).advertisements ∧
      Cache.lastAbout lamp.id (history ⟨"list"⟩ (Cache.new .default) [] ops) =
        some { Publisher.prepare lamp with attributes := ∅ } ∧
      Cache.lastAbout lamp.id (history ⟨"list"⟩ (Cache.new .default) [] ops) ≠
        some (Publisher.prepare lamp) := by
  intro room ops
  have hbrings := (reaches_lampRepeated _).brings (isWhole_failing _) ⟨"aa"⟩
  rw [values_lampRepeated] at hbrings
  have hlast : Cache.lastAbout lamp.id (history ⟨"list"⟩ (Cache.new .default) [] ops) =
      some { Publisher.prepare lamp with attributes := ∅ } := by
    decide +kernel
  refine ⟨reaches_lampOffered _, hbrings, ?_, hlast, ?_⟩
  · decide +kernel
  · rw [hlast]
    decide +kernel

end Scan.Visit

end Nearby
