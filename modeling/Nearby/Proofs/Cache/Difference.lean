import Mathlib.Data.Finset.Card
import Nearby.Proofs.Cache.Losses
import Nearby.Proofs.Cache.Sparing

/-!
# A fetch as a difference of sets

A fetch takes the stead of what is cached under its stamp and for its peer. As sets of keys, what was
known and what is fetched have a difference, and a subscriber that wants everything should hear just
that: a loss for each key that is gone, then an addition for each that is new (`ReportsDifference`).

Of the losses this is always so, even where two entries give way that had an advertisement in common:
each key is lost once. The additions are not told apart by key. They are the difference if no new key
is fetched twice, and only then (`reportsDifference_iff`).
-/

namespace Nearby.Cache

/-! ## Sets of keys -/

/-- The keys of advertisements, as a set. -/
def keySet (ads : List Advertisement) : Finset Key := (ads.map Advertisement.key).toFinset

/-- The keys of a list are those of its advertisements. -/
theorem mem_keySet {ads : List Advertisement} {key : Key} :
    key ∈ keySet ads ↔ ∃ ad ∈ ads, ad.key = key := by
  rw [keySet, List.mem_toFinset, List.mem_map]

/-- The keys depend on which advertisements there are, and not on how often. -/
theorem keySet_congr {a b : List Advertisement} (h : ∀ ad, ad ∈ a ↔ ad ∈ b) :
    keySet a = keySet b := by
  ext key
  simp only [mem_keySet, h]

/-- Advertisements that stand for a set of keys: there is one for each. -/
structure StandFor (ads : List Advertisement) (keys : Finset Key) : Prop where
  nodup : (ads.map Advertisement.key).Nodup
  keys : keySet ads = keys

/-- No key occurs twice exactly if there are as many keys as advertisements. -/
theorem nodup_iff_card_keySet {ads : List Advertisement} :
    (ads.map Advertisement.key).Nodup ↔ (keySet ads).card = ads.length := by
  have hcard : (keySet ads).card = (ads.map Advertisement.key).length ↔
      (ads.map Advertisement.key : Multiset Key).Nodup :=
    Multiset.toFinset_card_eq_card_iff_nodup
  rw [List.length_map] at hcard
  exact (hcard.trans Multiset.coe_nodup).symm

/-- A list that has each key once is as long as there are keys. -/
theorem StandFor.length_eq {ads : List Advertisement} {keys : Finset Key} (h : StandFor ads keys) :
    ads.length = keys.card := by
  rw [← h.keys, nodup_iff_card_keySet.mp h.nodup]

/-! ## Losses and additions -/

/-- The first of each key have different keys. -/
theorem nodup_key_firstOfEachKey (ads : List Advertisement) :
    ((firstOfEachKey ads).map Advertisement.key).Nodup := by
  induction ads with
  | nil => exact List.nodup_nil
  | cons ad rest ih =>
    rw [firstOfEachKey, List.map_cons, List.nodup_cons]
    refine ⟨fun hmem => ?_, ih.sublist (List.filter_sublist.map _)⟩
    obtain ⟨other, hother, hkey⟩ := List.mem_map.mp hmem
    exact bne_iff_ne.mp (List.mem_filter.mp hother).2 hkey

/-- They have all the keys. -/
theorem keySet_firstOfEachKey (ads : List Advertisement) :
    keySet (firstOfEachKey ads) = keySet ads := by
  ext key
  rw [mem_keySet, mem_keySet]
  constructor
  · rintro ⟨ad, had, hkey⟩
    exact ⟨ad, mem_firstOfEachKey had, hkey⟩
  · rintro ⟨ad, had, rfl⟩
    induction ads with
    | nil => cases had
    | cons first rest ih =>
      by_cases hfirst : ad.key = first.key
      · exact ⟨first, List.mem_cons_self, hfirst.symm⟩
      · have hrest : ad ∈ rest := (List.mem_cons.mp had).resolve_left (by rintro rfl; exact hfirst rfl)
        obtain ⟨other, hother, hkey⟩ := ih hrest
        refine ⟨other, List.mem_cons_of_mem _ (List.mem_filter.mpr ⟨hother, ?_⟩), hkey⟩
        rw [hkey]
        exact bne_iff_ne.mpr hfirst

/-- Those whose key others do not have stand apart from the others' keys. -/
theorem keySet_filter_not_any (ads others : List Advertisement) :
    keySet (ads.filter fun ad => !others.any fun other => other.key == ad.key) =
      keySet ads \ keySet others := by
  ext key
  rw [Finset.mem_sdiff, mem_keySet, mem_keySet, mem_keySet]
  simp only [List.mem_filter, not_any_key, decide_eq_true_eq, List.mem_map]
  constructor
  · rintro ⟨ad, ⟨had, hnone⟩, rfl⟩
    exact ⟨⟨ad, had, rfl⟩, hnone⟩
  · rintro ⟨⟨ad, had, rfl⟩, hnone⟩
    exact ⟨ad, ⟨had, hnone⟩, rfl⟩

/-- **Each key that is gone is lost once**, however often it was known. -/
theorem standFor_losses (previous fetched : List Advertisement) :
    StandFor (losses previous fetched) (keySet previous \ keySet fetched) where
  nodup := (nodup_key_firstOfEachKey previous).sublist (List.filter_sublist.map _)
  keys := by rw [losses, keySet_filter_not_any, keySet_firstOfEachKey]

/-- Every advertisement with a new key is added, as often as it was fetched. -/
theorem additions_eq (previous fetched : List Advertisement) :
    additions previous fetched = fetched.filter fun ad => ad.key ∉ keySet previous := by
  simp only [additions, not_any_key, keySet, List.mem_toFinset]

/-- The additions have the keys that were fetched, and not there before. -/
theorem keySet_additions (previous fetched : List Advertisement) :
    keySet (additions previous fetched) = keySet fetched \ keySet previous :=
  keySet_filter_not_any fetched previous

/-! ## What was known -/

/-- The advertisements cached under a stamp or for a peer. -/
def cachedFor (c : Cache) (stamp : Stamp) (peer : RadioId) : List Advertisement :=
  (c.entries.filter fun s e => s = stamp || e.peer = peer).values.flatMap Entry.ads

/-- Cached for a stamp and a peer is what is filed under either. -/
theorem mem_cachedFor {c : Cache} {stamp : Stamp} {peer : RadioId} {ad : Advertisement} :
    ad ∈ c.cachedFor stamp peer ↔
      ∃ s e, c.entries.get? s = some e ∧ ad ∈ e.ads ∧ (s = stamp ∨ e.peer = peer) := by
  simp only [cachedFor, Table.values, Table.filter, List.mem_flatMap, List.mem_map, List.mem_filter,
    Bool.or_eq_true, decide_eq_true_eq, Table.get?_eq_some_iff]
  constructor
  · rintro ⟨_, ⟨⟨s, e⟩, ⟨hmem, hfor⟩, rfl⟩, had⟩
    exact ⟨s, e, hmem, had, hfor⟩
  · rintro ⟨s, e, hmem, had, hfor⟩
    exact ⟨e, ⟨(s, e), ⟨hmem, hfor⟩, rfl⟩, had⟩

/-- A fetch takes the stead of all that is cached under its stamp and for its peer. -/
theorem mem_superseded_iff {c : Cache} (h : c.IsIndexed) {stamp : Stamp} {peer : RadioId}
    {ad : Advertisement} : ad ∈ c.superseded stamp peer ↔ ad ∈ c.cachedFor stamp peer := by
  rw [mem_cachedFor]
  refine ⟨of_mem_superseded h, ?_⟩
  rintro ⟨s, e, he, had, hfor⟩
  rw [superseded, List.mem_append]
  by_cases hpeer : e.peer = peer
  · refine .inl (mem_adsOf.mpr ⟨e, ?_, had⟩)
    rw [takePeer, ← hpeer, h.get?_peer he]
    exact (c.takeEntry_fst s).trans he
  · -- what is the peer's own is taken out first, and this entry is not
    obtain rfl := hfor.resolve_right hpeer
    refine .inr (mem_adsOf.mpr ⟨e, ?_, had⟩)
    rw [takeEntry_fst, get?_entries_takePeer h, he, Option.filter_some_pos (by simpa using hpeer)]

/-! ## The report -/

/-- What is heard of a fetch, and the numbers it gives, are the difference between what was known and
what is fetched: first a loss for each key that is gone, then an addition for each that is new. -/
structure ReportsDifference (known fetched heard : List Advertisement) (delta : Delta) : Prop where
  heard : ∃ gone found, heard = gone.map Advertisement.asLost ++ found ∧
    gone ⊆ known ∧ StandFor gone (keySet known \ keySet fetched) ∧
    found ⊆ fetched ∧ StandFor found (keySet fetched \ keySet known)
  removed : delta.removed = (keySet known \ keySet fetched).card
  added : delta.added = (keySet fetched \ keySet known).card

theorem isWanted_empty (ad : Advertisement) : ad.isWanted "" = true := rfl

/-- What a subscriber that wants everything hears of a fetch. -/
theorem heardBy_fetched_all {c : Cache} (h : c.HasDistinctHandlers) {handler : Handler}
    (hsub : ⟨"", handler⟩ ∈ c.subscriptions) (now : Timestamp) (stamp : Stamp) (peer : RadioId)
    (ads : List Advertisement) :
    heardBy handler (c.fetched now stamp peer ads).events =
      (losses (c.superseded stamp peer) ads).map Advertisement.asLost ++
        additions (c.superseded stamp peer) ads := by
  have hheard := heardBy_fetched h hsub now stamp peer ads
  simp only [isWanted_empty, List.filter_true] at hheard
  exact hheard

/-- **A fetch reports a difference of sets exactly if it brings no new key twice.** Whatever it brings,
each key that is gone is lost once; the additions behind the losses are all that has a new key, and
the numbers are those of what is heard. -/
theorem reportsDifference_iff (config : Config) (ops : List Operation) {handler : Handler}
    (hsub : ⟨"", handler⟩ ∈ ((new config).run ops).subscriptions) (now : Timestamp) (stamp : Stamp)
    (peer : RadioId) (ads : List Advertisement) :
    let c := (new config).run ops
    let known := c.cachedFor stamp peer
    let found := ads.filter fun ad => ad.key ∉ keySet known
    let u := c.fetched now stamp peer ads
    (∃ gone, gone ⊆ known ∧ StandFor gone (keySet known \ keySet ads) ∧
        heardBy handler u.events = gone.map Advertisement.asLost ++ found ∧
        u.value = ⟨found.length, gone.length⟩) ∧
      (ReportsDifference known ads (heardBy handler u.events) u.value ↔
        (found.map Advertisement.key).Nodup) := by
  intro c known found u
  have h : c.IsIndexed := isIndexed_run config ops
  -- what a fetch supersedes is what is cached for its stamp or its peer
  have hkeys : keySet (c.superseded stamp peer) = keySet known :=
    keySet_congr fun ad => mem_superseded_iff h
  have hfound : additions (c.superseded stamp peer) ads = found := by
    rw [additions_eq, hkeys]
  have hfoundKeys : keySet found = keySet ads \ keySet known := by
    rw [← hfound, keySet_additions, hkeys]
  let gone := losses (c.superseded stamp peer) ads
  have hgone : StandFor gone (keySet known \ keySet ads) := hkeys ▸ standFor_losses _ ads
  have hknown : gone ⊆ known := fun ad had => (mem_superseded_iff h).mp (of_mem_losses had).1
  have hheard : heardBy handler u.events = gone.map Advertisement.asLost ++ found :=
    hfound ▸ heardBy_fetched_all (hasDistinctHandlers_run config ops) hsub now stamp peer ads
  have hvalue : u.value = ⟨found.length, gone.length⟩ := by
    rw [← hfound]
    rfl
  refine ⟨⟨gone, hknown, hgone, hheard, hvalue⟩, ?_, ?_⟩
  · -- the number of additions alone tells whether a key was added twice
    intro hreports
    rw [nodup_iff_card_keySet, hfoundKeys, ← hreports.added, hvalue]
  · intro hnodup
    have hstand : StandFor found (keySet ads \ keySet known) := ⟨hnodup, hfoundKeys⟩
    refine ⟨⟨gone, found, hheard, hknown, hgone, List.filter_subset_self .., hstand⟩, ?_, ?_⟩
    · rw [hvalue, hgone.length_eq]
    · rw [hvalue, hstand.length_eq]

def hall : Advertisement := Advertisement.new ⟨.ofNat 2⟩ "hall"

def desk : Advertisement := Advertisement.new ⟨.ofNat 3⟩ "desk"

/-- A device publishes a room under two services and is then met at another address, where it
publishes the room and a hall. -/
def twoAddresses : List Operation :=
  [.subscribe "" ⟨"list"⟩, .fetched ⟨0⟩ ⟨1⟩ ⟨"aa"⟩ [room, room],
    .fetched ⟨0⟩ ⟨2⟩ ⟨"bb"⟩ [room, hall]]

theorem reportsDifference_twoAddresses :
    let c := (new .default).run twoAddresses
    let u := c.fetched ⟨5⟩ ⟨2⟩ ⟨"aa"⟩ [hall, hall, desk]
    heardBy ⟨"list"⟩ u.events = [room.asLost, desk] ∧
      ReportsDifference (c.cachedFor ⟨2⟩ ⟨"aa"⟩) [hall, hall, desk] (heardBy ⟨"list"⟩ u.events)
        u.value := by
  intro c u
  have hsub : ⟨"", ⟨"list"⟩⟩ ∈ c.subscriptions := by decide +kernel
  exact ⟨by decide +kernel, (reportsDifference_iff .default twoAddresses hsub ⟨5⟩ ⟨2⟩ ⟨"aa"⟩
    [hall, hall, desk]).2.mpr (by decide +kernel)⟩

/-- **A new key that is fetched twice is added twice.** A device that publishes a room under two
services is enough. -/
theorem not_always_reportsDifference :
    ¬ ∀ (config : Config) (ops : List Operation) (handler : Handler),
      ⟨"", handler⟩ ∈ ((new config).run ops).subscriptions →
        ∀ (now : Timestamp) (stamp : Stamp) (peer : RadioId) (ads : List Advertisement),
          let c := (new config).run ops
          let u := c.fetched now stamp peer ads
          ReportsDifference (c.cachedFor stamp peer) ads (heardBy handler u.events) u.value := by
  intro halways
  have hsub : ⟨"", ⟨"list"⟩⟩ ∈ ((new .default).run [.subscribe "" ⟨"list"⟩]).subscriptions := by
    decide +kernel
  have hadded := (halways .default _ ⟨"list"⟩ hsub ⟨0⟩ ⟨1⟩ ⟨"aa"⟩ [room, room]).added
  revert hadded
  decide +kernel

end Nearby.Cache
