import Nearby.Proofs.Cache.Balance

/-!
# What a loss says

A subscriber that hears of a loss learns the key of an advertisement, and not which peer had it. Two
peers may have it alike, and so may two entries of one device that has changed its address: the cache
files each by itself and reports for each what it holds, when it goes.

So a loss does not say that the advertisement is gone from the cache. It says that one entry less has
it: an entry that held the key does not hold it any more, and no entry holds it that did not before
(`WithdrawsFrom`). It is gone altogether if only one entry held it.
-/

namespace Nearby.Cache

/-- The entry under a stamp holds a key. -/
def HoldsUnder (c : Cache) (stamp : Stamp) (key : Key) : Prop :=
  ∃ e, c.entries.get? stamp = some e ∧ ∃ ad ∈ e.ads, ad.key = key

/-- From the first cache to the second, a key is taken out of an entry and not put into any: an entry
that holds it in the end held it at first, with the same advertisements. -/
structure WithdrawsFrom (c c' : Cache) (key : Key) : Prop where
  gone : ∃ stamp, c.HoldsUnder stamp key ∧ ¬ c'.HoldsUnder stamp key
  kept : ∀ stamp e', c'.entries.get? stamp = some e' → (∃ ad ∈ e'.ads, ad.key = key) →
    ∃ e, c.entries.get? stamp = some e ∧ e.ads = e'.ads

variable {c c' : Cache} {key : Key}

/-- Nothing is held under a stamp that is not cached. -/
theorem not_holdsUnder_of_get?_eq_none {stamp : Stamp} (h : c.entries.get? stamp = none) :
    ¬ c.HoldsUnder stamp key := by
  rintro ⟨e, he, -⟩
  cases h.symm.trans he

/-- What is held after a withdrawal was held before. -/
theorem WithdrawsFrom.held (h : c.WithdrawsFrom c' key) {stamp : Stamp}
    (hheld : c'.HoldsUnder stamp key) : c.HoldsUnder stamp key := by
  obtain ⟨e', he', hholds⟩ := hheld
  obtain ⟨e, he, hads⟩ := h.kept stamp e' he' hholds
  exact ⟨e, he, hads ▸ hholds⟩

/-- What only one entry held is gone altogether. -/
theorem WithdrawsFrom.not_holdsUnder (h : c.WithdrawsFrom c' key)
    (hone : ∀ s t, c.HoldsUnder s key → c.HoldsUnder t key → s = t) (stamp : Stamp) :
    ¬ c'.HoldsUnder stamp key := by
  intro hheld
  obtain ⟨gone, hbefore, hafter⟩ := h.gone
  rw [hone gone stamp hbefore (h.held hheld)] at hafter
  exact hafter hheld

/-! ## Filing an entry -/

/-- What an entry that is filed does not hold is withdrawn from the entries that give way to it. -/
theorem Files.withdrawsFrom {stamp gone : Stamp} {d e : Entry} (hf : c.Files stamp e c')
    (hd : c.entries.get? gone = some d) (hheld : ∃ ad ∈ d.ads, ad.key = key)
    (hgives : gone = stamp ∨ d.peer = e.peer)
    (hkept : (∃ ad ∈ e.ads, ad.key = key) → gone ≠ stamp ∧
      ∃ before, c.entries.get? stamp = some before ∧ before.ads = e.ads) :
    c.WithdrawsFrom c' key where
  gone := by
    refine ⟨gone, ⟨d, hd, hheld⟩, ?_⟩
    rintro ⟨e', he', hholds⟩
    rw [hf.entries] at he'
    by_cases hgone : gone = stamp
    · rw [if_pos hgone] at he'
      obtain rfl := Option.some.inj he'
      exact (hkept hholds).1 hgone
    · rw [if_neg hgone, hd, Option.filter_some_neg] at he'
      · cases he'
      · simpa using hgives.resolve_left hgone
  kept s e' he' hholds := by
    rw [hf.entries] at he'
    by_cases hs : s = stamp
    · rw [if_pos hs] at he'
      obtain rfl := Option.some.inj he'
      rw [hs]
      exact (hkept hholds).2
    · rw [if_neg hs, Option.filter_eq_some_iff] at he'
      exact ⟨e', he'.1, rfl⟩

/-! ## Fetches -/

/-- The first of each key is one of them. -/
theorem mem_firstOfEachKey {ads : List Advertisement} {ad : Advertisement}
    (h : ad ∈ firstOfEachKey ads) : ad ∈ ads := by
  induction ads with
  | nil => exact h
  | cons first rest ih =>
    rcases List.mem_cons.mp h with rfl | h
    · exact List.mem_cons_self
    · exact List.mem_cons_of_mem _ (ih (List.mem_of_mem_filter h))

/-- What is lost was there and is not fetched again. -/
theorem of_mem_losses {previous fetched : List Advertisement} {ad : Advertisement}
    (h : ad ∈ losses previous fetched) :
    ad ∈ previous ∧ ∀ other ∈ fetched, other.key ≠ ad.key := by
  obtain ⟨hfirst, hnone⟩ := List.mem_filter.mp h
  refine ⟨mem_firstOfEachKey hfirst, fun other hother hkey => ?_⟩
  rw [Bool.not_eq_true', List.any_eq_false] at hnone
  exact hnone other hother (beq_iff_eq.mpr hkey)

/-- What a fetch supersedes is in the entry under its stamp or in that of its peer. -/
theorem of_mem_superseded (h : c.IsIndexed) {stamp : Stamp} {peer : RadioId} {ad : Advertisement}
    (had : ad ∈ c.superseded stamp peer) :
    ∃ s d, c.entries.get? s = some d ∧ ad ∈ d.ads ∧ (s = stamp ∨ d.peer = peer) := by
  rcases List.mem_append.mp had with had | had
  · obtain ⟨d, hd, had⟩ := mem_adsOf.mp had
    obtain ⟨s, hindex, hd⟩ := takePeer_fst_eq_some hd
    obtain ⟨d', hd', hpeer⟩ := (h peer s).mp hindex
    obtain rfl := Option.some.inj (hd.symm.trans hd')
    exact ⟨s, d, hd, had, .inr hpeer⟩
  · obtain ⟨d, hd, had⟩ := mem_adsOf.mp had
    rw [takeEntry_fst, get?_entries_takePeer h, Option.filter_eq_some_iff] at hd
    exact ⟨stamp, d, hd.1, had, .inl rfl⟩

/-- A loss that a fetch tells of withdraws its key. -/
theorem withdrawsFrom_fetched (h : c.IsIndexed) {now : Timestamp} {stamp : Stamp} {peer : RadioId}
    {ads : List Advertisement} (hkept : ∀ ad ∈ ads, ad.lost = false) {ad : Advertisement}
    (had : ad ∈ (c.fetched now stamp peer ads).changes) (hlost : ad.lost = true) :
    c.WithdrawsFrom (c.fetched now stamp peer ads).cache ad.key := by
  rw [changes_fetched] at had
  rcases List.mem_append.mp had with had | had
  · obtain ⟨before, hbefore, rfl⟩ := List.mem_map.mp had
    obtain ⟨hsuperseded, hnone⟩ := of_mem_losses hbefore
    obtain ⟨s, d, hd, hmem, hgives⟩ := of_mem_superseded h hsuperseded
    refine (files_fetched h now stamp peer ads).withdrawsFrom hd ⟨before, hmem, rfl⟩ hgives ?_
    rintro ⟨other, hother, hkey⟩
    exact absurd hkey (hnone other hother)
  · rw [hkept ad (List.mem_of_mem_filter had)] at hlost
    cases hlost

/-! ## Sightings -/

/-- Only an entry that is superseded at its address is lost, and that is not the one that was seen. -/
theorem withdrawsFrom_haveSeen (h : c.IsIndexed) {now : Timestamp} {stamp : Stamp} {peer : RadioId}
    {ad : Advertisement} (had : ad ∈ (c.haveSeen now stamp peer).changes) :
    c.WithdrawsFrom (c.haveSeen now stamp peer).cache ad.key := by
  rcases he : c.entries.get? stamp with _ | e
  · rw [haveSeen_of_get?_eq_none he] at had
    cases had
  by_cases hpeer : e.peer = peer
  · subst hpeer
    rw [haveSeen_of_get?_eq_some he] at had
    cases had
  · have hfiles := files_haveSeen h now peer he
    rw [haveSeen_of_ne h now he hpeer] at had
    rcases hstale : c.byPeer.get? peer with _ | stale
    · rw [hstale] at had
      cases had
    · rw [hstale] at had
      obtain ⟨before, hbefore, rfl⟩ := List.mem_map.mp had
      obtain ⟨d, hd, hmem⟩ := mem_adsOf.mp hbefore
      obtain ⟨d', hd', hat⟩ := (h peer stale).mp hstale
      obtain rfl := Option.some.inj (hd.symm.trans hd')
      have hne : stale ≠ stamp := by
        rintro rfl
        exact hpeer (by rw [Option.some.inj (he.symm.trans hd), hat])
      exact hfiles.withdrawsFrom hd ⟨before, hmem, rfl⟩ (.inr hat) fun _ => ⟨hne, e, he, rfl⟩

/-! ## Sweeps -/

/-- What an eviction reports was in one of the entries that it takes out. -/
theorem of_mem_changes_evict {stamps : List Stamp} {ad : Advertisement}
    (had : ad ∈ (c.evict stamps).changes) :
    ∃ stamp ∈ stamps, c.HoldsUnder stamp ad.key := by
  induction stamps generalizing c with
  | nil => cases had
  | cons stamp rest ih =>
    have hchanges : (c.evict (stamp :: rest)).changes =
        (adsOf (c.takeEntry stamp).1).map Advertisement.asLost ++
          ((c.takeEntry stamp).2.evict rest).changes := rfl
    rw [hchanges] at had
    rcases List.mem_append.mp had with had | had
    · obtain ⟨before, hbefore, rfl⟩ := List.mem_map.mp had
      obtain ⟨d, hd, hmem⟩ := mem_adsOf.mp hbefore
      rw [takeEntry_fst] at hd
      exact ⟨stamp, List.mem_cons_self, d, hd, before, hmem, rfl⟩
    · obtain ⟨s, hs, e, he, hholds⟩ := ih had
      rw [get?_entries_takeEntry] at he
      by_cases hstamp : s = stamp
      · rw [if_pos hstamp] at he
        cases he
      · rw [if_neg hstamp] at he
        exact ⟨s, List.mem_cons_of_mem _ hs, e, he, hholds⟩

/-- So does a loss that an eviction tells of. -/
theorem withdrawsFrom_evict {stamps : List Stamp} {ad : Advertisement}
    (had : ad ∈ (c.evict stamps).changes) : c.WithdrawsFrom (c.evict stamps).cache ad.key where
  gone := by
    obtain ⟨stamp, hstamp, hheld⟩ := of_mem_changes_evict had
    refine ⟨stamp, hheld, not_holdsUnder_of_get?_eq_none ?_⟩
    rw [get?_entries_evict, if_pos hstamp]
  kept s e' he' _ := by
    rw [get?_entries_evict] at he'
    by_cases hs : s ∈ stamps
    · rw [if_pos hs] at he'
      cases he'
    · rw [if_neg hs] at he'
      exact ⟨e', he', rfl⟩

/-! ## Operations -/

/-- A subscriber is only told of changes. -/
theorem mem_changes_of_mem_events {α : Type} {u : Update α} {event : Event}
    (h : event ∈ u.events) : event.ad ∈ u.changes := by
  obtain ⟨ad, had, hevent⟩ := List.mem_flatMap.mp h
  obtain ⟨s, -, rfl⟩ := List.mem_map.mp hevent
  exact had

/-- True for a replay, which tells a new subscriber what is cached and reports no change. -/
def Operation.IsReplay : Operation → Prop
  | subscribe _ _ => True
  | _ => False

/-- **A loss says that one entry less holds the key**: it is withdrawn from an entry and put into
none. So it is gone from the cache if no other entry held it. What a fetch brings is not marked as
lost, as decoding never does that. -/
theorem loss_withdraws (config : Config) (ops : List Operation) {op : Operation}
    (hreplay : ¬ op.IsReplay) (hkept : ∀ ad ∈ fetchedAds [op], ad.lost = false) :
    let c := (new config).run ops
    ∀ event ∈ op.events c, event.ad.lost = true →
      c.WithdrawsFrom (op.after c) event.ad.key ∧
        ((∀ s t, c.HoldsUnder s event.ad.key → c.HoldsUnder t event.ad.key → s = t) →
          ∀ stamp, ¬ (op.after c).HoldsUnder stamp event.ad.key) := by
  intro c event hevent hlost
  have h : c.IsIndexed := isIndexed_run config ops
  have hwithdraws : c.WithdrawsFrom (op.after c) event.ad.key := by
    cases op with
    | fetched now stamp peer ads =>
      have hads : ∀ ad ∈ ads, ad.lost = false := by simpa [fetchedAds] using hkept
      exact withdrawsFrom_fetched h hads (mem_changes_of_mem_events hevent) hlost
    | fetchFailed peer => cases mem_changes_of_mem_events hevent
    | haveSeen now stamp peer => exact withdrawsFrom_haveSeen h (mem_changes_of_mem_events hevent)
    | sweep now => exact withdrawsFrom_evict (mem_changes_of_mem_events hevent)
    | subscribe wanted handler => exact absurd trivial hreplay
    | unsubscribe handler => cases hevent
    | clear => cases hevent
  exact ⟨hwithdraws, hwithdraws.not_holdsUnder⟩

/-- A device publishes a room, and so does another, which is seen later. -/
def twoRooms : List Operation :=
  [.subscribe "room" ⟨"list"⟩, .fetched ⟨0⟩ ⟨1⟩ ⟨"aa"⟩ [room], .fetched ⟨50000⟩ ⟨2⟩ ⟨"bb"⟩ [room]]

theorem loss_withdraws_twoRooms :
    let c := (new .default).run twoRooms
    let event : Event := ⟨⟨"list"⟩, room.asLost⟩
    event ∈ (Operation.sweep ⟨90001⟩).events c ∧
      c.WithdrawsFrom ((Operation.sweep ⟨90001⟩).after c) room.key := by
  intro c event
  have hevent : event ∈ (Operation.sweep ⟨90001⟩).events c := by decide +kernel
  have hreplay : ¬ (Operation.sweep ⟨90001⟩).IsReplay := id
  obtain ⟨hwithdraws, -⟩ := loss_withdraws .default twoRooms hreplay (by decide) event hevent rfl
  exact ⟨hevent, hwithdraws⟩

/-- **What is reported as lost may still be cached.** Whether the first device is not seen any more,
is met at the address of the second, or publishes nothing from now on: the room is reported as lost,
and an entry holds it. -/
theorem lost_while_cached :
    let c := (new .default).run twoRooms
    ∀ op ∈ [Operation.sweep ⟨90001⟩, .haveSeen ⟨60000⟩ ⟨1⟩ ⟨"bb"⟩, .fetched ⟨60000⟩ ⟨3⟩ ⟨"aa"⟩ []],
      ∃ event ∈ op.events c, event.ad.lost = true ∧
        ∃ ad ∈ (op.after c).advertisements, ad.key = event.ad.key := by
  decide +kernel

end Nearby.Cache
