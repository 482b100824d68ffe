import Nearby.Proofs.Cache.Run
import Nearby.Proofs.Table

/-!
# Entries and index

The index of a cache finds each entry by its peer (`IsIndexed`), and every operation keeps it so. A
fetch and a sighting do the same thing to the two tables, `Files`: an entry is placed under a stamp,
and whatever was under that stamp or belonged to the entry's peer gives way. All else stays.
-/

namespace Nearby.Cache

/-- The index leads to the entries and to nothing else: a peer is found under a stamp exactly if the
entry there is the peer's. -/
def IsIndexed (c : Cache) : Prop :=
  ∀ peer stamp, c.byPeer.get? peer = some stamp ↔
    ∃ e, c.entries.get? stamp = some e ∧ e.peer = peer

/-- A filter that lets the value pass changes nothing. -/
theorem filter_eq_self {α : Type} {o : Option α} {p : α → Bool} (h : ∀ a, o = some a → p a = true) :
    o.filter p = o := by
  rcases o with _ | a
  · rfl
  · exact Option.filter_some_pos (h a rfl)

/-- The index has the stamp of each entry under its peer. -/
theorem IsIndexed.get?_peer {c : Cache} (h : c.IsIndexed) {stamp : Stamp} {e : Entry}
    (he : c.entries.get? stamp = some e) : c.byPeer.get? e.peer = some stamp :=
  (h e.peer stamp).mpr ⟨e, he, rfl⟩

/-- A peer has one entry only. -/
theorem IsIndexed.stamp_unique {c : Cache} (h : c.IsIndexed) {s t : Stamp} {d e : Entry}
    (hd : c.entries.get? s = some d) (he : c.entries.get? t = some e) (hpeer : d.peer = e.peer) :
    s = t := by
  have hs := h.get?_peer hd
  rw [hpeer, h.get?_peer he] at hs
  exact (Option.some.inj hs).symm

/-- A stamp is found for one peer only. -/
theorem IsIndexed.peer_unique {c : Cache} (h : c.IsIndexed) {p q : RadioId} {stamp : Stamp}
    (hp : c.byPeer.get? p = some stamp) (hq : c.byPeer.get? q = some stamp) : p = q := by
  obtain ⟨d, hd, rfl⟩ := (h p stamp).mp hp
  obtain ⟨e, he, rfl⟩ := (h q stamp).mp hq
  rw [Option.some.inj (hd.symm.trans he)]

theorem isIndexed_new (config : Config) : (new config).IsIndexed := by
  intro peer stamp
  simp [new]

/-- Of the entries, those of other peers are the ones that the index does not find for this peer. -/
theorem IsIndexed.filter_peer {c : Cache} (h : c.IsIndexed) (peer : RadioId) (s : Stamp) :
    (c.entries.get? s).filter (·.peer ≠ peer) =
      if c.byPeer.get? peer = some s then none else c.entries.get? s := by
  by_cases hp : c.byPeer.get? peer = some s
  · obtain ⟨e, he, hpeer⟩ := (h peer s).mp hp
    rw [if_pos hp, he, Option.filter_some_neg (by simp [hpeer])]
  · rw [if_neg hp]
    refine filter_eq_self fun e he => decide_eq_true ?_
    intro hpeer
    exact hp ((h peer s).mpr ⟨e, he, hpeer⟩)

/-- Of the index, what leads elsewhere than to an entry is what is kept for other peers. -/
theorem IsIndexed.filter_stamp {c : Cache} (h : c.IsIndexed) {stamp : Stamp} {e : Entry}
    (he : c.entries.get? stamp = some e) (p : RadioId) :
    (c.byPeer.get? p).filter (· ≠ stamp) = if p = e.peer then none else c.byPeer.get? p := by
  by_cases hp : p = e.peer
  · rw [if_pos hp, hp, h.get?_peer he, Option.filter_some_neg (by simp)]
  · rw [if_neg hp]
    refine filter_eq_self fun s hs => decide_eq_true ?_
    rintro rfl
    exact hp (h.peer_unique hs (h.get?_peer he))

/-! ## Taking entries out -/

/-- An entry is taken out under its stamp, and all others stay. -/
theorem get?_entries_takeEntry (c : Cache) (stamp s : Stamp) :
    (c.takeEntry stamp).2.entries.get? s = if s = stamp then none else c.entries.get? s := by
  rw [takeEntry]
  split
  · rename_i h
    split
    · rename_i hs
      rw [hs, h]
    · rfl
  · exact Table.get?_erase ..

/-- With an entry goes its place in the index. -/
theorem get?_byPeer_takeEntry {c : Cache} (h : c.IsIndexed) (stamp : Stamp) (peer : RadioId) :
    (c.takeEntry stamp).2.byPeer.get? peer = (c.byPeer.get? peer).filter (· ≠ stamp) := by
  rw [takeEntry]
  rcases he : c.entries.get? stamp with _ | e
  · -- no peer is found under a stamp without entry
    refine (filter_eq_self fun s hs => decide_eq_true ?_).symm
    rintro rfl
    obtain ⟨e, hs, -⟩ := (h peer s).mp hs
    rw [he] at hs
    cases hs
  · rw [h.filter_stamp he]
    simp only [h.get?_peer he, if_true]
    exact Table.get?_erase ..

theorem IsIndexed.takeEntry {c : Cache} (h : c.IsIndexed) (stamp : Stamp) :
    (c.takeEntry stamp).2.IsIndexed := by
  intro peer s
  rw [get?_byPeer_takeEntry h, get?_entries_takeEntry, Option.filter_eq_some_iff, h peer s]
  by_cases hs : s = stamp
  · simp [hs]
  · simp [hs]

/-- What is known of a peer is taken out, and what is known of others stays. -/
theorem get?_entries_takePeer {c : Cache} (h : c.IsIndexed) (peer : RadioId) (s : Stamp) :
    (c.takePeer peer).2.entries.get? s = (c.entries.get? s).filter (·.peer ≠ peer) := by
  rw [takePeer, h.filter_peer]
  rcases c.byPeer.get? peer with _ | stamp
  · rfl
  · change (c.takeEntry stamp).2.entries.get? s = _
    rw [get?_entries_takeEntry]
    by_cases hs : s = stamp
    · rw [if_pos hs, if_pos (by rw [hs])]
    · rw [if_neg hs, if_neg (by rintro ⟨⟩; exact hs rfl)]

/-- With it goes the peer's place in the index. -/
theorem get?_byPeer_takePeer {c : Cache} (h : c.IsIndexed) (peer p : RadioId) :
    (c.takePeer peer).2.byPeer.get? p = if p = peer then none else c.byPeer.get? p := by
  rw [takePeer]
  rcases hp : c.byPeer.get? peer with _ | stamp
  · by_cases hpp : p = peer
    · rw [if_pos hpp, hpp]
      exact hp
    · rw [if_neg hpp]
  · obtain ⟨e, he, rfl⟩ := (h peer stamp).mp hp
    change (c.takeEntry stamp).2.byPeer.get? p = _
    rw [get?_byPeer_takeEntry h, h.filter_stamp he]

theorem IsIndexed.takePeer {c : Cache} (h : c.IsIndexed) (peer : RadioId) :
    (c.takePeer peer).2.IsIndexed := by
  rw [Cache.takePeer]
  rcases c.byPeer.get? peer with _ | stamp
  · exact h
  · exact h.takeEntry stamp

/-! ## Filing an entry -/

/-- The second cache is the first with an entry filed under a stamp. What was there before gives
way, and so does what else was known of the entry's peer. -/
structure Files (c : Cache) (stamp : Stamp) (e : Entry) (c' : Cache) : Prop where
  entries : ∀ s, c'.entries.get? s =
    if s = stamp then some e else (c.entries.get? s).filter (·.peer ≠ e.peer)
  byPeer : ∀ p, c'.byPeer.get? p =
    if p = e.peer then some stamp else (c.byPeer.get? p).filter (· ≠ stamp)

/-- **Filing an entry keeps the index.** -/
theorem Files.isIndexed {c c' : Cache} {stamp : Stamp} {e : Entry} (hf : c.Files stamp e c')
    (h : c.IsIndexed) : c'.IsIndexed := by
  intro p s
  rw [hf.byPeer, hf.entries]
  by_cases hp : p = e.peer
  · rw [if_pos hp]
    by_cases hs : s = stamp
    · simp [hs, hp]
    · rw [if_neg hs]
      simp [hp, Ne.symm hs]
  · rw [if_neg hp, Option.filter_eq_some_iff, h p s]
    by_cases hs : s = stamp
    · simp [hs, Ne.symm hp]
    · rw [if_neg hs]
      simp only [Option.filter_eq_some_iff, decide_eq_true_eq]
      constructor
      · rintro ⟨⟨d, hd, rfl⟩, -⟩
        exact ⟨d, ⟨hd, hp⟩, rfl⟩
      · rintro ⟨d, ⟨hd, -⟩, rfl⟩
        exact ⟨⟨d, hd, rfl⟩, hs⟩

/-- **Filing an entry leaves the others alone**: those under another stamp and of another peer. -/
theorem Files.get?_of_ne {c c' : Cache} {stamp : Stamp} {e : Entry} (hf : c.Files stamp e c')
    {s : Stamp} (hs : s ≠ stamp) (hpeer : ∀ d, c.entries.get? s = some d → d.peer ≠ e.peer) :
    c'.entries.get? s = c.entries.get? s := by
  rw [hf.entries, if_neg hs]
  exact filter_eq_self fun d hd => decide_eq_true (hpeer d hd)

/-- A fetch is filed once the entries that it supersedes have been taken out. -/
theorem entries_fetched (c : Cache) (now : Timestamp) (stamp : Stamp) (peer : RadioId)
    (ads : List Advertisement) :
    (c.fetched now stamp peer ads).cache.entries =
      ((c.takePeer peer).2.takeEntry stamp).2.entries.insert stamp ⟨peer, ads, now⟩ := rfl

/-- The index is brought up to date in the same way. -/
theorem byPeer_fetched (c : Cache) (now : Timestamp) (stamp : Stamp) (peer : RadioId)
    (ads : List Advertisement) :
    (c.fetched now stamp peer ads).cache.byPeer =
      ((c.takePeer peer).2.takeEntry stamp).2.byPeer.insert peer stamp := rfl

/-- A fetch files what was fetched. -/
theorem files_fetched {c : Cache} (h : c.IsIndexed) (now : Timestamp) (stamp : Stamp)
    (peer : RadioId) (ads : List Advertisement) :
    c.Files stamp ⟨peer, ads, now⟩ (c.fetched now stamp peer ads).cache where
  entries s := by
    rw [entries_fetched, Table.get?_insert, get?_entries_takeEntry, get?_entries_takePeer h]
    by_cases hs : s = stamp
    · simp [hs]
    · simp [hs]
  byPeer p := by
    rw [byPeer_fetched, Table.get?_insert, get?_byPeer_takeEntry (h.takePeer peer), get?_byPeer_takePeer h]
    by_cases hp : p = peer
    · simp [hp]
    · simp [hp]

/-- A sighting of an unknown stamp does nothing. -/
theorem haveSeen_of_get?_eq_none {c : Cache} {stamp : Stamp} (h : c.entries.get? stamp = none)
    (now : Timestamp) (peer : RadioId) : c.haveSeen now stamp peer = ⟨c, [], false⟩ := by
  rw [haveSeen, h]

/-- A sighting at the address that is known. -/
theorem haveSeen_of_get?_eq_some {c : Cache} {stamp : Stamp} {e : Entry}
    (he : c.entries.get? stamp = some e) (now : Timestamp) :
    c.haveSeen now stamp e.peer =
      ⟨{ c with entries := c.entries.insert stamp ⟨e.peer, e.ads, now⟩ }, [], true⟩ := by
  simp only [haveSeen, he, if_true]

/-- An entry that is seen at a new address takes the stead of what was filed at that address. -/
theorem haveSeen_of_ne {c : Cache} (h : c.IsIndexed) (now : Timestamp) {stamp : Stamp}
    {peer : RadioId} {e : Entry} (he : c.entries.get? stamp = some e) (hne : e.peer ≠ peer) :
    c.haveSeen now stamp peer =
      match c.byPeer.get? peer with
      | none =>
        ⟨{ c with
            entries := c.entries.insert stamp ⟨peer, e.ads, now⟩
            byPeer := (c.byPeer.erase e.peer).insert peer stamp }, [], true⟩
      | some stale =>
        ⟨{ c with
            entries := (c.entries.insert stamp ⟨peer, e.ads, now⟩).erase stale
            byPeer := (c.byPeer.erase e.peer).insert peer stamp },
          (adsOf (c.entries.get? stale)).map Advertisement.asLost, true⟩ := by
  -- the entry is not filed at the new address yet, so what is found there is another one
  have hsup : ((c.byPeer.erase e.peer).get? peer).filter (fun stale => stale ≠ stamp) =
      c.byPeer.get? peer := by
    rw [Table.get?_erase, if_neg (Ne.symm hne), h.filter_stamp he, if_neg (Ne.symm hne)]
  simp only [haveSeen, he, if_neg hne, rekey, h.get?_peer he, if_true, hsup]
  rcases hstale : c.byPeer.get? peer with _ | stale
  · rfl
  · dsimp only
    rw [Table.get?_insert_of_ne]
    rintro rfl
    exact hne (h.peer_unique (h.get?_peer he) hstale)

/-- A sighting of a known stamp files the entry anew, as seen now and at the peer's address. -/
theorem files_haveSeen {c : Cache} (h : c.IsIndexed) (now : Timestamp) {stamp : Stamp}
    (peer : RadioId) {e : Entry} (he : c.entries.get? stamp = some e) :
    c.Files stamp ⟨peer, e.ads, now⟩ (c.haveSeen now stamp peer).cache := by
  by_cases hpeer : e.peer = peer
  · -- the entry stays where it is, and so does the index
    subst hpeer
    rw [haveSeen_of_get?_eq_some he]
    constructor
    · intro s
      dsimp only
      rw [Table.get?_insert, h.filter_peer, h.get?_peer he]
      by_cases hs : s = stamp
      · rw [if_pos hs, if_pos hs]
      · rw [if_neg hs, if_neg hs, if_neg (by rintro ⟨⟩; exact hs rfl)]
    · intro p
      dsimp only
      rw [h.filter_stamp he]
      by_cases hp : p = e.peer
      · rw [if_pos hp, hp, h.get?_peer he]
      · rw [if_neg hp, if_neg hp]
  · -- the old address is taken out of the index, and what the new one led to out of the entries
    have hindex : ∀ p, ((c.byPeer.erase e.peer).insert peer stamp).get? p =
        if p = peer then some stamp else (c.byPeer.get? p).filter (· ≠ stamp) := by
      intro p
      rw [Table.get?_insert, Table.get?_erase, h.filter_stamp he]
    rw [haveSeen_of_ne h now he hpeer]
    rcases hstale : c.byPeer.get? peer with _ | stale
    · refine ⟨fun s => ?_, hindex⟩
      dsimp only
      rw [Table.get?_insert, h.filter_peer, hstale]
      simp
    · refine ⟨fun s => ?_, hindex⟩
      dsimp only
      rw [Table.get?_erase, Table.get?_insert, h.filter_peer, hstale]
      by_cases hs : s = stamp
      · rw [if_pos hs, if_neg ?_, if_pos hs]
        rintro rfl
        exact hpeer (h.peer_unique (h.get?_peer he) (hs ▸ hstale))
      · rw [if_neg hs, if_neg hs]
        simp [eq_comm]

/-! ## Operations -/

theorem IsIndexed.evict {c : Cache} (h : c.IsIndexed) (stamps : List Stamp) :
    (c.evict stamps).cache.IsIndexed := by
  induction stamps generalizing c with
  | nil => exact h
  | cons stamp rest ih => exact ih (h.takeEntry stamp)

/-- Evicting takes out the entries that are named and leaves the others. -/
theorem get?_entries_evict (c : Cache) (stamps : List Stamp) (s : Stamp) :
    (c.evict stamps).cache.entries.get? s = if s ∈ stamps then none else c.entries.get? s := by
  induction stamps generalizing c with
  | nil => simp [evict]
  | cons stamp rest ih =>
    change ((c.takeEntry stamp).2.evict rest).cache.entries.get? s = _
    rw [ih, get?_entries_takeEntry]
    by_cases hs : s = stamp
    · simp [hs]
    · simp [hs]

/-- A subscription leaves entries and index as they are. -/
theorem after_subscribe (c : Cache) (wanted : String) (handler : Handler) :
    ((Operation.subscribe wanted handler).after c).entries = c.entries ∧
      ((Operation.subscribe wanted handler).after c).byPeer = c.byPeer := by
  rw [Operation.after, subscribe]
  by_cases h : c.isSubscribed handler
  · rw [if_pos h]
    exact ⟨rfl, rfl⟩
  · rw [if_neg h]
    exact ⟨rfl, rfl⟩

/-- **Every operation keeps the index.** -/
theorem IsIndexed.after {c : Cache} (h : c.IsIndexed) (op : Operation) : (op.after c).IsIndexed := by
  cases op with
  | fetched now stamp peer ads => exact (files_fetched h now stamp peer ads).isIndexed h
  | fetchFailed peer => exact h
  | haveSeen now stamp peer =>
    rcases he : c.entries.get? stamp with _ | e
    · rw [Operation.after, haveSeen_of_get?_eq_none he]
      exact h
    · exact (files_haveSeen h now peer he).isIndexed h
  | sweep now => exact h.evict (c.staleStamps now)
  | subscribe wanted handler =>
    obtain ⟨hentries, hindex⟩ := after_subscribe c wanted handler
    rw [IsIndexed, hentries, hindex]
    exact h
  | unsubscribe handler => exact h
  | clear => exact isIndexed_new c.config

/-- **The index and the entries say the same** after every run. -/
theorem isIndexed_run (config : Config) (ops : List Operation) : ((new config).run ops).IsIndexed :=
  run_induction (fun _ op h => h.after op) (isIndexed_new config) ops

namespace Operation

/-- The stamps whose entries an operation may change: a fetch and a sighting are about the entry
under their stamp and the entry of their peer. -/
def Concerns (c : Cache) : Operation → Stamp → Prop
  | fetched _ stamp peer _, s => s = stamp ∨ ∃ e, c.entries.get? s = some e ∧ e.peer = peer
  | haveSeen _ stamp peer, s => s = stamp ∨ ∃ e, c.entries.get? s = some e ∧ e.peer = peer
  | _, _ => False

/-- True for the operations that take entries out wherever these are. -/
def Evicts : Operation → Prop
  | sweep _ => True
  | clear => True
  | _ => False

/-- **All else stays**: an operation leaves an entry that it does not concern as it is, unless it is
one that evicts, and then the entry may go. -/
theorem get?_after_of_not_concerns {c : Cache} (h : c.IsIndexed) (op : Operation) {s : Stamp}
    (hs : ¬ op.Concerns c s) :
    (op.after c).entries.get? s = c.entries.get? s ∨
      op.Evicts ∧ (op.after c).entries.get? s = none := by
  cases op with
  | fetched now stamp peer ads =>
    obtain ⟨hstamp, hpeer⟩ := not_or.mp hs
    refine .inl ((files_fetched h now stamp peer ads).get?_of_ne hstamp fun d hd hdp => ?_)
    exact hpeer ⟨d, hd, hdp⟩
  | fetchFailed peer => exact .inl rfl
  | haveSeen now stamp peer =>
    obtain ⟨hstamp, hpeer⟩ := not_or.mp hs
    -- a stamp that is not cached is not filed anew
    rcases he : c.entries.get? stamp with _ | e
    · rw [after, haveSeen_of_get?_eq_none he]
      exact .inl rfl
    · refine .inl ((files_haveSeen h now peer he).get?_of_ne hstamp fun d hd hdp => ?_)
      exact hpeer ⟨d, hd, hdp⟩
  | sweep now =>
    change (c.evict (c.staleStamps now)).cache.entries.get? s = _ ∨
      _ ∧ (c.evict (c.staleStamps now)).cache.entries.get? s = none
    rw [get?_entries_evict]
    by_cases hstale : s ∈ c.staleStamps now
    · rw [if_pos hstale]
      exact .inr ⟨trivial, rfl⟩
    · rw [if_neg hstale]
      exact .inl rfl
  | subscribe wanted handler =>
    rw [(after_subscribe c wanted handler).1]
    exact .inl rfl
  | unsubscribe handler => exact .inl rfl
  | clear => exact .inr ⟨trivial, rfl⟩

end Operation

/-- **The index of a cache is exact, and operations keep to their own entries.** After any run the
index leads from a peer to a stamp exactly if an entry of the peer is there, so that no peer has two
entries; a fetch or a sighting changes only the entries under its stamp or of its peer, a sighting
of an unknown stamp changes nothing at all, and of all the others only those that evict change
entries: they take them out. -/
theorem index_and_frame (config : Config) (ops : List Operation) :
    let c := (new config).run ops
    (∀ peer stamp, c.byPeer.get? peer = some stamp ↔
        ∃ e, c.entries.get? stamp = some e ∧ e.peer = peer) ∧
      (∀ s t d e, c.entries.get? s = some d → c.entries.get? t = some e → d.peer = e.peer → s = t) ∧
      (∀ (op : Operation) s, ¬ op.Concerns c s →
        (op.after c).entries.get? s = c.entries.get? s ∨
          op.Evicts ∧ (op.after c).entries.get? s = none) ∧
      ∀ now stamp peer, c.entries.get? stamp = none →
        c.haveSeen now stamp peer = ⟨c, [], false⟩ := by
  intro c
  have h : c.IsIndexed := isIndexed_run config ops
  refine ⟨h, ?_, ?_, ?_⟩
  · intro s t d e hd he hpeer
    exact h.stamp_unique hd he hpeer
  · intro op s hs
    exact op.get?_after_of_not_concerns h hs
  · intro now stamp peer hnone
    exact haveSeen_of_get?_eq_none hnone now peer

end Nearby.Cache
