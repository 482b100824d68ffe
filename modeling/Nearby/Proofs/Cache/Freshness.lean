import Nearby.Proofs.Cache.Impartial

/-!
# Freshness over a run

An entry carries the time at which it was last seen. What that time is can be told from the history
alone: it is the clock at the last operation that met the stamp, which is a fetch that stored it or a
sighting that found it (`lastMet`). Nothing else touches the time, whatever address the entry moves
to and whatever it displaces.

So a sweep can be described without looking at the entries' times. It evicts the entries whose stamp
was last met longer ago than the freshness window, counts them, tells every subscriber of each of
their advertisements that it wants, and leaves all else as it was (`sweep_evicts_overdue`). The clock
may go backwards meanwhile; no time has passed since a reading that is still to come.
-/

namespace Nearby.Cache

/-! ## The last meeting -/

/-- The clock at an operation that meets a stamp: a fetch stores it, or a sighting finds it. -/
def Operation.meets (c : Cache) (stamp : Stamp) : Operation → Option Timestamp
  | fetched now s _ _ => if s = stamp then some now else none
  | haveSeen now s peer => if s = stamp ∧ (c.haveSeen now s peer).value then some now else none
  | _ => none

/-- The clock at the last operation of a run that meets a stamp. -/
def lastMet (stamp : Stamp) : Cache → List Operation → Option Timestamp
  | _, [] => none
  | c, op :: ops => (lastMet stamp (op.after c) ops).or (op.meets c stamp)

/-- A peer was seen before exactly if its stamp is cached. -/
theorem value_haveSeen (c : Cache) (now : Timestamp) (stamp : Stamp) (peer : RadioId) :
    (c.haveSeen now stamp peer).value = (c.entries.get? stamp).isSome := by
  rw [haveSeen]
  rcases c.entries.get? stamp with _ | e
  · rfl
  · dsimp only
    split
    · rfl
    · rfl

/-- An entry under another stamp than the one that is filed was there before. -/
theorem Files.get?_eq_some_of_ne {c c' : Cache} {stamp s : Stamp} {d e : Entry}
    (hf : c.Files stamp d c') (hs : s ≠ stamp) (he : c'.entries.get? s = some e) :
    c.entries.get? s = some e := by
  rw [hf.entries, if_neg hs] at he
  exact (Option.filter_eq_some_iff.mp he).1

/-- **An entry is met or stays**: either the operation meets its stamp, and then the entry counts as
seen at that time, or the entry was there before. -/
theorem meets_or_get?_eq {c : Cache} (h : c.IsIndexed) (op : Operation) {stamp : Stamp} {e : Entry}
    (he : (op.after c).entries.get? stamp = some e) :
    op.meets c stamp = some e.lastSeen ∨
      op.meets c stamp = none ∧ c.entries.get? stamp = some e := by
  cases op with
  | fetched now s peer ads =>
    have hfiles := files_fetched h now s peer ads
    by_cases hs : s = stamp
    · rw [← hs, Operation.after, hfiles.entries, if_pos rfl] at he
      obtain rfl := Option.some.inj he
      exact .inl (if_pos hs)
    · exact .inr ⟨if_neg hs, hfiles.get?_eq_some_of_ne (Ne.symm hs) he⟩
  | fetchFailed peer => exact .inr ⟨rfl, he⟩
  | haveSeen now s peer =>
    rw [Operation.meets, value_haveSeen]
    rcases hd : c.entries.get? s with _ | d
    · -- the sighting of a stamp that is not cached changes nothing
      rw [Operation.after, haveSeen_of_get?_eq_none hd] at he
      exact .inr ⟨if_neg (by simp), he⟩
    have hfiles := files_haveSeen h now peer hd
    by_cases hs : s = stamp
    · rw [← hs, Operation.after, hfiles.entries, if_pos rfl] at he
      obtain rfl := Option.some.inj he
      exact .inl (if_pos ⟨hs, rfl⟩)
    · exact .inr ⟨if_neg fun hmet => hs hmet.1, hfiles.get?_eq_some_of_ne (Ne.symm hs) he⟩
  | sweep now =>
    change (c.evict (c.staleStamps now)).cache.entries.get? stamp = some e at he
    rw [get?_entries_evict] at he
    by_cases hstale : stamp ∈ c.staleStamps now
    · rw [if_pos hstale] at he
      cases he
    · rw [if_neg hstale] at he
      exact .inr ⟨rfl, he⟩
  | subscribe wanted handler =>
    rw [(after_subscribe c wanted handler).1] at he
    exact .inr ⟨rfl, he⟩
  | unsubscribe handler => exact .inr ⟨rfl, he⟩
  | clear => cases he

/-- The time kept with an entry is when its stamp was last met, if it was met in the run. -/
theorem lastMet_or_get?_eq {c : Cache} (h : c.IsIndexed) (ops : List Operation) {stamp : Stamp}
    {e : Entry} (he : (c.run ops).entries.get? stamp = some e) :
    lastMet stamp c ops = some e.lastSeen ∨
      lastMet stamp c ops = none ∧ c.entries.get? stamp = some e := by
  induction ops generalizing c with
  | nil => exact .inr ⟨rfl, he⟩
  | cons op ops ih =>
    rw [lastMet]
    rcases ih (h.after op) he with hmet | ⟨hnone, hthere⟩
    · rw [hmet]
      exact .inl rfl
    · rw [hnone, Option.none_or]
      exact meets_or_get?_eq h op hthere

/-- **An entry was last seen when its stamp was last met.** -/
theorem lastMet_eq_lastSeen (config : Config) (ops : List Operation) {stamp : Stamp} {e : Entry}
    (he : ((new config).run ops).entries.get? stamp = some e) :
    lastMet stamp (new config) ops = some e.lastSeen := by
  rcases lastMet_or_get?_eq (isIndexed_new config) ops he with hmet | ⟨-, hthere⟩
  · exact hmet
  · cases hthere

/-! ## The window -/

@[simp] theorem config_takeEntry (c : Cache) (stamp : Stamp) :
    (c.takeEntry stamp).2.config = c.config := by
  rw [takeEntry]
  split
  · rfl
  · rfl

@[simp] theorem config_takePeer (c : Cache) (peer : RadioId) :
    (c.takePeer peer).2.config = c.config := by
  rw [takePeer]
  split
  · rfl
  · exact config_takeEntry ..

@[simp] theorem config_evict (c : Cache) (stamps : List Stamp) :
    (c.evict stamps).cache.config = c.config := by
  induction stamps generalizing c with
  | nil => rfl
  | cons stamp rest ih => exact (ih _).trans (config_takeEntry c stamp)

/-- No operation changes the configuration. -/
theorem config_after (c : Cache) (op : Operation) : (op.after c).config = c.config := by
  cases op with
  | fetched now stamp peer ads =>
    change ((c.takePeer peer).2.takeEntry stamp).2.config = c.config
    rw [config_takeEntry, config_takePeer]
  | fetchFailed peer => rfl
  | haveSeen now stamp peer =>
    simp only [Operation.after, haveSeen, rekey]
    split
    · rfl
    · split
      · rfl
      · split
        · rfl
        · rfl
  | sweep now => exact config_evict c _
  | subscribe wanted handler =>
    rw [Operation.after, subscribe]
    split
    · rename_i hok
      split at hok
      · cases hok
      · cases hok
        rfl
    · rfl
  | unsubscribe handler => rfl
  | clear => rfl

theorem config_run (config : Config) (ops : List Operation) :
    ((new config).run ops).config = config :=
  run_induction (P := fun c => c.config = config) (fun c op h => (config_after c op).trans h) rfl ops

/-- The time since an earlier one is their difference, and nothing if that one is later. -/
theorem toNat_since (t earlier : Timestamp) :
    (t.since earlier).toNat = t.millis.toNat - earlier.millis.toNat := by
  rw [Timestamp.since]
  split
  · rename_i hle
    exact UInt64.toNat_sub_of_le _ _ hle
  · rename_i hlt
    have hlt := UInt64.lt_iff_toNat_lt.mp (UInt64.not_le.mp hlt)
    exact (Nat.sub_eq_zero_of_le (Nat.le_of_lt hlt)).symm

/-- An entry is stale if its age exceeds what a word holds of the window. -/
theorem isStale_iff_mod {c : Cache} {now : Timestamp} {e : Entry} :
    c.isStale now e = true ↔ c.config.freshnessWindow.toMillis % UInt64.size <
      now.millis.toNat - e.lastSeen.millis.toNat := by
  rw [isStale, decide_eq_true_iff, UInt64.lt_iff_toNat_lt, toNat_since, windowMillis,
    UInt64.toNat_ofNat']

/-- As long as the clock can count the window, the window is what it is in milliseconds. -/
theorem isStale_iff {c : Cache} (hwindow : c.config.freshnessWindow.toMillis < UInt64.size)
    {now : Timestamp} {e : Entry} :
    c.isStale now e = true ↔
      c.config.freshnessWindow.toMillis < now.millis.toNat - e.lastSeen.millis.toNat := by
  rw [isStale_iff_mod, Nat.mod_eq_of_lt hwindow]

/-! ## Evictions -/

/-- The stamps to evict are those of the entries that have gone stale. -/
theorem mem_staleStamps {c : Cache} {now : Timestamp} {s : Stamp} :
    s ∈ c.staleStamps now ↔ ∃ e, c.entries.get? s = some e ∧ c.isStale now e = true := by
  simp only [staleStamps, Table.mem_keys, Table.get?_filter, Option.filter_eq_some_iff]

/-- What an eviction reports, entry by entry. -/
theorem changes_evict {stamps : List Stamp} (hnodup : stamps.Nodup) :
    ∀ c : Cache, (c.evict stamps).changes =
      (stamps.flatMap fun s => adsOf (c.entries.get? s)).map Advertisement.asLost := by
  induction stamps with
  | nil => intro c; rfl
  | cons stamp rest ih =>
    intro c
    obtain ⟨hstamp, hrest⟩ := List.nodup_cons.mp hnodup
    -- taking one entry out leaves the others, whose turn is still to come
    have hothers : (rest.flatMap fun s => adsOf ((c.takeEntry stamp).2.entries.get? s)) =
        rest.flatMap fun s => adsOf (c.entries.get? s) := by
      refine List.flatMap_congr fun s hs => ?_
      rw [get?_entries_takeEntry, if_neg (by rintro rfl; exact hstamp hs)]
    change (adsOf (c.takeEntry stamp).1).map Advertisement.asLost ++
      ((c.takeEntry stamp).2.evict rest).changes = _
    rw [ih hrest, hothers, takeEntry_fst, List.flatMap_cons, List.map_append]

/-- A peer whose entry is evicted loses its place in the index. -/
theorem get?_byPeer_evict {c : Cache} (h : c.IsIndexed) (stamps : List Stamp) (peer : RadioId) :
    (c.evict stamps).cache.byPeer.get? peer = (c.byPeer.get? peer).filter (· ∉ stamps) := by
  induction stamps generalizing c with
  | nil => exact (filter_eq_self (by simp)).symm
  | cons stamp rest ih =>
    change ((c.takeEntry stamp).2.evict rest).cache.byPeer.get? peer = _
    rw [ih (h.takeEntry stamp), get?_byPeer_takeEntry h, Option.filter_filter]
    refine congrArg (Option.filter · _) (funext fun s => ?_)
    simp

/-- The advertisements of the entries that are picked are found under the stamps of these. -/
theorem flatMap_keys_filter (t : Table Stamp Entry) (p : Stamp → Entry → Bool) :
    ((t.filter p).keys.flatMap fun s => adsOf (t.get? s)) = (t.filter p).values.flatMap Entry.ads := by
  rw [Table.keys, Table.values, List.flatMap_map, List.flatMap_map]
  refine List.flatMap_congr fun e he => ?_
  have hget : t.get? e.1 = some e.2 := Table.get?_eq_some_iff.mpr (List.mem_of_mem_filter he)
  rw [hget]
  rfl

/-- Eviction makes no entry stale or fresh. -/
theorem isStale_evict (c : Cache) (stamps : List Stamp) (now : Timestamp) (e : Entry) :
    (c.evict stamps).cache.isStale now e = c.isStale now e := by
  rw [isStale, isStale, windowMillis, windowMillis, config_evict]

/-- What a sweep has left is not stale, so that a second one finds nothing to do. -/
theorem sweep_sweep (c : Cache) (now : Timestamp) :
    (c.sweep now).cache.sweep now = ⟨(c.sweep now).cache, [], 0⟩ := by
  have hnone : (c.sweep now).cache.staleStamps now = [] := by
    refine List.eq_nil_iff_forall_not_mem.mpr fun s hs => ?_
    obtain ⟨e, he, hstale⟩ := mem_staleStamps.mp hs
    change (c.evict (c.staleStamps now)).cache.entries.get? s = some e at he
    change (c.evict (c.staleStamps now)).cache.isStale now e = true at hstale
    rw [isStale_evict] at hstale
    rw [get?_entries_evict] at he
    by_cases hmem : s ∈ c.staleStamps now
    · rw [if_pos hmem] at he
      cases he
    · rw [if_neg hmem] at he
      exact hmem (mem_staleStamps.mpr ⟨e, he, hstale⟩)
  rw [sweep, hnone]
  rfl

/-! ## Sweeps -/

/-- An update takes out the entries under certain stamps and nothing else: it leaves the others, with
what leads to them, and the subscribers; it gives the number of the entries it took out, and tells
every subscriber of a loss for each of their advertisements that it wants. -/
structure EvictsExactly (c : Cache) (overdue : Stamp → Bool) (u : Update Nat) : Prop where
  entries : u.cache.entries = c.entries.filter fun stamp _ => !overdue stamp
  byPeer : u.cache.byPeer = c.byPeer.filter fun _ stamp => !overdue stamp
  subscriptions : u.cache.subscriptions = c.subscriptions
  value : u.value = (c.entries.filter fun stamp _ => overdue stamp).size
  heard : ∀ s ∈ c.subscriptions, heardBy s.handler u.events =
    (((c.entries.filter fun stamp _ => overdue stamp).values.flatMap Entry.ads).filter
      (·.isWanted s.wanted)).map Advertisement.asLost
  silent : ∀ handler, c.isSubscribed handler = false → heardBy handler u.events = []

/-- A sweep evicts what has gone stale, and tells that it is lost. -/
theorem evictsExactly_sweep {c : Cache} (h : c.IsIndexed) (hhandlers : c.HasDistinctHandlers)
    {now : Timestamp} {overdue : Stamp → Bool}
    (hoverdue : ∀ stamp e, c.entries.get? stamp = some e → c.isStale now e = overdue stamp) :
    c.EvictsExactly overdue (c.sweep now) := by
  have hpicked : (c.entries.filter fun _ e => c.isStale now e) =
      c.entries.filter fun stamp _ => overdue stamp := Table.filter_congr hoverdue
  have hmem {stamp : Stamp} {e : Entry} (he : c.entries.get? stamp = some e) :
      stamp ∈ c.staleStamps now ↔ overdue stamp = true := by
    rw [mem_staleStamps, ← hoverdue stamp e he]
    simp [he]
  have hsubs : (c.sweep now).cache.subscriptions = c.subscriptions := subscriptions_evict ..
  have hchanges : (c.sweep now).changes =
      ((c.entries.filter fun stamp _ => overdue stamp).values.flatMap Entry.ads).map
        Advertisement.asLost := by
    have hnodup : (c.staleStamps now).Nodup := Table.nodup_keys _
    change (c.evict (c.staleStamps now)).changes = _
    rw [changes_evict hnodup, staleStamps, flatMap_keys_filter, hpicked]
  refine ⟨?_, ?_, hsubs, ?_, ?_, ?_⟩
  · refine Table.ext_get? fun stamp => ?_
    change (c.evict (c.staleStamps now)).cache.entries.get? stamp = _
    rw [get?_entries_evict, Table.get?_filter]
    rcases he : c.entries.get? stamp with _ | e
    · simp
    · by_cases hgone : overdue stamp = true
      · rw [if_pos ((hmem he).mpr hgone), Option.filter_some_neg (by simp [hgone])]
      · rw [if_neg (mt (hmem he).mp hgone), Option.filter_some_pos (by simp [hgone])]
  · refine Table.ext_get? fun peer => ?_
    change (c.evict (c.staleStamps now)).cache.byPeer.get? peer = _
    rw [get?_byPeer_evict h, Table.get?_filter]
    rcases hp : c.byPeer.get? peer with _ | stamp
    · rfl
    · -- the index leads to an entry, and this one stays or goes
      obtain ⟨e, he, -⟩ := (h peer stamp).mp hp
      simp [hmem he, Option.filter_some]
  · change (c.staleStamps now).length = _
    rw [staleStamps, hpicked, Table.keys, List.length_map]
    rfl
  · intro s hs
    rw [Update.events, hsubs, heardBy_announce hhandlers hs, hchanges, List.filter_map]
    rfl
  · intro handler hnone
    rw [Update.events, hsubs]
    exact heardBy_announce_of_not_subscribed (isSubscribed_eq_false_iff.mp hnone) _

/-- A stamp is overdue at a reading of the clock if it was last met longer ago than the window. -/
def isOverdue (config : Config) (ops : List Operation) (now : Timestamp) (stamp : Stamp) : Bool :=
  (lastMet stamp (new config) ops).any fun met =>
    config.freshnessWindow.toMillis < now.millis.toNat - met.millis.toNat

/-- **A sweep evicts what was not met within the window.** Every cached stamp was met during the run;
the entries of those that are overdue by then are evicted, and no others. A second sweep at the same
time finds nothing to do. -/
theorem sweep_evicts_overdue (config : Config) (ops : List Operation) (now : Timestamp)
    (hwindow : config.freshnessWindow.toMillis < UInt64.size) :
    let c := (new config).run ops
    (∀ stamp e, c.entries.get? stamp = some e → (lastMet stamp (new config) ops).isSome) ∧
      c.EvictsExactly (isOverdue config ops now) (c.sweep now) ∧
      (c.sweep now).cache.sweep now = ⟨(c.sweep now).cache, [], 0⟩ := by
  intro c
  have hconfig : c.config = config := config_run config ops
  refine ⟨?_, evictsExactly_sweep (isIndexed_run config ops) (hasDistinctHandlers_run config ops) ?_,
    sweep_sweep c now⟩
  · intro stamp e he
    rw [lastMet_eq_lastSeen config ops he]
    rfl
  · intro stamp e he
    have hcounts : c.config.freshnessWindow.toMillis < UInt64.size := by rw [hconfig]; exact hwindow
    rw [Bool.eq_iff_iff, isStale_iff hcounts, hconfig, isOverdue, lastMet_eq_lastSeen config ops he]
    simp

/-- A device is fetched from, the clock is set back, and the device is seen at another address; a
second one is fetched from later. -/
def setBack : List Operation :=
  [.subscribe "" ⟨"list"⟩, .fetched ⟨100000⟩ ⟨1⟩ ⟨"aa"⟩ [room], .haveSeen ⟨50000⟩ ⟨1⟩ ⟨"bb"⟩,
    .fetched ⟨60000⟩ ⟨2⟩ ⟨"cc"⟩ [room.addAddress "east"]]

theorem sweep_evicts_setBack :
    let c := (new .default).run setBack
    c.peerCount = 2 ∧ (c.sweep ⟨140001⟩).value = 1 ∧
      c.EvictsExactly (isOverdue .default setBack ⟨140001⟩) (c.sweep ⟨140001⟩) := by
  intro c
  have hwindow : Config.default.freshnessWindow.toMillis < UInt64.size := by decide +kernel
  exact ⟨by decide +kernel, by decide +kernel,
    (sweep_evicts_overdue .default setBack ⟨140001⟩ hwindow).2.1⟩

end Nearby.Cache
