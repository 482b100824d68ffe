import Nearby.Proofs.Cache.Copies
import Nearby.Proofs.Cache.Events

/-!
# The balance of additions and losses

A subscriber keeps a picture of the neighbourhood from what it hears: it counts an advertisement up
when it is added and down when it is lost. The picture is right, so long as nobody clears the cache:
after every operation of an orderly run the count of a key is the number of entries that hold it.

Each operation changes the entries and lists its changes on its own, so the proof goes operation by
operation: what the entries gain and what the changes say is the same (`Update.Balances`).
-/

namespace Nearby.Cache

/-! ## Orderly runs -/

/-- Advertisements that may stand in one entry, as far as the name of one of them is concerned: none
is lost, no two have the same key, and those with its key have its name. -/
structure IsTidy (ad : Advertisement) (ads : List Advertisement) : Prop where
  nodup : (ads.map Advertisement.key).Nodup
  kept : ∀ other ∈ ads, other.lost = false
  named : ∀ other ∈ ads, other.key = ad.key → other.interfaceName = ad.interfaceName

/-- What an operation must keep to for a subscriber to follow. A fetch brings advertisements that
are not lost and have different keys; where it takes the stead of two entries, one known of the peer
and one filed under the stamp, these have no key in common. The cache is not cleared. -/
def Operation.IsOrderly (c : Cache) : Operation → Prop
  | fetched _ stamp peer ads =>
    (∀ ad ∈ ads, ad.lost = false) ∧ (ads.map Advertisement.key).Nodup ∧
      ∀ known d e, c.byPeer.get? peer = some known → known ≠ stamp →
        c.entries.get? known = some d → c.entries.get? stamp = some e →
          ∀ a ∈ d.ads, ∀ b ∈ e.ads, a.key ≠ b.key
  | clear => False
  | _ => True

/-- A run of orderly operations. -/
def IsOrderlyRun : Cache → List Operation → Prop
  | _, [] => True
  | c, op :: ops => op.IsOrderly c ∧ IsOrderlyRun (op.after c) ops

/-- The advertisements that a run fetches. -/
def fetchedAds (ops : List Operation) : List Advertisement :=
  ops.flatMap fun
    | .fetched _ _ _ ads => ads
    | _ => []

/-- The state of a cache on an orderly run. -/
structure IsTidyCache (ad : Advertisement) (c : Cache) : Prop where
  indexed : c.IsIndexed
  tidy : ∀ stamp e, c.entries.get? stamp = some e → IsTidy ad e.ads
  handlers : c.HasDistinctHandlers

/-- The advertisements of an entry are those that it holds. -/
theorem mem_adsOf {entry : Option Entry} {ad : Advertisement} :
    ad ∈ adsOf entry ↔ ∃ e, entry = some e ∧ ad ∈ e.ads := by
  rcases entry with _ | e
  · simp [adsOf]
  · simp [adsOf]

/-- To take an entry out is to look it up first. -/
theorem takeEntry_fst (c : Cache) (stamp : Stamp) :
    (c.takeEntry stamp).1 = c.entries.get? stamp := by
  rw [takeEntry]
  rcases c.entries.get? stamp with _ | e
  · rfl
  · rfl

/-- The entry taken out for a peer is the one that the index has for it. -/
theorem takePeer_fst_eq_some {c : Cache} {peer : RadioId} {e : Entry}
    (h : (c.takePeer peer).1 = some e) :
    ∃ stamp, c.byPeer.get? peer = some stamp ∧ c.entries.get? stamp = some e := by
  rw [takePeer] at h
  rcases hp : c.byPeer.get? peer with _ | stamp
  · rw [hp] at h
    cases h
  · rw [hp] at h
    exact ⟨stamp, rfl, (c.takeEntry_fst stamp).symm.trans h⟩

theorem isTidy_nil (ad : Advertisement) : IsTidy ad [] :=
  ⟨List.nodup_nil, List.forall_mem_nil _, List.forall_mem_nil _⟩

/-- What stands in two entries is tidy together if the entries do not share a key. -/
theorem IsTidy.append {ad : Advertisement} {a b : List Advertisement} (ha : IsTidy ad a)
    (hb : IsTidy ad b) (h : ∀ x ∈ a, ∀ y ∈ b, x.key ≠ y.key) : IsTidy ad (a ++ b) where
  nodup := by
    rw [List.map_append, List.nodup_append]
    refine ⟨ha.nodup, hb.nodup, ?_⟩
    intro k hk j hj
    obtain ⟨x, hx, rfl⟩ := List.mem_map.mp hk
    obtain ⟨y, hy, rfl⟩ := List.mem_map.mp hj
    exact h x hx y hy
  kept := List.forall_mem_append.mpr ⟨ha.kept, hb.kept⟩
  named := List.forall_mem_append.mpr ⟨ha.named, hb.named⟩

namespace IsTidyCache

variable {ad : Advertisement} {c : Cache}

/-- The advertisements of an entry of a tidy cache are tidy. -/
theorem adsOf (h : c.IsTidyCache ad) {entry : Option Entry}
    (hentry : ∀ e, entry = some e → ∃ stamp, c.entries.get? stamp = some e) :
    IsTidy ad (adsOf entry) := by
  rcases entry with _ | e
  · exact isTidy_nil ad
  · obtain ⟨stamp, he⟩ := hentry e rfl
    exact h.tidy stamp e he

/-- A cache stays tidy as an entry is taken out. -/
theorem takeEntry (h : c.IsTidyCache ad) (stamp : Stamp) :
    (c.takeEntry stamp).2.IsTidyCache ad where
  indexed := h.indexed.takeEntry stamp
  tidy s e he := by
    rw [get?_entries_takeEntry] at he
    by_cases hs : s = stamp
    · rw [if_pos hs] at he
      cases he
    · rw [if_neg hs] at he
      exact h.tidy s e he
  handlers := by
    rw [HasDistinctHandlers, subscriptions_takeEntry]
    exact h.handlers

theorem evict (h : c.IsTidyCache ad) (stamps : List Stamp) :
    (c.evict stamps).cache.IsTidyCache ad := by
  induction stamps generalizing c with
  | nil => exact h
  | cons stamp rest ih => exact ih (h.takeEntry stamp)

/-- Filing what is tidy leaves a cache tidy. -/
theorem of_files {c' : Cache} {stamp : Stamp} {e : Entry} (h : c.IsTidyCache ad)
    (hf : c.Files stamp e c') (he : IsTidy ad e.ads) (hsubs : c'.subscriptions = c.subscriptions) :
    c'.IsTidyCache ad where
  indexed := hf.isIndexed h.indexed
  tidy s d hd := by
    rw [hf.entries] at hd
    by_cases hs : s = stamp
    · rw [if_pos hs] at hd
      rw [← Option.some.inj hd]
      exact he
    · rw [if_neg hs, Option.filter_eq_some_iff] at hd
      exact h.tidy s d hd.1
  handlers := by
    rw [HasDistinctHandlers, hsubs]
    exact h.handlers

/-- What a fetch takes the stead of is tidy, if the two entries do not share a key. -/
theorem superseded (h : c.IsTidyCache ad) {now : Timestamp} {stamp : Stamp} {peer : RadioId}
    {ads : List Advertisement} (ho : (Operation.fetched now stamp peer ads).IsOrderly c) :
    IsTidy ad (c.superseded stamp peer) := by
  obtain ⟨-, -, hdisjoint⟩ := ho
  have hfiled : ∀ e, ((c.takePeer peer).2.takeEntry stamp).1 = some e →
      c.entries.get? stamp = some e ∧ e.peer ≠ peer := by
    intro e he
    rw [takeEntry_fst, get?_entries_takePeer h.indexed, Option.filter_eq_some_iff] at he
    exact ⟨he.1, of_decide_eq_true he.2⟩
  refine IsTidy.append (h.adsOf fun e he => ?_) (h.adsOf fun e he => ⟨stamp, (hfiled e he).1⟩) ?_
  · obtain ⟨known, -, hknown⟩ := takePeer_fst_eq_some he
    exact ⟨known, hknown⟩
  · intro a ha b hb
    obtain ⟨d, hd, ha⟩ := mem_adsOf.mp ha
    obtain ⟨e, he, hb⟩ := mem_adsOf.mp hb
    obtain ⟨known, hindex, hd⟩ := takePeer_fst_eq_some hd
    obtain ⟨he, hpeer⟩ := hfiled e he
    refine hdisjoint known d e hindex ?_ hd he a ha b hb
    rintro rfl
    -- the entry of the peer has been taken out, so the one that is filed is another's
    obtain ⟨d', hd', hpeer'⟩ := (h.indexed peer known).mp hindex
    rw [he] at hd'
    exact hpeer (Option.some.inj hd' ▸ hpeer')

end IsTidyCache

/-! ## What operations tell -/

/-- What an update does to the entries is what its changes say, as far as one advertisement is
concerned: the copies before and the additions are the copies after and the losses, and the changes
have its name. -/
structure Update.Balances {α : Type} (ad : Advertisement) (c : Cache) (u : Update α) : Prop where
  copies : c.copies ad.key + additionsOf ad.key u.changes =
    u.cache.copies ad.key + lossesOf ad.key u.changes
  named : ∀ other ∈ u.changes, other.key = ad.key → other.interfaceName = ad.interfaceName

variable {ad : Advertisement} {c : Cache}

/-- Advertisements keep their names as they are told to be lost. -/
theorem IsTidy.named_asLost {ads : List Advertisement} (h : IsTidy ad ads) :
    ∀ other ∈ ads.map Advertisement.asLost,
      other.key = ad.key → other.interfaceName = ad.interfaceName := by
  intro other hother hkey
  obtain ⟨a, ha, rfl⟩ := List.mem_map.mp hother
  exact h.named a ha hkey

/-- What the entries gain by a fetch is told as additions, and what they lose as losses. -/
theorem balances_fetched (h : c.IsTidyCache ad) {now : Timestamp} {stamp : Stamp} {peer : RadioId}
    {ads : List Advertisement} (ho : (Operation.fetched now stamp peer ads).IsOrderly c)
    (hads : IsTidy ad ads) : (c.fetched now stamp peer ads).Balances ad c where
  copies := by
    have hcopies := c.copies_fetched now stamp peer ads ad.key
    have hdiff := copiesIn_add_additions (h.superseded ho).nodup hads.nodup ad.key
    -- the first part of the changes is lost, the second is not
    have hkept : ∀ a ∈ additions (c.superseded stamp peer) ads, a.lost = false :=
      fun a ha => hads.kept a (List.mem_of_mem_filter ha)
    rw [changes_fetched, additionsOf_append, lossesOf_append, additionsOf_map_asLost,
      lossesOf_map_asLost, additionsOf_eq_copiesIn hkept, lossesOf_eq_zero hkept]
    omega
  named := by
    have hsuperseded := h.superseded ho
    rw [changes_fetched]
    refine List.forall_mem_append.mpr ⟨fun other hother => hsuperseded.named_asLost other ?_,
      fun other hother => hads.named other (List.mem_of_mem_filter hother)⟩
    obtain ⟨a, ha, rfl⟩ := List.mem_map.mp hother
    rw [losses, firstOfEachKey_eq_self hsuperseded.nodup] at ha
    exact List.mem_map_of_mem (List.mem_of_mem_filter ha)

/-- Filing an entry anew, with the same advertisements, changes nothing that is counted. -/
theorem copies_insert {e : Entry} {stamp : Stamp} (he : c.entries.get? stamp = some e)
    (now : Timestamp) (peer : RadioId) (key : Key) :
    (({ c with entries := c.entries.insert stamp ⟨peer, e.ads, now⟩ } : Cache)).copies key =
      c.copies key := by
  rw [copies, copies, sum_values_insert, sum_values_erase he]

/-- What the cache loses as a stamp is seen again is told, and nothing else is. -/
theorem balances_haveSeen (h : c.IsTidyCache ad) (now : Timestamp) (stamp : Stamp)
    (peer : RadioId) : (c.haveSeen now stamp peer).Balances ad c := by
  rcases he : c.entries.get? stamp with _ | e
  · rw [haveSeen_of_get?_eq_none he]
    exact ⟨rfl, List.forall_mem_nil _⟩
  by_cases hpeer : e.peer = peer
  · subst hpeer
    rw [haveSeen_of_get?_eq_some he]
    exact ⟨(copies_insert he now e.peer ad.key).symm, List.forall_mem_nil _⟩
  rw [haveSeen_of_ne h.indexed now he hpeer]
  rcases hstale : c.byPeer.get? peer with _ | stale
  · exact ⟨(copies_insert he now peer ad.key).symm, List.forall_mem_nil _⟩
  · -- the entry that was known at the address goes, and is told as lost
    obtain ⟨d, hd, rfl⟩ := (h.indexed peer stale).mp hstale
    have hne : stale ≠ stamp := by
      rintro rfl
      exact hpeer (by rw [Option.some.inj (he.symm.trans hd)])
    have hkept : (c.entries.insert stamp ⟨d.peer, e.ads, now⟩).get? stale = some d := by
      rw [Table.get?_insert_of_ne _ hne, hd]
    refine ⟨?_, ?_⟩
    · have hsum := copies_insert he now d.peer ad.key
      rw [copies, sum_values_erase hkept] at hsum
      simp only [hd, adsOf, Option.map_some, Option.getD_some, additionsOf_map_asLost,
        lossesOf_map_asLost]
      rw [← hsum, Nat.add_zero]
      exact Nat.add_comm _ _
    · dsimp only
      rw [hd]
      exact (h.tidy stale d hd).named_asLost

/-- Each of the entries evicted is told to be lost. -/
theorem balances_evict (h : c.IsTidyCache ad) (stamps : List Stamp) :
    (c.evict stamps).Balances ad c := by
  induction stamps generalizing c with
  | nil => exact ⟨rfl, List.forall_mem_nil _⟩
  | cons stamp rest ih =>
    obtain ⟨hcopies, hnamed⟩ := ih (h.takeEntry stamp)
    have htaken : IsTidy ad (adsOf (c.takeEntry stamp).1) :=
      h.adsOf fun e he => ⟨stamp, (c.takeEntry_fst stamp).symm.trans he⟩
    refine ⟨?_, List.forall_mem_append.mpr ⟨htaken.named_asLost, hnamed⟩⟩
    have hchanges : (c.evict (stamp :: rest)).changes =
        (adsOf (c.takeEntry stamp).1).map Advertisement.asLost ++
          ((c.takeEntry stamp).2.evict rest).changes := rfl
    have hcache : (c.evict (stamp :: rest)).cache = ((c.takeEntry stamp).2.evict rest).cache := rfl
    rw [hchanges, hcache, additionsOf_append, lossesOf_append, additionsOf_map_asLost,
      lossesOf_map_asLost, c.copies_takeEntry stamp]
    omega

/-- **An orderly operation keeps a cache orderly.** -/
theorem IsTidyCache.after (h : c.IsTidyCache ad) {op : Operation} (ho : op.IsOrderly c)
    (hnames : ∀ other ∈ fetchedAds [op], other.key = ad.key →
      other.interfaceName = ad.interfaceName) : (op.after c).IsTidyCache ad := by
  cases op with
  | fetched now stamp peer ads =>
    obtain ⟨hkept, hnodup, -⟩ := ho
    have hads : IsTidy ad ads := ⟨hnodup, hkept, by simpa [fetchedAds] using hnames⟩
    exact h.of_files (files_fetched h.indexed now stamp peer ads) hads
      (subscriptions_fetched c now stamp peer ads)
  | fetchFailed peer => exact h
  | haveSeen now stamp peer =>
    rcases he : c.entries.get? stamp with _ | e
    · rw [Operation.after, haveSeen_of_get?_eq_none he]
      exact h
    · exact h.of_files (files_haveSeen h.indexed now peer he) (h.tidy stamp e he)
        (subscriptions_haveSeen c now stamp peer)
  | sweep now => exact h.evict (c.staleStamps now)
  | subscribe wanted handler =>
    obtain ⟨hentries, hindex⟩ := after_subscribe c wanted handler
    refine ⟨h.indexed.after _, ?_, h.handlers.after _⟩
    rw [hentries]
    exact h.tidy
  | unsubscribe handler => exact ⟨h.indexed, h.tidy, h.handlers.after (.unsubscribe handler)⟩
  | clear => cases ho

/-! ## What subscribers make of it -/

/-- What a handler heard gives the number of copies, if the handler is subscribed and wants the
advertisement. -/
def Follows (ad : Advertisement) (c : Cache) (handler : Handler) (heard : List Advertisement) :
    Prop :=
  ∀ s ∈ c.subscriptions, s.handler = handler → ad.isWanted s.wanted →
    additionsOf ad.key heard = lossesOf ad.key heard + c.copies ad.key

/-- Whether an advertisement is wanted is a matter of its name. -/
theorem countP_filter_isWanted {p : Advertisement → Bool} {wanted : String}
    {changes : List Advertisement} (hp : ∀ other, p other = true → other.key = ad.key)
    (hnamed : ∀ other ∈ changes, other.key = ad.key → other.interfaceName = ad.interfaceName)
    (hwanted : ad.isWanted wanted) :
    (changes.filter (·.isWanted wanted)).countP p = changes.countP p := by
  rw [List.countP_filter]
  refine List.countP_congr fun other hother => ?_
  rw [Bool.and_eq_true_iff, and_iff_left_iff_imp]
  intro h
  rw [Advertisement.isWanted, hnamed other hother (hp other h)]
  exact hwanted

/-- A handler that wants an advertisement hears of all that is added under its key. -/
theorem additionsOf_filter_isWanted {wanted : String} {changes : List Advertisement}
    (hnamed : ∀ other ∈ changes, other.key = ad.key → other.interfaceName = ad.interfaceName)
    (hwanted : ad.isWanted wanted) :
    additionsOf ad.key (changes.filter (·.isWanted wanted)) = additionsOf ad.key changes := by
  refine countP_filter_isWanted (fun other h => ?_) hnamed hwanted
  exact of_decide_eq_true (Bool.and_eq_true_iff.mp h).1

/-- It hears of all that is lost under this key as well. -/
theorem lossesOf_filter_isWanted {wanted : String} {changes : List Advertisement}
    (hnamed : ∀ other ∈ changes, other.key = ad.key → other.interfaceName = ad.interfaceName)
    (hwanted : ad.isWanted wanted) :
    lossesOf ad.key (changes.filter (·.isWanted wanted)) = lossesOf ad.key changes := by
  refine countP_filter_isWanted (fun other h => ?_) hnamed hwanted
  exact of_decide_eq_true (Bool.and_eq_true_iff.mp h).1

/-- **A subscriber follows an update that balances.** -/
theorem Follows.update {α : Type} {u : Update α} {handler : Handler} {heard : List Advertisement}
    (h : Follows ad c handler heard) (hc : c.HasDistinctHandlers) (hu : u.Balances ad c)
    (hsubs : u.cache.subscriptions = c.subscriptions) :
    Follows ad u.cache handler (heard ++ heardBy handler u.events) := by
  rintro s hs rfl hwanted
  rw [hsubs] at hs
  have hheard := h s hs rfl hwanted
  have hbalance := hu.copies
  -- changes with this key have the name that is wanted, so none of them is kept back
  have hadd := additionsOf_filter_isWanted hu.named hwanted
  have hlost := lossesOf_filter_isWanted hu.named hwanted
  rw [Update.events, hsubs, heardBy_announce hc hs, additionsOf_append, lossesOf_append, hadd, hlost]
  omega

/-- What is replayed to a new subscriber has not been lost, and has its name. -/
theorem IsTidyCache.of_mem_advertisements (h : c.IsTidyCache ad) {other : Advertisement}
    (hother : other ∈ c.advertisements) :
    other.lost = false ∧ (other.key = ad.key → other.interfaceName = ad.interfaceName) := by
  obtain ⟨e, he, hmem⟩ := List.mem_flatMap.mp hother
  obtain ⟨⟨stamp, e⟩, hentry, rfl⟩ := List.mem_map.mp he
  have htidy := h.tidy stamp e (Table.get?_eq_some_iff.mpr hentry)
  exact ⟨htidy.kept other hmem, htidy.named other hmem⟩

/-- A replay adds as much as there is, and no losses. -/
theorem IsTidyCache.replay (h : c.IsTidyCache ad) {wanted : String} (hwanted : ad.isWanted wanted) :
    additionsOf ad.key (c.advertisements.filter (·.isWanted wanted)) = c.copies ad.key ∧
      lossesOf ad.key (c.advertisements.filter (·.isWanted wanted)) = 0 := by
  have hkept : ∀ other ∈ c.advertisements, other.lost = false := fun other hother =>
    (h.of_mem_advertisements hother).1
  constructor
  · rw [additionsOf_filter_isWanted (fun other hother => (h.of_mem_advertisements hother).2) hwanted,
      additionsOf_eq_copiesIn hkept, copiesIn_advertisements]
  · exact lossesOf_eq_zero fun other hother => hkept other (List.mem_of_mem_filter hother)

/-- A new subscriber follows from its replay on, and those that were there hear nothing of it. -/
theorem Follows.subscribe {handler : Handler} {heard : List Advertisement}
    (h : Follows ad c handler heard) (hc : c.IsTidyCache ad) (wanted : String) (other : Handler) :
    Follows ad ((Operation.subscribe wanted other).after c) handler
      ((if (Operation.subscribe wanted other).registers c handler then [] else heard) ++
        heardBy handler ((Operation.subscribe wanted other).events c)) := by
  rw [Operation.after, Operation.events, Operation.registers]
  rcases hsub : c.isSubscribed other with _ | _
  · rw [subscribe_of_not_isSubscribed hsub]
    have hnew := isSubscribed_eq_false_iff.mp hsub
    dsimp only
    by_cases hother : other = handler
    · subst hother
      rw [hsub, if_pos (by simp), heardBy_replay, List.nil_append]
      intro s hs hhandler hwanted
      -- the handler was not subscribed, so the new subscription is the only one it has
      have hs : s = ⟨wanted, other⟩ := by
        rcases List.mem_append.mp hs with hs | hs
        · exact absurd hhandler (hnew s hs)
        · exact List.mem_singleton.mp hs
      subst hs
      obtain ⟨hadd, hlost⟩ := hc.replay hwanted
      rw [hadd, hlost, Nat.zero_add]
      rfl
    · rw [heardBy_replay_of_ne c wanted hother, if_neg (by simp [hother]), List.append_nil]
      intro s hs hhandler hwanted
      rcases List.mem_append.mp hs with hs | hs
      · exact h s hs hhandler hwanted
      · rw [List.mem_singleton.mp hs] at hhandler
        exact absurd hhandler hother
  · -- a handler that is subscribed is refused
    rw [subscribe_of_isSubscribed hsub, if_neg ?_]
    · simpa using h
    · rintro hreg
      simp only [Bool.and_eq_true, decide_eq_true_eq, Bool.not_eq_true'] at hreg
      rw [← hreg.1, hsub] at hreg
      cases hreg.2

/-- **A subscriber follows every orderly operation.** -/
theorem Follows.after {handler : Handler} {heard : List Advertisement}
    (h : Follows ad c handler heard) (hc : c.IsTidyCache ad) {op : Operation} (ho : op.IsOrderly c)
    (hnames : ∀ other ∈ fetchedAds [op], other.key = ad.key →
      other.interfaceName = ad.interfaceName) :
    Follows ad (op.after c) handler
      ((if op.registers c handler then [] else heard) ++ heardBy handler (op.events c)) := by
  cases op with
  | fetched now stamp peer ads =>
    obtain ⟨hkept, hnodup, -⟩ := id ho
    have hads : IsTidy ad ads := ⟨hnodup, hkept, by simpa [fetchedAds] using hnames⟩
    exact h.update hc.handlers (balances_fetched hc ho hads) (subscriptions_fetched ..)
  | fetchFailed peer =>
    have hbalances : (c.fetchFailed peer).Balances ad c := ⟨rfl, List.forall_mem_nil _⟩
    exact h.update hc.handlers hbalances rfl
  | haveSeen now stamp peer =>
    exact h.update hc.handlers (balances_haveSeen hc now stamp peer) (subscriptions_haveSeen ..)
  | sweep now =>
    obtain ⟨hcopies, hnamed⟩ := balances_evict hc (c.staleStamps now)
    have hbalances : (c.sweep now).Balances ad c := ⟨hcopies, hnamed⟩
    exact h.update hc.handlers hbalances (subscriptions_evict c (c.staleStamps now))
  | subscribe wanted other => exact h.subscribe hc wanted other
  | unsubscribe other =>
    intro s hs hhandler hwanted
    change additionsOf ad.key (heard ++ []) = lossesOf ad.key (heard ++ []) + c.copies ad.key
    rw [List.append_nil]
    exact h s (List.mem_of_mem_filter hs) hhandler hwanted
  | clear => cases ho

/-- **A subscriber follows every orderly run.** -/
theorem Follows.run {handler : Handler} {ops : List Operation} {heard : List Advertisement}
    (h : Follows ad c handler heard) (hc : c.IsTidyCache ad) (hrun : IsOrderlyRun c ops)
    (hnames : ∀ other ∈ fetchedAds ops, other.key = ad.key →
      other.interfaceName = ad.interfaceName) :
    (c.run ops).IsTidyCache ad ∧ Follows ad (c.run ops) handler (history handler c heard ops) := by
  induction ops generalizing c heard with
  | nil => exact ⟨hc, h⟩
  | cons op ops ih =>
    obtain ⟨ho, hops⟩ := hrun
    have hsplit : fetchedAds (op :: ops) = fetchedAds [op] ++ fetchedAds ops := by
      simp [fetchedAds]
    rw [hsplit] at hnames
    obtain ⟨hop, hrest⟩ := List.forall_mem_append.mp hnames
    exact ih (h.after hc ho hop) (hc.after ho hop) hops hrest

/-- **Additions and losses balance.** After every orderly run in which the name of an advertisement
goes with its key, a subscriber that wants the advertisement has heard of so many more additions
than losses of its key as there are entries with it. -/
theorem additions_sub_losses_eq_holders (config : Config) {ops : List Operation}
    {ad : Advertisement} (hrun : IsOrderlyRun (new config) ops)
    (hnames : ∀ other ∈ fetchedAds ops, other.key = ad.key →
      other.interfaceName = ad.interfaceName)
    {s : Subscription} (hs : s ∈ ((new config).run ops).subscriptions)
    (hwanted : ad.isWanted s.wanted) :
    let heard := history s.handler (new config) [] ops
    (additionsOf ad.key heard : Int) - lossesOf ad.key heard =
      ((new config).run ops).holders ad.key := by
  have hnew : (new config).IsTidyCache ad :=
    ⟨isIndexed_new config, fun stamp e he => by simp [new] at he, List.nodup_nil⟩
  have hsilent : Follows ad (new config) s.handler [] := by
    intro t ht
    cases ht
  obtain ⟨htidy, hfollows⟩ := hsilent.run hnew hrun hnames
  have hkeys : ∀ e ∈ ((new config).run ops).entries.values, (e.ads.map Advertisement.key).Nodup := by
    intro e he
    obtain ⟨⟨stamp, e⟩, hmem, rfl⟩ := List.mem_map.mp he
    exact (htidy.tidy stamp e (Table.get?_eq_some_iff.mpr hmem)).nodup
  have hcount := hfollows s hs rfl hwanted
  rw [holders_eq_copies hkeys]
  dsimp only
  omega

/-- A room without content. -/
def room : Advertisement := Advertisement.new ⟨.ofNat 1⟩ "room"

/-- Two devices publish the same room; then one of them is met at the address of the other. -/
def rotation : List Operation :=
  [.subscribe "" ⟨"list"⟩, .fetched ⟨0⟩ ⟨1⟩ ⟨"aa"⟩ [room], .fetched ⟨1⟩ ⟨2⟩ ⟨"bb"⟩ [room],
    .haveSeen ⟨2⟩ ⟨1⟩ ⟨"bb"⟩]

theorem isOrderlyRun_rotation : IsOrderlyRun (new .default) rotation := by
  have hfresh : ((new .default).run (rotation.take 2)).byPeer.get? ⟨"bb"⟩ = none := by
    decide +kernel
  refine ⟨trivial, ⟨by decide, by decide, ?_⟩, ⟨by decide, by decide, ?_⟩, trivial, trivial⟩
  · intro known d e hindex
    cases hindex
  · intro known d e hindex
    cases hfresh.symm.trans hindex

theorem additions_sub_losses_rotation :
    (additionsOf room.key (history ⟨"list"⟩ (new .default) [] rotation) : Int) -
        lossesOf room.key (history ⟨"list"⟩ (new .default) [] rotation) = 1 ∧
      ((new .default).run rotation).holders room.key = 1 := by
  have hnames : ∀ other ∈ fetchedAds rotation, other.key = room.key →
      other.interfaceName = room.interfaceName := by decide
  have hs : ⟨"", ⟨"list"⟩⟩ ∈ ((new .default).run rotation).subscriptions := by decide +kernel
  have hone : ((new .default).run rotation).holders room.key = 1 := by decide +kernel
  have hbalance :=
    additions_sub_losses_eq_holders .default isOrderlyRun_rotation hnames hs (by decide)
  rw [hone] at hbalance
  exact ⟨hbalance, hone⟩

end Nearby.Cache
