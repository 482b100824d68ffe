import Nearby.Proofs.Cache.Run

/-!
# What subscribers hear

An operation tells its changes to all subscribers at once. Here its events are read from the side of
one handler (`heardBy`): no handler is subscribed twice, so a subscriber hears the changes it wants,
each once and in their order, and a handler that is not subscribed hears nothing. What a handler
hears over a run, from the time it subscribed, is its `history`.
-/

namespace Nearby.Cache

/-- What a list of events tells a handler. -/
def heardBy (handler : Handler) (events : List Event) : List Advertisement :=
  (events.filter fun e => e.handler = handler).map Event.ad

@[simp] theorem heardBy_nil (handler : Handler) : heardBy handler [] = [] := rfl

@[simp] theorem heardBy_append (handler : Handler) (a b : List Event) :
    heardBy handler (a ++ b) = heardBy handler a ++ heardBy handler b := by
  simp [heardBy]

/-! ## Announcements -/

/-- Every handler is subscribed once at most. -/
def HasDistinctHandlers (c : Cache) : Prop := (c.subscriptions.map Subscription.handler).Nodup

/-- A handler that is subscribed has one subscription. -/
theorem filter_handler {subs : List Subscription} (h : (subs.map Subscription.handler).Nodup)
    {s : Subscription} (hs : s ∈ subs) : (subs.filter fun t => t.handler = s.handler) = [s] := by
  induction subs with
  | nil => cases hs
  | cons t rest ih =>
    obtain ⟨ht, hrest⟩ := List.nodup_cons.mp h
    rcases List.mem_cons.mp hs with rfl | hs
    · rw [List.filter_cons_of_pos (by simp), List.filter_eq_nil_iff.mpr]
      intro t hmem hsame
      exact ht (List.mem_map.mpr ⟨t, hmem, of_decide_eq_true hsame⟩)
    · rw [List.filter_cons_of_neg, ih hrest hs]
      intro hsame
      exact ht (List.mem_map.mpr ⟨s, hs, (of_decide_eq_true hsame).symm⟩)

/-- One change is told to the subscriptions of the handler. -/
theorem heardBy_map (handler : Handler) (subs : List Subscription) (ad : Advertisement) :
    heardBy handler (subs.map fun t => ⟨t.handler, ad⟩) =
      (subs.filter fun t => t.handler = handler).map fun _ => ad := by
  rw [heardBy, List.filter_map, List.map_map]
  rfl

/-- **A subscriber hears what it wants**: of the changes those that pass its filter, in order. -/
theorem heardBy_announce {subs : List Subscription} (h : (subs.map Subscription.handler).Nodup)
    {s : Subscription} (hs : s ∈ subs) (changes : List Advertisement) :
    heardBy s.handler (announce subs changes) = changes.filter (·.isWanted s.wanted) := by
  induction changes with
  | nil => rfl
  | cons ad rest ih =>
    -- of those that want the change, only the subscription of this handler counts
    have hone : ((subs.filter fun t => ad.isWanted t.wanted).filter fun t => t.handler = s.handler) =
        [s].filter fun t => ad.isWanted t.wanted := by
      rw [← filter_handler h hs, List.filter_filter, List.filter_filter]
      simp only [Bool.and_comm]
    change heardBy s.handler (_ ++ announce subs rest) = _
    rw [heardBy_append, heardBy_map, hone, ih]
    by_cases hw : ad.isWanted s.wanted
    · simp [hw]
    · simp [hw]

/-- A replay is for the new subscriber. -/
theorem heardBy_replay (c : Cache) (wanted : String) (handler : Handler) :
    heardBy handler (c.replay wanted handler) =
      c.advertisements.filter (·.isWanted wanted) := by
  rw [heardBy, replay, List.filter_eq_self.mpr, List.map_map]
  · exact List.map_id _
  · intro e he
    obtain ⟨ad, -, rfl⟩ := List.mem_map.mp he
    exact decide_eq_true rfl

/-- A replay is for the new subscriber only. -/
theorem heardBy_replay_of_ne (c : Cache) (wanted : String) {handler other : Handler}
    (h : other ≠ handler) : heardBy handler (c.replay wanted other) = [] := by
  rw [heardBy, replay, List.filter_eq_nil_iff.mpr, List.map_nil]
  intro e he
  obtain ⟨ad, -, rfl⟩ := List.mem_map.mp he
  exact fun hsame => h (of_decide_eq_true hsame)

/-! ## Subscriptions over a run -/

@[simp] theorem subscriptions_takeEntry (c : Cache) (stamp : Stamp) :
    (c.takeEntry stamp).2.subscriptions = c.subscriptions := by
  rw [takeEntry]
  split
  · rfl
  · rfl

@[simp] theorem subscriptions_takePeer (c : Cache) (peer : RadioId) :
    (c.takePeer peer).2.subscriptions = c.subscriptions := by
  rw [takePeer]
  split
  · rfl
  · exact subscriptions_takeEntry ..

@[simp] theorem subscriptions_fetched (c : Cache) (now : Timestamp) (stamp : Stamp) (peer : RadioId)
    (ads : List Advertisement) :
    (c.fetched now stamp peer ads).cache.subscriptions = c.subscriptions := by
  change ((c.takePeer peer).2.takeEntry stamp).2.subscriptions = _
  rw [subscriptions_takeEntry, subscriptions_takePeer]

@[simp] theorem subscriptions_haveSeen (c : Cache) (now : Timestamp) (stamp : Stamp)
    (peer : RadioId) : (c.haveSeen now stamp peer).cache.subscriptions = c.subscriptions := by
  simp only [haveSeen, rekey]
  split
  · rfl
  · split
    · rfl
    · split
      · rfl
      · rfl

@[simp] theorem subscriptions_evict (c : Cache) (stamps : List Stamp) :
    (c.evict stamps).cache.subscriptions = c.subscriptions := by
  induction stamps generalizing c with
  | nil => rfl
  | cons stamp rest ih => exact (ih _).trans (subscriptions_takeEntry c stamp)

/-- To subscribe twice is an error. -/
theorem subscribe_of_isSubscribed {c : Cache} {handler : Handler} (h : c.isSubscribed handler = true)
    (wanted : String) : c.subscribe wanted handler = .error .duplicate := by
  rw [subscribe, if_pos h]

/-- To subscribe for the first time adds a subscription, and replays what is cached. -/
theorem subscribe_of_not_isSubscribed {c : Cache} {handler : Handler}
    (h : c.isSubscribed handler = false) (wanted : String) :
    c.subscribe wanted handler =
      .ok ({ c with subscriptions := c.subscriptions ++ [⟨wanted, handler⟩] },
        c.replay wanted handler) := by
  rw [subscribe, if_neg (by simp [h])]

/-- A handler is not subscribed if no subscription is its. -/
theorem isSubscribed_eq_false_iff {c : Cache} {handler : Handler} :
    c.isSubscribed handler = false ↔ ∀ s ∈ c.subscriptions, s.handler ≠ handler := by
  simp [isSubscribed]

/-- **No handler is ever subscribed twice.** -/
theorem HasDistinctHandlers.after {c : Cache} (h : c.HasDistinctHandlers) (op : Operation) :
    (op.after c).HasDistinctHandlers := by
  rw [HasDistinctHandlers] at h ⊢
  cases op with
  | fetched now stamp peer ads =>
    rw [Operation.after, subscriptions_fetched]
    exact h
  | fetchFailed peer => exact h
  | haveSeen now stamp peer =>
    rw [Operation.after, subscriptions_haveSeen]
    exact h
  | sweep now =>
    rw [Operation.after, sweep, subscriptions_evict]
    exact h
  | subscribe wanted handler =>
    rcases hsub : c.isSubscribed handler with _ | _
    · rw [Operation.after, subscribe_of_not_isSubscribed hsub]
      change (List.map Subscription.handler (c.subscriptions ++ [⟨wanted, handler⟩])).Nodup
      rw [List.map_append, List.map_singleton, List.nodup_append]
      refine ⟨h, List.pairwise_singleton _ _, ?_⟩
      intro a ha b hb
      obtain ⟨s, hs, rfl⟩ := List.mem_map.mp ha
      rw [List.mem_singleton.mp hb]
      exact isSubscribed_eq_false_iff.mp hsub s hs
    · rw [Operation.after, subscribe_of_isSubscribed hsub]
      exact h
  | unsubscribe handler => exact h.sublist (List.filter_sublist.map _)
  | clear => exact h

/-- No handler ever has two subscriptions. -/
theorem hasDistinctHandlers_run (config : Config) (ops : List Operation) :
    ((new config).run ops).HasDistinctHandlers :=
  run_induction (fun _ op h => h.after op) List.nodup_nil ops

/-! ## Histories -/

/-- True for the operation that makes a handler a subscriber. -/
def Operation.registers (c : Cache) (handler : Handler) : Operation → Bool
  | subscribe _ other => other = handler && !c.isSubscribed handler
  | _ => false

/-- What a handler heard since it subscribed, after a run that starts with something heard. -/
def history (handler : Handler) : Cache → List Advertisement → List Operation → List Advertisement
  | _, heard, [] => heard
  | c, heard, op :: ops =>
    history handler (op.after c)
      ((if op.registers c handler then [] else heard) ++ heardBy handler (op.events c)) ops

end Nearby.Cache
