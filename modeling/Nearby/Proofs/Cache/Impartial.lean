import Nearby.Proofs.Cache.Losses

/-!
# Subscribers do not matter to the cache, nor to each other

A cache is a table of entries and a list of subscribers, and the operations on the one do not look at
the other. That is seen best by exchanging the subscribers (`among`): a fetch, a sighting or a sweep
does the same among other subscribers, answers the same and makes the same changes. It follows that
a run has the entries and the record of changes that it has without its subscribers.

What a handler hears is made of the same record. From its subscription to its removal it hears what
is cached, and then the changes, so far as they pass its filter; before and after it hears nothing
(`IsImpartial`).
-/

namespace Nearby.Cache

/-! ## Other subscribers -/

/-- The cache among other subscribers. -/
def among (c : Cache) (subs : List Subscription) : Cache := { c with subscriptions := subs }

/-- The update as it is among other subscribers. -/
def Update.among {α : Type} (u : Update α) (subs : List Subscription) : Update α :=
  { u with cache := u.cache.among subs }

/-- Of subscribers put in twice, the last count. -/
@[simp] theorem among_among (c : Cache) (a b : List Subscription) :
    (c.among a).among b = c.among b := rfl

variable (c : Cache) (subs : List Subscription)

/-- What is cached does not depend on who subscribes, whatever is done to it. -/
theorem takeEntry_among (stamp : Stamp) :
    (c.among subs).takeEntry stamp =
      ((c.takeEntry stamp).1, (c.takeEntry stamp).2.among subs) := by
  have hget : (c.among subs).entries.get? stamp = c.entries.get? stamp := rfl
  rw [takeEntry, takeEntry, hget]
  split
  · rfl
  · rfl

theorem takePeer_among (peer : RadioId) :
    (c.among subs).takePeer peer = ((c.takePeer peer).1, (c.takePeer peer).2.among subs) := by
  have hget : (c.among subs).byPeer.get? peer = c.byPeer.get? peer := rfl
  rw [takePeer, takePeer, hget]
  split
  · rfl
  · exact takeEntry_among c subs _

theorem fetched_among (now : Timestamp) (stamp : Stamp) (peer : RadioId)
    (ads : List Advertisement) :
    (c.among subs).fetched now stamp peer ads = (c.fetched now stamp peer ads).among subs := by
  simp only [fetched, takePeer_among, takeEntry_among]
  rfl

theorem rekey_among (stamp : Stamp) (old peer : RadioId) :
    (c.among subs).rekey stamp old peer = (c.rekey stamp old peer).among subs := by
  have hbyPeer : (c.among subs).byPeer = c.byPeer := rfl
  simp only [rekey, hbyPeer]
  split
  · rfl
  · rfl

theorem haveSeen_among (now : Timestamp) (stamp : Stamp) (peer : RadioId) :
    (c.among subs).haveSeen now stamp peer = (c.haveSeen now stamp peer).among subs := by
  have hget : (c.among subs).entries.get? stamp = c.entries.get? stamp := rfl
  rw [haveSeen, haveSeen, hget]
  split
  · rfl
  rename_i e he
  have hfiled : ({ c.among subs with
      entries := (c.among subs).entries.insert stamp ⟨peer, e.ads, now⟩ } : Cache) =
        among { c with entries := c.entries.insert stamp ⟨peer, e.ads, now⟩ } subs := rfl
  dsimp only
  split
  · rfl
  · rw [hfiled, rekey_among]
    rfl

theorem evict_among (stamps : List Stamp) :
    (c.among subs).evict stamps = (c.evict stamps).among subs := by
  induction stamps generalizing c with
  | nil => rfl
  | cons stamp rest ih =>
    simp only [evict, takeEntry_among, ih]
    rfl

theorem sweep_among (now : Timestamp) :
    (c.among subs).sweep now = (c.sweep now).among subs := by
  simp only [sweep, evict_among]
  rfl

/-! ## The record of a run -/

/-- What an operation on the entries answers. -/
inductive Reply
  | filed (delta : Delta)
  | seen (known : Bool)
  | swept (count : Nat)
  | done
  deriving DecidableEq

namespace Operation

/-- True for the operations on the subscribers. -/
def isSubscription : Operation → Bool
  | subscribe .. => true
  | unsubscribe _ => true
  | _ => false

/-- What an operation on the entries answers. -/
def reply (c : Cache) : Operation → Reply
  | fetched now stamp peer ads => .filed (c.fetched now stamp peer ads).value
  | haveSeen now stamp peer => .seen (c.haveSeen now stamp peer).value
  | sweep now => .swept (c.sweep now).value
  | _ => .done

/-- The changes an operation makes to the advertisements, in order. -/
def changes (c : Cache) : Operation → List Advertisement
  | fetched now stamp peer ads => (c.fetched now stamp peer ads).changes
  | fetchFailed peer => (c.fetchFailed peer).changes
  | haveSeen now stamp peer => (c.haveSeen now stamp peer).changes
  | sweep now => (c.sweep now).changes
  | _ => []

variable (c : Cache) (subs : List Subscription)

/-- **An operation on the entries does the same among other subscribers**, answers the same and makes
the same changes. -/
theorem after_among {op : Operation} (h : op.isSubscription = false) :
    op.after (c.among subs) = (op.after c).among subs := by
  cases op with
  | fetched now stamp peer ads => rw [after, after, fetched_among]; rfl
  | fetchFailed peer => rfl
  | haveSeen now stamp peer => rw [after, after, haveSeen_among]; rfl
  | sweep now => rw [after, after, sweep_among]; rfl
  | clear => rfl
  | subscribe | unsubscribe => cases h

/-- An operation on the entries returns the same, whoever subscribes. -/
theorem reply_among (op : Operation) : op.reply (c.among subs) = op.reply c := by
  cases op with
  | fetched now stamp peer ads => rw [reply, reply, fetched_among]; rfl
  | haveSeen now stamp peer => rw [reply, reply, haveSeen_among]; rfl
  | sweep now => rw [reply, reply, sweep_among]; rfl
  | fetchFailed | subscribe | unsubscribe | clear => rfl

/-- It changes the same. -/
theorem changes_among (op : Operation) : op.changes (c.among subs) = op.changes c := by
  cases op with
  | fetched now stamp peer ads => rw [changes, changes, fetched_among]; rfl
  | haveSeen now stamp peer => rw [changes, changes, haveSeen_among]; rfl
  | sweep now => rw [changes, changes, sweep_among]; rfl
  | fetchFailed | subscribe | unsubscribe | clear => rfl

/-- An operation on the subscribers changes nothing else. -/
theorem after_of_isSubscription {op : Operation} (h : op.isSubscription = true) :
    ∃ subs, op.after c = c.among subs := by
  cases op with
  | subscribe wanted handler =>
    rw [after, Cache.subscribe]
    split
    · rename_i heq
      split at heq
      · cases heq
      · cases heq
        exact ⟨_, rfl⟩
    · exact ⟨c.subscriptions, rfl⟩
  | unsubscribe handler => exact ⟨_, rfl⟩
  | fetched | fetchFailed | haveSeen | sweep | clear => cases h

/-- Only operations on the entries change advertisements. -/
theorem changes_of_isSubscription {op : Operation} (h : op.isSubscription = true) :
    op.changes c = [] := by
  cases op with
  | subscribe | unsubscribe => rfl
  | fetched | fetchFailed | haveSeen | sweep | clear => cases h

end Operation

/-- What the operations of a run on the entries answer, each with the changes it makes. -/
def record (c : Cache) : List Operation → List (Reply × List Advertisement)
  | [] => []
  | op :: ops =>
    (if op.isSubscription then [] else [(op.reply c, op.changes c)]) ++ record (op.after c) ops

/-- The changes a run makes to the advertisements, in order. -/
def changesOf (c : Cache) : List Operation → List Advertisement
  | [] => []
  | op :: ops => op.changes c ++ changesOf (op.after c) ops

/-- The operations of a run on the entries. -/
def onEntries (ops : List Operation) : List Operation := ops.filter fun op => !op.isSubscription

/-- What subscribers do is no operation on the entries. -/
theorem onEntries_cons_of_isSubscription {op : Operation} (h : op.isSubscription = true)
    (ops : List Operation) : onEntries (op :: ops) = onEntries ops :=
  List.filter_cons_of_neg (by simp [h])

theorem onEntries_cons {op : Operation} (h : op.isSubscription = false) (ops : List Operation) :
    onEntries (op :: ops) = op :: onEntries ops :=
  List.filter_cons_of_pos (by simp [h])

/-- The changes of a run are those in its record. -/
theorem changesOf_eq (c : Cache) (ops : List Operation) :
    changesOf c ops = (record c ops).flatMap (·.2) := by
  induction ops generalizing c with
  | nil => rfl
  | cons op ops ih =>
    rw [changesOf, record, List.flatMap_append, ← ih]
    rcases hop : op.isSubscription with _ | _
    · simp
    · rw [Operation.changes_of_isSubscription c hop]
      rfl

/-- The record does not depend on who is subscribed in the beginning. -/
theorem record_among (c : Cache) (subs : List Subscription) (ops : List Operation) :
    record (c.among subs) ops = record c ops := by
  induction ops generalizing c subs with
  | nil => rfl
  | cons op ops ih =>
    rw [record, record]
    rcases hop : op.isSubscription with _ | _
    · rw [Operation.reply_among, Operation.changes_among, Operation.after_among c subs hop, ih]
    · obtain ⟨a, ha⟩ := op.after_of_isSubscription (c.among subs) hop
      obtain ⟨b, hb⟩ := op.after_of_isSubscription c hop
      rw [ha, hb, among_among, ih, ih]
      rfl

/-- **A run without its subscribers**, and started among any others, leaves the same entries. -/
theorem run_onEntries (c : Cache) (others subs : List Subscription) (ops : List Operation) :
    (c.run ops).among subs = ((c.among others).run (onEntries ops)).among subs := by
  induction ops generalizing c with
  | nil => rfl
  | cons op ops ih =>
    have hnext := ih (op.after c)
    rcases hop : op.isSubscription with _ | _
    · rw [← Operation.after_among c others hop] at hnext
      rw [onEntries_cons hop]
      exact hnext
    · obtain ⟨a, hafter⟩ := op.after_of_isSubscription c hop
      rw [hafter, among_among, ← hafter] at hnext
      rw [onEntries_cons_of_isSubscription hop]
      exact hnext

/-- **A run without its subscribers has the same record.** -/
theorem record_onEntries (c : Cache) (ops : List Operation) :
    record c ops = record c (onEntries ops) := by
  induction ops generalizing c with
  | nil => rfl
  | cons op ops ih =>
    rcases hop : op.isSubscription with _ | _
    · rw [onEntries_cons hop, record, record, ih]
    · obtain ⟨subs, hafter⟩ := op.after_of_isSubscription c hop
      rw [onEntries_cons_of_isSubscription hop, ← ih, record, hop, hafter, record_among]
      rfl

/-! ## What a handler hears -/

/-- What the operations of a run tell the subscribers. -/
def told (c : Cache) : List Operation → List Event
  | [] => []
  | op :: ops => op.events c ++ told (op.after c) ops

/-- What is told in a run is what is told in its parts. -/
theorem told_append (c : Cache) (a b : List Operation) :
    told c (a ++ b) = told c a ++ told (c.run a) b := by
  induction a generalizing c with
  | nil => rfl
  | cons op ops ih =>
    rw [List.cons_append, told, told, ih, List.append_assoc]
    rfl

variable {c : Cache}

/-- A handler that is not subscribed is told nothing. -/
theorem heardBy_announce_of_not_subscribed {subs : List Subscription} {handler : Handler}
    (h : ∀ s ∈ subs, s.handler ≠ handler) (changes : List Advertisement) :
    heardBy handler (announce subs changes) = [] := by
  rw [heardBy, List.filter_eq_nil_iff.mpr, List.map_nil]
  intro e he
  obtain ⟨ad, -, he⟩ := List.mem_flatMap.mp he
  obtain ⟨s, hs, rfl⟩ := List.mem_map.mp he
  simpa using h s (List.mem_of_mem_filter hs)

/-- An operation on the entries announces its changes to those who are subscribed. -/
theorem events_of_onEntries {op : Operation} (h : op.isSubscription = false) :
    op.events c = announce c.subscriptions (op.changes c) ∧
      (op.after c).subscriptions = c.subscriptions := by
  cases op with
  | fetched now stamp peer ads =>
    rw [Operation.events, Update.events, Operation.after, subscriptions_fetched]
    exact ⟨rfl, rfl⟩
  | fetchFailed peer => exact ⟨rfl, rfl⟩
  | haveSeen now stamp peer =>
    rw [Operation.events, Update.events, Operation.after, subscriptions_haveSeen]
    exact ⟨rfl, rfl⟩
  | sweep now =>
    rw [Operation.events, Update.events, Operation.after, sweep, subscriptions_evict]
    refine ⟨?_, rfl⟩
    rw [Operation.changes, sweep]
  | clear => exact ⟨rfl, rfl⟩
  | subscribe | unsubscribe => cases h

/-- **A subscriber hears of an operation** the changes it wants, and stays subscribed unless it is
taken out. -/
theorem heardBy_events (h : c.HasDistinctHandlers) {s : Subscription} (hs : s ∈ c.subscriptions)
    {op : Operation} (hop : op ≠ .unsubscribe s.handler) :
    heardBy s.handler (op.events c) = (op.changes c).filter (·.isWanted s.wanted) ∧
      s ∈ (op.after c).subscriptions := by
  rcases hsub : op.isSubscription with _ | _
  · obtain ⟨hevents, hsubs⟩ := events_of_onEntries (c := c) hsub
    rw [hevents, hsubs]
    exact ⟨heardBy_announce h hs _, hs⟩
  rw [Operation.changes_of_isSubscription c hsub]
  cases op with
  | subscribe wanted handler =>
    rcases hhandler : c.isSubscribed handler with _ | _
    · -- another handler comes, and the replay is for that one
      have hne : handler ≠ s.handler := (isSubscribed_eq_false_iff.mp hhandler s hs).symm
      rw [Operation.events, Operation.after, subscribe_of_not_isSubscribed hhandler]
      exact ⟨heardBy_replay_of_ne c wanted hne, List.mem_append_left _ hs⟩
    · rw [Operation.events, Operation.after, subscribe_of_isSubscribed hhandler]
      exact ⟨rfl, hs⟩
  | unsubscribe handler =>
    have hne : s.handler ≠ handler := fun heq => hop (by rw [heq])
    exact ⟨rfl, List.mem_filter.mpr ⟨hs, by simpa using hne⟩⟩
  | fetched | fetchFailed | haveSeen | sweep | clear => cases hsub

/-- **From its subscription on a handler hears the changes it wants**, until it is taken out. -/
theorem heardBy_told (h : c.HasDistinctHandlers) {s : Subscription} (hs : s ∈ c.subscriptions)
    {ops : List Operation} (hops : .unsubscribe s.handler ∉ ops) :
    heardBy s.handler (told c ops) = (changesOf c ops).filter (·.isWanted s.wanted) := by
  induction ops generalizing c with
  | nil => rfl
  | cons op ops ih =>
    obtain ⟨hop, hrest⟩ := not_or.mp (List.mem_cons.not.mp hops)
    obtain ⟨hheard, hstays⟩ := heardBy_events h hs (Ne.symm hop)
    rw [told, changesOf, heardBy_append, List.filter_append, hheard, ih (h.after op) hstays hrest]

/-- A handler that is not subscribed hears nothing of an operation, unless it subscribes. -/
theorem heardBy_events_of_not_subscribed {handler : Handler} (h : c.isSubscribed handler = false)
    {op : Operation} (hop : ∀ wanted, op ≠ .subscribe wanted handler) :
    heardBy handler (op.events c) = [] ∧ (op.after c).isSubscribed handler = false := by
  rw [isSubscribed_eq_false_iff] at h
  rw [isSubscribed_eq_false_iff]
  rcases hsub : op.isSubscription with _ | _
  · obtain ⟨hevents, hsubs⟩ := events_of_onEntries (c := c) hsub
    rw [hevents, hsubs]
    exact ⟨heardBy_announce_of_not_subscribed h _, h⟩
  cases op with
  | subscribe wanted other =>
    have hne : other ≠ handler := fun heq => hop wanted (by rw [heq])
    rcases hother : c.isSubscribed other with _ | _
    · rw [Operation.events, Operation.after, subscribe_of_not_isSubscribed hother]
      refine ⟨heardBy_replay_of_ne c wanted hne, fun s hs => ?_⟩
      rcases List.mem_append.mp hs with hs | hs
      · exact h s hs
      · rw [List.mem_singleton.mp hs]
        exact hne
    · rw [Operation.events, Operation.after, subscribe_of_isSubscribed hother]
      exact ⟨rfl, h⟩
  | unsubscribe other => exact ⟨rfl, fun s hs => h s (List.mem_of_mem_filter hs)⟩
  | fetched | fetchFailed | haveSeen | sweep | clear => cases hsub

/-- **A handler that does not subscribe hears nothing.** -/
theorem heardBy_told_of_not_subscribed {handler : Handler} (h : c.isSubscribed handler = false)
    {ops : List Operation} (hops : ∀ wanted, .subscribe wanted handler ∉ ops) :
    heardBy handler (told c ops) = [] := by
  induction ops generalizing c with
  | nil => rfl
  | cons op ops ih =>
    obtain ⟨hheard, hstays⟩ := heardBy_events_of_not_subscribed h fun wanted heq =>
      hops wanted (heq ▸ List.mem_cons_self)
    rw [told, heardBy_append, hheard, ih hstays fun wanted hmem =>
      hops wanted (List.mem_cons_of_mem _ hmem)]
    rfl

/-- Who has unsubscribed is not subscribed. -/
theorem isSubscribed_unsubscribe (c : Cache) (handler : Handler) :
    (c.unsubscribe handler).1.isSubscribed handler = false := by
  rw [isSubscribed_eq_false_iff]
  intro s hs
  simpa using List.of_mem_filter hs

/-- The changes of a run do not depend on who is subscribed in the beginning. -/
theorem changesOf_among (c : Cache) (subs : List Subscription) (ops : List Operation) :
    changesOf (c.among subs) ops = changesOf c ops := by
  rw [changesOf_eq, changesOf_eq, record_among]

/-! ## Impartiality -/

/-- What subscribers have to do with a run. -/
structure IsImpartial (config : Config) : Prop where
  /-- Two runs that do the same to the entries, at the same readings of the clock, leave the same
  entries and the same index, and have the same record of answers and changes. -/
  entries : ∀ ops ops', onEntries ops = onEntries ops' →
    ((new config).run ops).entries = ((new config).run ops').entries ∧
      ((new config).run ops).byPeer = ((new config).run ops').byPeer ∧
      record (new config) ops = record (new config) ops'
  /-- A fetch loses what it does not bring again before it adds what it brings. -/
  lossesFirst : ∀ ops now stamp peer ads, ∃ lost found,
    (((new config).run ops).fetched now stamp peer ads).changes = lost ++ found ∧
      (∀ ad ∈ lost, ad.lost = true ∧ ∀ other ∈ ads, other.key ≠ ad.key) ∧ ∀ ad ∈ found, ad ∈ ads
  /-- From its subscription until its removal a handler hears what is cached, and then the changes of
  the run, in order, so far as they pass its filter. -/
  heard : ∀ before wanted handler during c' events,
    ((new config).run before).subscribe wanted handler = .ok (c', events) →
      .unsubscribe handler ∉ during →
      heardBy handler (told (new config) (before ++ .subscribe wanted handler :: during)) =
        heardBy handler (told (new config) before) ++
          (((new config).run before).advertisements ++
            changesOf ((new config).run before) during).filter (·.isWanted wanted)
  /-- A handler that is not subscribed hears nothing until it subscribes. -/
  silent : ∀ before handler during, ((new config).run before).isSubscribed handler = false →
    (∀ wanted, .subscribe wanted handler ∉ during) →
      heardBy handler (told (new config) (before ++ during)) =
        heardBy handler (told (new config) before)
  /-- A handler that was removed is not subscribed. -/
  removed : ∀ before handler,
    ((new config).run (before ++ [.unsubscribe handler])).isSubscribed handler = false
  /-- A handler that is not subscribed may subscribe. -/
  accepted : ∀ before wanted handler, ((new config).run before).isSubscribed handler = false →
    (((new config).run before).subscribe wanted handler).isOk = true
  /-- A handler that is subscribed is refused, without an event and without any effect. -/
  refused : ∀ before wanted handler, ((new config).run before).isSubscribed handler = true →
    ((new config).run before).subscribe wanted handler = .error .duplicate ∧
      told (new config) (before ++ [.subscribe wanted handler]) = told (new config) before ∧
      (new config).run (before ++ [.subscribe wanted handler]) = (new config).run before

/-- What a handler hears that subscribes. -/
theorem heardBy_told_subscribe {c : Cache} (h : c.HasDistinctHandlers) {wanted : String}
    {handler : Handler} (hnew : c.isSubscribed handler = false) {during : List Operation}
    (hduring : .unsubscribe handler ∉ during) :
    heardBy handler (told c (.subscribe wanted handler :: during)) =
      (c.advertisements ++ changesOf c during).filter (·.isWanted wanted) := by
  have hdistinct := h.after (.subscribe wanted handler)
  have hafter : (Operation.subscribe wanted handler).after c =
      c.among (c.subscriptions ++ [⟨wanted, handler⟩]) := by
    rw [Operation.after, subscribe_of_not_isSubscribed hnew]
    rfl
  have hevents : (Operation.subscribe wanted handler).events c = c.replay wanted handler := by
    rw [Operation.events, subscribe_of_not_isSubscribed hnew]
  rw [hafter] at hdistinct
  have hmem : (⟨wanted, handler⟩ : Subscription) ∈
      (c.among (c.subscriptions ++ [⟨wanted, handler⟩])).subscriptions :=
    List.mem_append_right _ List.mem_cons_self
  have hrest := heardBy_told hdistinct hmem hduring
  rw [told, heardBy_append, hevents, heardBy_replay, hafter, hrest, changesOf_among,
    List.filter_append]

/-- **Subscribers influence neither the cache nor each other.** -/
theorem impartial (config : Config) : IsImpartial config where
  -- operations on the entries are the same in both runs, so all that depends on them is
  entries ops ops' hsame := by
    have hrun := run_onEntries (new config) [] [] ops
    rw [hsame, ← run_onEntries (new config) [] [] ops'] at hrun
    have hentries := congrArg Cache.entries hrun
    have hindex := congrArg Cache.byPeer hrun
    refine ⟨hentries, hindex, ?_⟩
    rw [record_onEntries, hsame, ← record_onEntries]
  lossesFirst ops now stamp peer ads := by
    refine ⟨_, _, changes_fetched _ now stamp peer ads, fun ad had => ?_,
      fun ad had => List.mem_of_mem_filter had⟩
    obtain ⟨before, hbefore, rfl⟩ := List.mem_map.mp had
    exact ⟨rfl, (of_mem_losses hbefore).2⟩
  heard before wanted handler during c' events hok hduring := by
    have hnew : ((new config).run before).isSubscribed handler = false := by
      rcases hsub : ((new config).run before).isSubscribed handler with _ | _
      · rfl
      · cases hok.symm.trans (subscribe_of_isSubscribed hsub wanted)
    rw [told_append, heardBy_append,
      heardBy_told_subscribe (hasDistinctHandlers_run config before) hnew hduring]
  silent before handler during hsub hduring := by
    rw [told_append, heardBy_append, heardBy_told_of_not_subscribed hsub hduring, List.append_nil]
  removed before handler := by
    rw [run_append]
    exact isSubscribed_unsubscribe _ handler
  accepted before wanted handler hsub := by
    rw [subscribe_of_not_isSubscribed hsub]
    rfl
  refused before wanted handler hsub := by
    have hrefused := subscribe_of_isSubscribed hsub wanted
    refine ⟨hrefused, ?_, ?_⟩
    · rw [told_append, told, Operation.events, hrefused]
      exact List.append_nil _
    · rw [run_append]
      change (Operation.subscribe wanted handler).after _ = _
      rw [Operation.after, hrefused]

/-- One handler leaves before the room goes, another comes after it was first met, and tries to come
a second time. -/
def visitors : List Operation :=
  [.fetched ⟨50000⟩ ⟨2⟩ ⟨"aa"⟩ [], .subscribe "lamp" ⟨"late"⟩, .unsubscribe ⟨"early"⟩,
    .fetched ⟨60000⟩ ⟨3⟩ ⟨"bb"⟩ [room], .sweep ⟨200000⟩]

theorem impartial_visitors :
    let before : List Operation :=
      [.subscribe "room" ⟨"early"⟩, .fetched ⟨0⟩ ⟨1⟩ ⟨"aa"⟩ [room]]
    heardBy ⟨"late"⟩ (told (new .default) (before ++ .subscribe "" ⟨"late"⟩ :: visitors)) =
      [room, room.asLost, room, room.asLost] := by
  intro before
  have hok : ((new .default).run before).subscribe "" ⟨"late"⟩ =
      .ok (_, _) := subscribe_of_not_isSubscribed (by decide +kernel) ""
  have hheard := (impartial .default).heard before "" ⟨"late"⟩ visitors _ _ hok
    (by simp [visitors])
  rw [hheard]
  decide +kernel

end Nearby.Cache
