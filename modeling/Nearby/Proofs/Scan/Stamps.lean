import Nearby.Proofs.Cache.Index
import Nearby.Proofs.Latest
import Nearby.Proofs.Scan.Ledger

/-!
# The stamps that peers wait under

A peer waits for its turn under a stamp, and the cache files under that stamp what is fetched from it.
A sighting of a peer that waits changes the stamp, unless the stamp it brings is cached: then it is
turned away before the queue is looked at. So the stamp is that of the last sighting that was not
turned away, and the peer may announce another one by now (`Ledger.announced_iff`).

The cache is asked about a stamp when a peer is met, and not again. Until its turn comes the stamp may
have come into the cache, fetched from another peer that announced the same one, and then the driver
connects to the peer nevertheless (`Ledger.launched_known_iff`).
-/

namespace Nearby.Scan

namespace Record

/-- The stamp under which a peer was met, and how it was received. -/
def met? (peer : RadioId) : Record → Option (Stamp × Reception)
  | .met other stamp reception => if other = peer then some (stamp, reception) else none
  | _ => none

/-- The stamp under which a peer was met, if it was not turned away as known. -/
def heeded? (peer : RadioId) (x : Record) : Option Stamp :=
  match x.met? peer with
  | some (_, .known) => none
  | some (stamp, _) => some stamp
  | none => none

/-- Whether there is an entry under a stamp, as far as a record says. -/
def cached? (stamp : Stamp) : Record → Option Bool
  | .told pending (.ok _) => if pending.stamp = stamp then some true else none
  | .planted filed => if filed = stamp then some true else none
  | .gone lost => if lost = stamp then some false else none
  | _ => none

/-- What does not bear on a peer says nothing of it, or that it was turned away as known. -/
theorem met?_of_not_bearsOn {peer : RadioId} {x : Record} (h : x.bearsOn peer = false)
    {stamp : Stamp} {reception : Reception} (hx : x.met? peer = some (stamp, reception)) :
    reception = .known := by
  cases x with
  | met other met received =>
    rw [met?] at hx
    by_cases hother : other = peer
    · rw [if_pos hother] at hx
      cases hx
      simpa [bearsOn, hother] using h
    · rw [if_neg hother] at hx
      cases hx
  | launched | told | stopped | cancelled | gone | planted => cases hx

/-- What has no bearing on a peer is not heeded. -/
theorem heeded?_of_not_bearsOn {peer : RadioId} {x : Record} (h : x.bearsOn peer = false) :
    x.heeded? peer = none := by
  rw [heeded?]
  rcases hx : x.met? peer with _ | ⟨stamp, reception⟩
  · rfl
  · rw [met?_of_not_bearsOn h hx]

end Record

/-- The stamp of the last sighting of a peer that was handled, and how it was received. -/
def lastMet (peer : RadioId) (log : List Record) : Option (Stamp × Reception) :=
  lastSome (Record.met? peer) log

/-- The stamp of the last sighting of a peer that was not turned away as known. -/
def lastHeeded (peer : RadioId) (log : List Record) : Option Stamp :=
  lastSome (Record.heeded? peer) log

/-- Whether there is an entry under a stamp, by what is on record. -/
def isOnFile (cache : Cache) (log : List Record) (stamp : Stamp) : Bool :=
  (lastSome (Record.cached? stamp) log).getD (cache.entries.contains stamp)

/-! ## The last announcement -/

section Stands

variable {log : List Record} {pending : Pending}

/-- A peer waits under the stamp of its last sighting that was not turned away. -/
theorem Roster.Stands.lastHeeded_eq (h : Roster.Stands log pending) :
    lastHeeded pending.peer log = some pending.stamp := by
  obtain ⟨before, reception, since, rfl, hreception, hsince⟩ := h
  have hnone : lastSome (Record.heeded? pending.peer) since = none :=
    lastSome_eq_none_iff.mpr fun x hx => Record.heeded?_of_not_bearsOn (hsince x hx)
  have hmet : Record.heeded? pending.peer (.met pending.peer pending.stamp reception) =
      some pending.stamp := by
    rw [Record.heeded?, Record.met?, if_pos rfl]
    rcases hreception with rfl | rfl
    · rfl
    · rfl
  rw [lastHeeded, lastSome_append, lastSome_cons, hnone, hmet]
  rfl

/-- If it was met since, it was turned away as known. -/
theorem Roster.Stands.lastMet_cases (h : Roster.Stands log pending) :
    (∃ reception, lastMet pending.peer log = some (pending.stamp, reception)) ∨
      ∃ stamp, lastMet pending.peer log = some (stamp, .known) := by
  obtain ⟨before, reception, since, rfl, -, hsince⟩ := h
  rw [lastMet, lastSome_append, lastSome_cons, Record.met?, if_pos rfl]
  rcases hlast : lastSome (Record.met? pending.peer) since with _ | ⟨stamp, received⟩
  · exact .inl ⟨reception, rfl⟩
  · obtain ⟨x, hx, hmet⟩ := exists_of_lastSome hlast
    obtain rfl := Record.met?_of_not_bearsOn (hsince x hx) hmet
    exact .inr ⟨stamp, rfl⟩

end Stands

namespace Ledger

variable {config : Config}

/-- Who waits in an orderly run stands as the records have it. -/
theorem IsOrderly.stands {l : Ledger} (h : l.IsOrderly config) {pending : Pending}
    (hmem : pending ∈ l.pipeline.line) : Roster.Stands l.log pending :=
  h.follows.stands rfl List.nodup_nil pending hmem

/-- **Who waits does so under the stamp of the last sighting that was not turned away as known.** This
is the stamp the peer announced last, exactly if no other stamp was turned away since. It holds in
every state, of the one for whom scanning is being stopped as of the others in the queue. -/
theorem announced_iff (config : Config) (cache : Cache) {happenings : List Happening}
    (hgenuine : ∀ x ∈ happenings, x.IsGenuine) :
    let l := (initial cache).run config happenings
    ∀ pending ∈ l.pipeline.line,
      lastHeeded pending.peer l.log = some pending.stamp ∧
        ((∃ reception, lastMet pending.peer l.log = some (pending.stamp, reception)) ↔
          ∀ stamp, lastMet pending.peer l.log = some (stamp, .known) → stamp = pending.stamp) := by
  intro l pending hmem
  have h : l.IsOrderly config := (isOrderly_initial cache).run hgenuine
  have hstands := h.stands hmem
  refine ⟨hstands.lastHeeded_eq, ?_, fun hknown => ?_⟩
  · rintro ⟨reception, hlast⟩ stamp hstamp
    rw [hlast] at hstamp
    cases hstamp
    rfl
  · rcases hstands.lastMet_cases with hlast | ⟨stamp, hlast⟩
    · exact hlast
    · exact ⟨.known, by rw [hlast, hknown stamp hlast]⟩

theorem announced_rush :
    let l := (initial (.new .default)).run .default System.rush
    l.pipeline.line = [⟨⟨"bb"⟩, ⟨9⟩⟩] ∧ lastHeeded ⟨"bb"⟩ l.log = some ⟨9⟩ ∧
      ∃ reception, lastMet ⟨"bb"⟩ l.log = some (⟨9⟩, reception) := by
  intro l
  have hgenuine : ∀ x ∈ System.rush, x.IsGenuine := by
    simp [System.rush, Happening.IsGenuine, Move.IsGenuine]
  have hline : l.pipeline.line = [⟨⟨"bb"⟩, ⟨9⟩⟩] := by decide +kernel
  have hlast : (lastMet ⟨"bb"⟩ l.log).map Prod.snd = some .merged := by decide +kernel
  obtain ⟨hheeded, hannounced⟩ := announced_iff .default (.new .default) hgenuine ⟨⟨"bb"⟩, ⟨9⟩⟩
    (hline ▸ List.mem_singleton_self _)
  refine ⟨hline, hheeded, hannounced.mpr fun stamp hknown => ?_⟩
  rw [hknown] at hlast
  cases hlast

/-- A peer is fetched from, and filed under its stamp. Two others are met, and while the one is
fetched from, the other announces the stamp that is cached. -/
def confusion : List Happening :=
  [.caches { Cache.new .default with subscriptions := [⟨"", ⟨"list"⟩⟩] },
    .moves ⟨0⟩ (.send (.sync 0)), .moves ⟨1⟩ .takeCommand,
    .moves ⟨2⟩ (.scanAnswered (.error (.scan "busy"))),
    .moves ⟨3⟩ (.hear ⟨⟨"cc"⟩, Stamp.payload ⟨5⟩⟩), .moves ⟨4⟩ .takeSighting,
    .moves ⟨5⟩ (.fetchBegins 0), .moves ⟨6⟩ (.fetchAnswered 0 (.done (.ok ()))),
    .moves ⟨7⟩ (.fetchAnswered 0 (.services (.ok []))), .moves ⟨8⟩ .takeCommand,
    .moves ⟨8⟩ .takeCommand, .moves ⟨8⟩ .takeCommand, .moves ⟨9⟩ (.closed (.answered (.ok ()))),
    .moves ⟨10⟩ (.scanAnswered (.error (.scan "busy"))),
    .moves ⟨11⟩ (.hear ⟨⟨"aa"⟩, Stamp.payload ⟨7⟩⟩), .moves ⟨11⟩ (.hear ⟨⟨"bb"⟩, Stamp.payload ⟨8⟩⟩),
    .moves ⟨11⟩ (.hear ⟨⟨"bb"⟩, Stamp.payload ⟨5⟩⟩), .moves ⟨12⟩ .takeSighting,
    .moves ⟨12⟩ .takeSighting, .moves ⟨12⟩ .takeSighting]

/-- **A peer may wait under a stamp that it does not announce any more**: what it announces is cached,
and so it is turned away before the queue is looked at. -/
theorem not_always_announced :
    ¬∀ (config : Config) (cache : Cache) (happenings : List Happening),
      (∀ x ∈ happenings, x.IsGenuine) →
      let l := (initial cache).run config happenings
      ∀ pending ∈ l.pipeline.queue,
        ∃ reception, lastMet pending.peer l.log = some (pending.stamp, reception) := by
  intro hall
  have hgenuine : ∀ x ∈ confusion, x.IsGenuine := by
    simp [confusion, Happening.IsGenuine, Move.IsGenuine]
  obtain ⟨reception, hlast⟩ := hall .default (.new .default) confusion hgenuine ⟨⟨"bb"⟩, ⟨8⟩⟩
    (by decide +kernel)
  have hknown : lastMet ⟨"bb"⟩ ((initial (.new .default)).run .default confusion).log =
      some (⟨5⟩, .known) := by decide +kernel
  have hstamps := hknown.symm.trans hlast
  simp at hstamps

end Ledger

/-! ## What is on file -/

/-- An entry under a stamp that was there before, or that a fetch has filed. -/
theorem contains_takeEntry {c : Cache} {stamp s : Stamp}
    (h : (c.takeEntry stamp).2.entries.contains s = true) : c.entries.contains s = true := by
  rw [Table.contains, Cache.get?_entries_takeEntry] at h
  split at h
  · cases h
  · exact h

/-- What is cached once a peer was taken out was cached before. -/
theorem contains_takePeer {c : Cache} {peer : RadioId} {s : Stamp}
    (h : (c.takePeer peer).2.entries.contains s = true) : c.entries.contains s = true := by
  rw [Cache.takePeer] at h
  split at h
  · exact h
  · exact contains_takeEntry h

/-- What was fetched is cached. -/
theorem contains_fetched (c : Cache) (now : Timestamp) (stamp : Stamp) (peer : RadioId)
    (ads : List Advertisement) : (c.fetched now stamp peer ads).cache.entries.contains stamp = true := by
  rw [Cache.entries_fetched, Table.contains, Table.get?_insert_self]
  rfl

/-- A fetch files nothing under another stamp. -/
theorem contains_of_fetched {c : Cache} {now : Timestamp} {stamp : Stamp} {peer : RadioId}
    {ads : List Advertisement} {s : Stamp}
    (h : (c.fetched now stamp peer ads).cache.entries.contains s = true) (hs : s ≠ stamp) :
    c.entries.contains s = true := by
  rw [Cache.entries_fetched, Table.contains, Table.get?_insert, if_neg hs] at h
  exact contains_takePeer (contains_takeEntry h)

/-- A sighting files nothing. -/
theorem contains_of_haveSeen {c : Cache} {now : Timestamp} {stamp : Stamp} {peer : RadioId}
    {s : Stamp} (h : (c.haveSeen now stamp peer).cache.entries.contains s = true) :
    c.entries.contains s = true := by
  rcases he : c.entries.get? stamp with _ | e
  · rwa [Cache.haveSeen_of_get?_eq_none he] at h
  have hinsert : ∀ entry, (c.entries.insert stamp entry).contains s = true →
      c.entries.contains s = true := by
    intro entry hentry
    rw [Table.contains, Table.get?_insert] at hentry
    by_cases hs : s = stamp
    · rw [hs, Table.contains, he]
      rfl
    · rwa [if_neg hs] at hentry
  rw [Cache.haveSeen, he] at h
  dsimp only at h
  split at h
  · exact hinsert _ h
  · rw [Cache.rekey] at h
    dsimp only at h
    split at h
    · exact hinsert _ h
    · rename_i stale _
      rw [Table.contains, Table.get?_erase] at h
      split at h
      · cases h
      · exact hinsert _ h

/-- The stamps that a cache has lost were cached and are not. -/
theorem mem_lostStamps {c c' : Cache} {stamp : Stamp} :
    stamp ∈ lostStamps c c' ↔
      c.entries.contains stamp = true ∧ c'.entries.contains stamp = false := by
  rw [lostStamps, List.mem_filter, Table.mem_keys, Bool.not_eq_true',
    Table.contains.eq_def c.entries, Option.isSome_iff_exists]

/-- The last word on a stamp in a list of records of one kind. -/
theorem lastSome_map_cached? {stamp : Stamp} {g : Stamp → Record} {b : Bool}
    (hg : ∀ s, (g s).cached? stamp = if s = stamp then some b else none) (stamps : List Stamp) :
    lastSome (Record.cached? stamp) (stamps.map g) = if stamp ∈ stamps then some b else none := by
  induction stamps with
  | nil => rfl
  | cons s rest ih =>
    rw [List.map_cons, lastSome_cons, ih, hg]
    by_cases hs : s = stamp
    · have hmem : stamp ∈ s :: rest := hs ▸ List.mem_cons_self
      rw [if_pos hs, if_pos hmem]
      split
      · rfl
      · rfl
    · have hmem : stamp ∈ s :: rest ↔ stamp ∈ rest := by simp [Ne.symm hs]
      rw [if_neg hs, Option.or_none]
      simp only [hmem]

/-- Where nothing is filed, what is lost is all that changes. -/
theorem contains_eq_of_lost {c c' : Cache} {stamp : Stamp}
    (h : c'.entries.contains stamp = true → c.entries.contains stamp = true) :
    c'.entries.contains stamp =
      (lastSome (Record.cached? stamp) ((lostStamps c c').map .gone)).getD
        (c.entries.contains stamp) := by
  rw [lastSome_map_cached? fun _ => rfl]
  simp only [mem_lostStamps]
  generalize c.entries.contains stamp = held at h ⊢
  generalize c'.entries.contains stamp = holds at h ⊢
  cases held with
  | true => cases holds <;> rfl
  | false =>
    cases holds with
    | true => cases h rfl
    | false => rfl

namespace Pipeline

variable {config : Config} {p : Pipeline} {cache : Cache}

/-- What the driver takes note of besides is not about entries. -/
theorem cached?_eq_none {move : Move} {s : Step} {x : Record} (stamp : Stamp)
    (hx : x ∈ (p.meeting? cache move).toList ∨ x ∈ p.stopRecords s.pipeline ∨
      x ∈ p.launchRecords s.pipeline) : x.cached? stamp = none := by
  rcases hx with hx | hx | hx
  · obtain ⟨peer, met, rfl⟩ := of_meeting? (Option.mem_toList.mp hx)
    rfl
  · obtain rfl := of_mem_stopRecords hx
    rfl
  · obtain ⟨g, rfl⟩ := of_mem_launchRecords hx
    rfl

/-- The last word of a move on a stamp: it was filed, or lost, or nothing became of it. -/
theorem lastSome_records (p : Pipeline) (cache : Cache) (move : Move) (s : Step) (stamp : Stamp) :
    lastSome (Record.cached? stamp) (p.records cache move s) =
      ((p.tells? move).bind fun t => Record.cached? stamp (.told t.1 t.2)).or
        (lastSome (Record.cached? stamp) ((lostStamps cache s.cache).map .gone)) := by
  have hnone : ∀ x, x ∈ (p.meeting? cache move).toList ∨ x ∈ p.stopRecords s.pipeline ∨
      x ∈ p.launchRecords s.pipeline → x.cached? stamp = none := fun x => cached?_eq_none stamp
  have hmeeting := lastSome_eq_none_iff.mpr fun x hx => hnone x (.inl hx)
  have hstops := lastSome_eq_none_iff.mpr fun x hx => hnone x (.inr (.inl hx))
  have hlaunches := lastSome_eq_none_iff.mpr fun x hx => hnone x (.inr (.inr hx))
  have hendings : lastSome (Record.cached? stamp) (p.endings move) =
      (p.tells? move).bind fun t => Record.cached? stamp (.told t.1 t.2) := by
    have hcancelled : lastSome (Record.cached? stamp)
        (if p.cancels move then [Record.cancelled] else []) = none := by
      split
      · rfl
      · rfl
    rw [endings, lastSome_append, hcancelled]
    cases p.tells? move with
    | none => rfl
    | some t => exact lastSome_cons _ (Record.told t.1 t.2) []
  rw [records, lastSome_append, lastSome_append, lastSome_append, lastSome_append, hlaunches,
    hstops, hendings, hmeeting]
  simp

/-- Whether a stamp is cached after a move is told by the last record of it, or is as it was. -/
theorem contains_move (hp : p.Coherent) (config : Config) (now : Timestamp) (cache : Cache)
    (move : Move) (stamp : Stamp) :
    let s := p.move config now cache move
    s.cache.entries.contains stamp =
      (lastSome (Record.cached? stamp) (p.records cache move s)).getD
        (cache.entries.contains stamp) := by
  intro s
  rw [lastSome_records]
  rcases htells : p.tells? move with _ | ⟨pending, outcome⟩
  · refine contains_eq_of_lost fun hheld => ?_
    rcases leaves_move_of_silent hp htells config now cache with hs | ⟨seen, peer, -, hs⟩
    · rwa [show s.cache = cache from hs.cache] at hheld
    · rw [show s.cache = _ from hs.cache] at hheld
      exact contains_of_haveSeen hheld
  · have hs : s.cache = cacheTold cache now pending outcome :=
      (leaves_move_of_tells htells config now cache).cache
    cases outcome with
    | ok readings =>
      rw [Option.bind_some, Record.cached?]
      by_cases hstamp : pending.stamp = stamp
      · rw [if_pos hstamp, hs, ← hstamp]
        exact contains_fetched ..
      · rw [if_neg hstamp]
        refine contains_eq_of_lost fun hheld => ?_
        rw [hs] at hheld
        exact contains_of_fetched hheld (Ne.symm hstamp)
    | error e =>
      refine contains_eq_of_lost fun hheld => ?_
      rwa [hs] at hheld

end Pipeline

/-! ## Launches under a known stamp -/

/-- Whether a stamp is on file is told by the last record about it, or from before. -/
theorem isOnFile_append (cache : Cache) (log more : List Record) (stamp : Stamp) :
    isOnFile cache (log ++ more) stamp =
      (lastSome (Record.cached? stamp) more).getD (isOnFile cache log stamp) := by
  rw [isOnFile, lastSome_append, Option.getD_or, isOnFile]

/-- A stamp goes off file only as its entry is gone. -/
theorem Record.cached?_eq_false_iff {stamp : Stamp} {x : Record} :
    x.cached? stamp = some false ↔ x = .gone stamp := by
  cases x with
  | told pending outcome => cases outcome <;> simp [cached?]
  | gone lost => simp [cached?]
  | met | launched | stopped | cancelled | planted => simp [cached?]

/-- What has an entry come under a stamp: a fetch under this stamp, or else it came from elsewhere. -/
theorem Record.of_cached?_eq_true {stamp : Stamp} {x : Record} (h : x.cached? stamp = some true) :
    x = .planted stamp ∨ ∃ other readings, x = .told other (.ok readings) ∧ other.stamp = stamp := by
  cases x with
  | told other outcome =>
    cases outcome with
    | ok readings => exact .inr ⟨other, readings, rfl, by simpa [cached?] using h⟩
    | error e => cases h
  | planted filed => exact .inl (by simpa [cached?] using h)
  | gone lost => simp [cached?] at h
  | met | launched | stopped | cancelled => cases h

namespace Pipeline

/-- What else goes on record of a move is no sighting. -/
theorem met?_eq_none {p : Pipeline} {cache : Cache} {move : Move} {s : Step} {x : Record}
    (hx : x ∈ (lostStamps cache s.cache).map .gone ++
      (p.endings move ++ (p.stopRecords s.pipeline ++ p.launchRecords s.pipeline)))
    (peer : RadioId) : x.met? peer = none := by
  simp only [List.mem_append] at hx
  rcases hx with hx | hx | hx | hx
  · obtain ⟨stamp, -, rfl⟩ := List.mem_map.mp hx
    rfl
  · obtain ⟨pending, outcome, rfl⟩ | rfl := of_mem_endings hx
    · rfl
    · rfl
  · obtain rfl := of_mem_stopRecords hx
    rfl
  · obtain ⟨g, rfl⟩ := of_mem_launchRecords hx
    rfl

/-- A sighting is turned away as known exactly if its stamp is cached. -/
theorem reception_eq_known_iff {p : Pipeline} {cache : Cache} {peer : RadioId} {stamp : Stamp}
    (h : p.reception cache peer stamp ≠ .ignored) :
    p.reception cache peer stamp = .known ↔ cache.entries.contains stamp = true := by
  rw [reception] at h ⊢
  split at h
  · exact absurd rfl h
  · rw [if_neg (by assumption)]
    split
    · simp [*]
    · split
      · simp [*]
      · simp [*]

end Pipeline

namespace Ledger

variable {config : Config}

/-- The cache changes as the ledger has it. -/
theorem contains_after {s : System} (h : s.pipeline.Coherent) (config : Config)
    (happening : Happening) (stamp : Stamp) :
    (s.after config happening).cache.entries.contains stamp =
      (lastSome (Record.cached? stamp) (entries config s happening)).getD
        (s.cache.entries.contains stamp) := by
  cases happening with
  | moves now move => exact Pipeline.contains_move h config now s.cache move stamp
  | caches cache =>
    rw [entries, lastSome_append, lastSome_map_cached? fun _ => rfl, lastSome_map_cached? fun _ => rfl]
    simp only [mem_lostStamps]
    change cache.entries.contains stamp = _
    cases cache.entries.contains stamp <;> cases s.cache.entries.contains stamp <;> rfl
  | turns link connected => rfl
  | loses link => rfl

/-- What does not occur in the rest of a list is its head. -/
theorem head_of_split {α : Type} {x y : α} {rest a b : List α} (h : x :: rest = a ++ y :: b)
    (hy : y ∉ rest) : a = [] ∧ y = x := by
  cases a with
  | nil => exact ⟨rfl, (List.cons.inj h).1.symm⟩
  | cons z a =>
    refine absurd ?_ hy
    rw [(List.cons.inj h).2]
    exact List.mem_append_right _ List.mem_cons_self

/-- A sighting goes on record before all else. -/
theorem of_entries {s : System} {happening : Happening} {a b : List Record} {peer : RadioId}
    {stamp : Stamp} {reception : Reception}
    (h : entries config s happening = a ++ .met peer stamp reception :: b) :
    a = [] ∧ reception = s.pipeline.reception s.cache peer stamp := by
  have hmet : (Record.met peer stamp reception).met? peer ≠ none := by
    rw [Record.met?, if_pos rfl]
    exact Option.some_ne_none _
  have hmem : .met peer stamp reception ∈ entries config s happening := by
    rw [h]
    exact List.mem_append_right _ List.mem_cons_self
  cases happening with
  | moves now move =>
    rw [entries, Pipeline.records, List.append_assoc, List.append_assoc, List.append_assoc] at h hmem
    rcases hmeeting : s.pipeline.meeting? s.cache move with _ | x
    · rw [hmeeting] at hmem
      exact absurd (Pipeline.met?_eq_none hmem peer) hmet
    rw [hmeeting] at h
    -- a sighting is the first to go on record, as nothing else comes of it that is one
    obtain ⟨rfl, rfl⟩ := head_of_split h fun hrest => hmet (Pipeline.met?_eq_none hrest peer)
    obtain ⟨_, _, heq⟩ := Pipeline.of_meeting? hmeeting
    cases heq
    exact ⟨rfl, rfl⟩
  | caches cache =>
    rcases List.mem_append.mp hmem with hmem | hmem
    · obtain ⟨_, -, heq⟩ := List.mem_map.mp hmem
      cases heq
    · obtain ⟨_, -, heq⟩ := List.mem_map.mp hmem
      cases heq
  | turns link connected => cases hmem
  | loses link => cases hmem

/-- What the ledger says of the cache is so, and sightings were received accordingly. -/
structure IsInformed (cache : Cache) (l : Ledger) : Prop where
  cached : ∀ stamp, l.system.cache.entries.contains stamp = isOnFile cache l.log stamp
  received : ∀ before peer stamp reception since,
    l.log = before ++ .met peer stamp reception :: since → reception ≠ .ignored →
      (reception = .known ↔ isOnFile cache before stamp = true)

theorem isInformed_initial (cache : Cache) : (initial cache).IsInformed cache where
  cached _ := rfl
  received before peer stamp reception since hlog := by simp [initial] at hlog

/-- What is known from the records stays right, whatever happens. -/
theorem IsInformed.after {cache : Cache} {l : Ledger} (h : l.IsInformed cache)
    (hp : l.pipeline.Coherent) (config : Config) (happening : Happening) :
    (l.after config happening).IsInformed cache where
  cached stamp := by
    rw [Ledger.after, isOnFile_append, ← h.cached]
    exact contains_after hp config happening stamp
  received before peer stamp reception since hlog hignored := by
    rcases List.append_eq_append_iff.mp hlog with ⟨a, rfl, hentries⟩ | ⟨b, hold, hentries⟩
    · obtain ⟨rfl, rfl⟩ := of_entries hentries
      rw [List.append_nil, ← h.cached]
      exact Pipeline.reception_eq_known_iff hignored
    · rcases b with _ | ⟨x, b⟩
      · obtain ⟨-, rfl⟩ := of_entries (a := []) hentries.symm
        rw [List.append_nil] at hold
        rw [← hold, ← h.cached]
        exact Pipeline.reception_eq_known_iff hignored
      · obtain ⟨rfl, -⟩ := List.cons.inj hentries
        exact h.received before peer stamp reception b hold hignored

theorem isInformed_run (config : Config) (cache : Cache) {happenings : List Happening}
    (hgenuine : ∀ x ∈ happenings, x.IsGenuine) :
    ((initial cache).run config happenings).IsInformed cache := by
  have hrun : ∀ (l : Ledger), l.IsOrderly config → l.IsInformed cache →
      (l.run config happenings).IsInformed cache := by
    intro l hl h
    induction happenings generalizing l with
    | nil => exact h
    | cons x rest ih =>
      obtain ⟨hx, hrest⟩ := List.forall_mem_cons.mp hgenuine
      exact ih hrest (l.after config x) (hl.after hx) (h.after hl.system.coherent config x)
  exact hrun (initial cache) (isOrderly_initial cache) (isInformed_initial cache)

/-- Those who are launched were waiting. -/
theorem IsOrderly.stands_of_launched {l : Ledger} (h : l.IsOrderly config) {earlier : List Record}
    {id : FetchId} {pending : Pending} (hlog : l.log = earlier ++ [.launched id pending]) :
    Roster.Stands earlier pending := by
  have hfollows := h.follows
  rw [hlog] at hfollows
  obtain ⟨r, hearlier, hlaunch⟩ := hfollows.split
  exact hearlier.stands rfl List.nodup_nil pending hlaunch.takes.mem_line

/-- **A fetch starts under a stamp that is cached exactly if an entry came under this stamp since its
peer was met last**, and did not go: as a rule, fetched from another peer that announced the same
stamp. When the peer was met, the stamp was not cached. -/
theorem launched_known_iff (config : Config) (cache : Cache) {happenings : List Happening}
    (hgenuine : ∀ x ∈ happenings, x.IsGenuine) :
    let l := (initial cache).run config happenings
    ∀ earlier id pending, l.log = earlier ++ [.launched id pending] →
      ∃ before reception since,
        earlier = before ++ .met pending.peer pending.stamp reception :: since ∧
        (reception = .merged ∨ reception = .queued) ∧
        (∀ x ∈ since, x.bearsOn pending.peer = false) ∧
        isOnFile cache before pending.stamp = false ∧
        (l.system.cache.entries.contains pending.stamp = true ↔
          ∃ a x b, since = a ++ x :: b ∧ .gone pending.stamp ∉ b ∧
            (x = .planted pending.stamp ∨ ∃ other readings, x = .told other (.ok readings) ∧
              other.stamp = pending.stamp ∧ other.peer ≠ pending.peer)) := by
  intro l earlier id pending hlog
  have h : l.IsOrderly config := (isOrderly_initial cache).run hgenuine
  have hinformed : l.IsInformed cache := isInformed_run config cache hgenuine
  obtain ⟨before, reception, since, hearlier, hreception, hsince⟩ := h.stands_of_launched hlog
  -- when the peer was met, the driver asked the cache for the stamp
  have hunknown : isOnFile cache before pending.stamp = false := by
    rw [hearlier, List.append_assoc] at hlog
    have hreceived := hinformed.received before _ _ _ _ hlog
    rw [← Bool.not_eq_true]
    rcases hreception with rfl | rfl
    · exact mt (hreceived (by decide)).mpr (by decide)
    · exact mt (hreceived (by decide)).mpr (by decide)
  refine ⟨before, reception, since, hearlier, hreception, hsince, hunknown, ?_⟩
  -- so only what is on record since then bears on it
  have hheld : l.system.cache.entries.contains pending.stamp =
      (lastSome (Record.cached? pending.stamp) since).getD false := by
    have hmet : Record.cached? pending.stamp (.met pending.peer pending.stamp reception) = none := rfl
    have hlaunched : lastSome (Record.cached? pending.stamp) [.launched id pending] = none := rfl
    rw [hinformed.cached, hlog, isOnFile_append, hlaunched, hearlier, Option.getD_none,
      isOnFile_append, lastSome_cons, hmet, Option.or_none, hunknown]
  rw [hheld, Option.getD_eq_iff, lastSome_eq_true_iff]
  constructor
  · rintro (⟨a, x, b, rfl, hx, hb⟩ | ⟨-, hfalse⟩)
    · refine ⟨a, x, b, rfl, ?_, ?_⟩
      · exact fun hgone => hb _ hgone (Record.cached?_eq_false_iff.mpr rfl)
      · rcases Record.of_cached?_eq_true hx with hplanted | ⟨other, readings, rfl, hstamp⟩
        · exact .inl hplanted
        · have hother := hsince (.told other (.ok readings)) (by simp)
          exact .inr ⟨other, readings, rfl, hstamp, by simpa [Record.bearsOn] using hother⟩
    · cases hfalse
  · rintro ⟨a, x, b, rfl, hgone, hx⟩
    refine .inl ⟨a, x, b, rfl, ?_, ?_⟩
    · rcases hx with rfl | ⟨other, readings, rfl, hstamp, -⟩
      · exact if_pos rfl
      · exact if_pos hstamp
    · exact fun y hy hfalse => hgone (Record.cached?_eq_false_iff.mp hfalse ▸ hy)

/-- Two peers announce the same stamp, and both are met before the first is fetched from. -/
def coincidence : List Happening :=
  [.caches { Cache.new .default with subscriptions := [⟨"", ⟨"list"⟩⟩] },
    .moves ⟨0⟩ (.send (.sync 0)), .moves ⟨1⟩ .takeCommand,
    .moves ⟨2⟩ (.scanAnswered (.error (.scan "busy"))),
    .moves ⟨3⟩ (.hear ⟨⟨"aa"⟩, Stamp.payload ⟨8⟩⟩), .moves ⟨3⟩ (.hear ⟨⟨"bb"⟩, Stamp.payload ⟨8⟩⟩),
    .moves ⟨4⟩ .takeSighting, .moves ⟨4⟩ .takeSighting, .moves ⟨5⟩ (.fetchBegins 0),
    .moves ⟨6⟩ (.fetchAnswered 0 (.done (.ok ()))),
    .moves ⟨7⟩ (.fetchAnswered 0 (.services (.ok []))), .moves ⟨8⟩ .takeCommand,
    .moves ⟨8⟩ .takeCommand, .moves ⟨8⟩ .takeCommand, .moves ⟨9⟩ (.closed (.answered (.ok ())))]

theorem log_coincidence :
    let l := (initial (.new .default)).run .default coincidence
    l.log = l.log.dropLast ++ [.launched 1 ⟨⟨"bb"⟩, ⟨8⟩⟩] := by
  intro l
  have hlast : l.log.getLast? = some (.launched 1 ⟨⟨"bb"⟩, ⟨8⟩⟩) := by decide +kernel
  exact (List.dropLast_append_getLast? _ hlast).symm

theorem launched_coincidence :
    let l := (initial (.new .default)).run .default coincidence
    l.system.cache.entries.contains ⟨8⟩ = true ∧
      ∃ other readings, .told other (.ok readings) ∈ l.log ∧ other.stamp = ⟨8⟩ ∧
        other.peer ≠ ⟨"bb"⟩ := by
  intro l
  have hgenuine : ∀ x ∈ coincidence, x.IsGenuine := by
    simp [coincidence, Happening.IsGenuine, Move.IsGenuine]
  have hheld : l.system.cache.entries.contains ⟨8⟩ = true := by decide +kernel
  obtain ⟨before, reception, since, hearlier, -, -, -, hiff⟩ :=
    launched_known_iff .default (.new .default) hgenuine l.log.dropLast 1 _ log_coincidence
  obtain ⟨a, x, b, rfl, -, hx⟩ := hiff.mp hheld
  have hmem : x ∈ l.log := by
    refine (List.dropLast_sublist l.log).subset ?_
    rw [show l.log.dropLast = _ from hearlier]
    simp
  refine ⟨hheld, ?_⟩
  rcases hx with rfl | ⟨other, readings, rfl, hother⟩
  · exact absurd hmem (by decide +kernel)
  · exact ⟨other, readings, hmem, hother⟩

/-- **The driver may connect to a peer under a stamp that is cached**: it asks the cache when it meets
the peer, and not again when its turn comes. -/
theorem not_always_unknown :
    ¬∀ (config : Config) (cache : Cache) (happenings : List Happening),
      (∀ x ∈ happenings, x.IsGenuine) →
      let l := (initial cache).run config happenings
      ∀ earlier id pending, l.log = earlier ++ [.launched id pending] →
        l.system.cache.entries.contains pending.stamp = false := by
  intro hall
  have hgenuine : ∀ x ∈ coincidence, x.IsGenuine := by
    simp [coincidence, Happening.IsGenuine, Move.IsGenuine]
  have hunknown := hall .default (.new .default) coincidence hgenuine _ 1 _ log_coincidence
  revert hunknown
  decide +kernel

end Ledger

end Nearby.Scan
