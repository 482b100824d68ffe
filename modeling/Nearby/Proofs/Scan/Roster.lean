import Mathlib.Data.List.DropRight
import Nearby.Proofs.Scan.Consistent

/-!
# Who waits to be fetched from

Of a pipeline, a `Roster` keeps the line of peers that wait, the fetch whose outcome is still to be
told, and the counters. A `Record` is what happens to it: a sighting is handled, the first in line is
launched, an outcome is told, a stop sends everybody away. `Roster.Takes` says what each of these
requires and what it changes, and `Roster.Follows` is a whole course of them.

What a course leads to can be read off its records alone. The counters count them
(`Follows.tallies`); peers are launched in the order in which they joined the line
(`Follows.joined_eq`); nobody is on the roster twice (`Follows.nodup_peers`); and who waits does so
under the stamp of the last sighting that was not turned away (`Follows.stands`).
-/

namespace Nearby.Scan

/-- What becomes of a sighting with a well-formed stamp. -/
inductive Reception
  /-- The pipeline is inactive, and the sighting comes to nothing. -/
  | ignored
  /-- The stamp is cached. -/
  | known
  /-- The peer is to be fetched from anyway. -/
  | merged
  /-- The peer joins the line. -/
  | queued
  deriving DecidableEq, Repr

/-- What goes on record. -/
inductive Record
  /-- A sighting with a well-formed stamp was handled. -/
  | met (peer : RadioId) (stamp : Stamp) (reception : Reception)
  | launched (fetch : FetchId) (pending : Pending)
  /-- The cache was told what a fetch came to. -/
  | told (pending : Pending) (outcome : Outcome)
  /-- The pipeline stopped, and these were still waiting. -/
  | stopped (dropped : List Pending)
  /-- The fetch that was in flight at a stop is cancelled, its link closed. -/
  | cancelled
  /-- The entry under a stamp left the cache. -/
  | gone (stamp : Stamp)
  /-- An entry came into the cache, and not by a fetch. -/
  | planted (stamp : Stamp)
  deriving DecidableEq

namespace Record

/-- True for a sighting that was counted. -/
def isHeard : Record → Bool
  | .met _ _ reception => reception != .ignored
  | _ => false

/-- True for a sighting that was received in a given way. -/
def isMet (reception : Reception) : Record → Bool
  | .met _ _ other => other == reception
  | _ => false

/-- The fetch that was launched. -/
def launch? : Record → Option FetchId
  | .launched id _ => some id
  | _ => none

/-- The peer that joined the line. -/
def joins? : Record → Option RadioId
  | .met peer _ .queued => some peer
  | _ => none

/-- The peer whose turn it was. -/
def turn? : Record → Option RadioId
  | .launched _ pending => some pending.peer
  | _ => none

def isStop : Record → Bool
  | .stopped _ => true
  | _ => false

/-- Those who were sent away by a stop. -/
def dropped : Record → List Pending
  | .stopped dropped => dropped
  | _ => []

/-- True for what changes how a peer stands: a sighting of it that is not turned away as known, and
what becomes of a fetch from it. -/
def bearsOn (peer : RadioId) : Record → Bool
  | .met other _ reception => other = peer && reception != .known
  | .launched _ pending => pending.peer = peer
  | .told pending _ => pending.peer = peer
  | _ => false

end Record

/-- The counters after a sighting. -/
def Counters.met (c : Counters) : Reception → Counters
  | .ignored => c
  | .known => { c with sightings := c.sightings + 1, sightingsKnown := c.sightingsKnown + 1 }
  | .merged => { c with sightings := c.sightings + 1, sightingsDeduped := c.sightingsDeduped + 1 }
  | .queued => { c with sightings := c.sightings + 1 }

/-- The counters once an outcome was taken note of. -/
def Counters.settled (c : Counters) : Outcome → Counters
  | .ok _ => { c with fetchesSucceeded := c.fetchesSucceeded + 1 }
  | .error e => { c with
      fetchesFailed := c.fetchesFailed + 1
      fetchesTimedOut := c.fetchesTimedOut + (Pipeline.timedOut (.error e)).toNat }

/-- The number of fetches that are over. -/
def Counters.ended (c : Counters) : Nat :=
  c.fetchesSucceeded + c.fetchesFailed + c.fetchesCancelled

/-- Who waits and who is fetched from. -/
structure Roster where
  /-- Those who wait, the next one first. -/
  line : List Pending
  /-- The fetch whose outcome is still to be told. -/
  due : Option Pending
  /-- True from a stop until the fetch that was in flight counts as cancelled. -/
  cancelling : Bool
  counters : Counters
  nextFetch : FetchId
  epoch : Nat

namespace Roster

/-- The roster before anyone subscribes. -/
def initial : Roster := ⟨[], none, false, ⟨0, 0, 0, 0, 0, 0, 0, 0⟩, 0, 0⟩

/-- Everybody on the roster. -/
def peers (r : Roster) : List RadioId := (r.due.toList ++ r.line).map (·.peer)

/-- The number of fetches that were started and are not over. -/
def unsettled (r : Roster) : Nat := r.due.toList.length + r.cancelling.toNat

/-- What may happen to a roster, and what comes of it. -/
inductive Takes (r : Roster) : Record → Roster → Prop
  | ignored (peer : RadioId) (stamp : Stamp) (line : r.line = []) :
    Takes r (.met peer stamp .ignored) r
  | known (peer : RadioId) (stamp : Stamp) :
    Takes r (.met peer stamp .known) { r with counters := r.counters.met .known }
  /-- A peer in the line takes the new stamp; one that is fetched from keeps the old. -/
  | merged (peer : RadioId) (stamp : Stamp) (mem : peer ∈ r.peers) :
    Takes r (.met peer stamp .merged)
      { r with line := Pipeline.restamp peer stamp r.line, counters := r.counters.met .merged }
  | queued (peer : RadioId) (stamp : Stamp) (notMem : peer ∉ r.peers) :
    Takes r (.met peer stamp .queued)
      { r with line := r.line ++ [⟨peer, stamp⟩], counters := r.counters.met .queued }
  | launched (pending : Pending) (rest : List Pending) (line : r.line = pending :: rest)
    (due : r.due = none) (free : r.cancelling = false) :
    Takes r (.launched r.nextFetch pending) { r with
      line := rest
      due := some pending
      counters.fetchesStarted := r.counters.fetchesStarted + 1
      nextFetch := r.nextFetch + 1 }
  | told (pending : Pending) (outcome : Outcome) (due : r.due = some pending) :
    Takes r (.told pending outcome)
      { r with due := none, counters := r.counters.settled outcome }
  | stopped (free : r.cancelling = false) :
    Takes r (.stopped r.line)
      { r with line := [], due := none, cancelling := r.due.isSome, epoch := r.epoch + 1 }
  | cancelled (busy : r.cancelling = true) :
    Takes r .cancelled
      { r with cancelling := false, counters.fetchesCancelled := r.counters.fetchesCancelled + 1 }
  | gone (stamp : Stamp) : Takes r (.gone stamp) r
  | planted (stamp : Stamp) : Takes r (.planted stamp) r

/-- A course of records. -/
inductive Follows (r : Roster) : List Record → Roster → Prop
  | nil : Follows r [] r
  | concat {log : List Record} {s t : Roster} {x : Record} (h : Follows r log s) (hx : s.Takes x t) :
    Follows r (log ++ [x]) t

variable {r s t : Roster} {log more : List Record}

theorem Takes.follows {x : Record} (h : r.Takes x s) : r.Follows [x] s := .concat .nil h

theorem Follows.trans (h : r.Follows log s) (k : s.Follows more t) : r.Follows (log ++ more) t := by
  induction k with
  | nil => rwa [List.append_nil]
  | concat k hx ih =>
    rw [← List.append_assoc]
    exact .concat ih hx

/-- A launch takes a new number. -/
theorem Takes.of_launched {id : FetchId} {pending : Pending} (h : r.Takes (.launched id pending) s) :
    s.nextFetch = r.nextFetch + 1 ∧ s.epoch = r.epoch := by
  cases h with
  | launched pending rest line due free => exact ⟨rfl, rfl⟩

/-- Who is launched was first in line. -/
theorem Takes.line_of_launched {id : FetchId} {pending : Pending}
    (h : r.Takes (.launched id pending) s) : r.line = pending :: s.line := by
  cases h with
  | launched pending rest line due free => exact line

theorem Takes.mem_line {id : FetchId} {pending : Pending} (h : r.Takes (.launched id pending) s) :
    pending ∈ r.line := by
  rw [h.line_of_launched]
  exact List.mem_cons_self

/-- Who joins the line is the last in it. -/
theorem Takes.of_queued {peer : RadioId} {stamp : Stamp}
    (h : r.Takes (.met peer stamp .queued) s) : s.line = r.line ++ [⟨peer, stamp⟩] := by
  cases h with
  | queued peer stamp notMem => rfl

/-- A sighting has no fetch begin or end. -/
theorem Takes.of_met {peer : RadioId} {stamp : Stamp} {reception : Reception}
    (h : r.Takes (.met peer stamp reception) s) :
    s.nextFetch = r.nextFetch ∧ s.epoch = r.epoch := by
  cases h with
  | ignored | known | merged | queued => exact ⟨rfl, rfl⟩

/-- A course may be looked at from any point of it on. -/
theorem Follows.split (h : r.Follows (log ++ more) t) :
    ∃ s, r.Follows log s ∧ s.Follows more t := by
  generalize hall : log ++ more = all at h
  induction h generalizing more with
  | nil =>
    obtain ⟨rfl, rfl⟩ := List.append_eq_nil_iff.mp hall
    exact ⟨r, .nil, .nil⟩
  | concat h hx ih =>
    rcases List.eq_nil_or_concat more with rfl | ⟨most, y, rfl⟩
    · rw [List.append_nil] at hall
      subst hall
      exact ⟨_, .concat h hx, .nil⟩
    · rw [List.concat_eq_append, ← List.append_assoc] at hall
      obtain ⟨rfl, hy⟩ := List.append_inj' hall rfl
      obtain rfl : y = _ := (List.cons.inj hy).1
      obtain ⟨s, hs, hmost⟩ := ih rfl
      rw [List.concat_eq_append]
      exact ⟨s, hs, .concat hmost hx⟩

/-- Without records nothing changes. -/
theorem Follows.eq_of_nil (h : r.Follows [] s) : s = r := by
  generalize hnone : [] = log at h
  cases h with
  | nil => rfl
  | concat h hx => simp at hnone

theorem Follows.takes {x : Record} (h : r.Follows [x] s) : r.Takes x s := by
  generalize hone : [x] = log at h
  cases h with
  | nil => cases hone
  | @concat log t _ y h hy =>
    have hone : [] ++ [x] = log ++ [y] := hone
    obtain ⟨rfl, heq⟩ := List.append_inj' hone rfl
    cases heq
    rwa [h.eq_of_nil] at hy

/-- A new stamp makes the line neither longer nor shorter. -/
theorem length_restamp (peer : RadioId) (stamp : Stamp) (line : List Pending) :
    (Pipeline.restamp peer stamp line).length = line.length := by
  rw [← List.length_map (·.peer), Pipeline.map_peer_restamp, List.length_map]

/-- It makes no difference to a line without the peer. -/
theorem restamp_of_notMem {peer : RadioId} {line : List Pending} (h : peer ∉ line.map (·.peer))
    (stamp : Stamp) : Pipeline.restamp peer stamp line = line := by
  induction line with
  | nil => rfl
  | cons first rest ih =>
    have hfirst : first.peer ≠ peer := fun heq => h (heq ▸ List.mem_cons_self)
    rw [Pipeline.restamp, if_neg hfirst, ih fun hmem => h (List.mem_cons_of_mem _ hmem)]

/-! ## Counters -/

/-- What a record adds to the counters, and to the line. -/
structure Adds (r : Roster) (x : Record) (s : Roster) : Prop where
  sightings : s.counters.sightings = r.counters.sightings + x.isHeard.toNat
  known : s.counters.sightingsKnown = r.counters.sightingsKnown + (x.isMet .known).toNat
  deduped : s.counters.sightingsDeduped = r.counters.sightingsDeduped + (x.isMet .merged).toNat
  started : s.counters.fetchesStarted = r.counters.fetchesStarted + x.launch?.toList.length
  nextFetch : s.nextFetch = r.nextFetch + x.launch?.toList.length
  /-- Fetches are numbered as they are launched. -/
  launch : x.launch? = none ∨ x.launch? = some r.nextFetch
  /-- Who joins the line waits, is launched or is sent away. -/
  waiting : r.line.length + (x.isMet .queued).toNat =
    s.line.length + x.launch?.toList.length + x.dropped.length
  /-- A fetch that was started is over, due, or about to be cancelled. -/
  fetches : s.counters.fetchesStarted + (r.counters.ended + r.unsettled) =
    r.counters.fetchesStarted + (s.counters.ended + s.unsettled)
  late : s.counters.fetchesTimedOut + r.counters.fetchesFailed ≤
    r.counters.fetchesTimedOut + s.counters.fetchesFailed

/-- A record that is neither a sighting nor about a fetch adds nothing. -/
theorem adds_of_aside {x : Record} (hheard : x.isHeard = false)
    (hmet : ∀ reception, x.isMet reception = false) (hlaunch : x.launch? = none)
    (hdropped : x.dropped = []) : r.Adds x r := by
  constructor <;> simp [hheard, hmet, hlaunch, hdropped]

/-- An outcome adds to the fetches that are over, and to those that took too long if it did. -/
theorem adds_settled {pending : Pending} (h : r.due = some pending) (outcome : Outcome) :
    r.Adds (.told pending outcome)
      { r with due := none, counters := r.counters.settled outcome } := by
  have hlate := (Pipeline.timedOut outcome).toNat_le
  cases outcome with
  | ok readings =>
    refine ⟨rfl, rfl, rfl, rfl, rfl, .inl rfl, rfl, ?_, Nat.le_refl _⟩
    simp [unsettled, Counters.ended, Counters.settled, h]
    omega
  | error e =>
    refine ⟨rfl, rfl, rfl, rfl, rfl, .inl rfl, rfl, ?_, ?_⟩
    · simp [unsettled, Counters.ended, Counters.settled, h]
      omega
    · simp only [Counters.settled]
      omega

/-- **Every record counts.** -/
theorem Takes.adds {x : Record} (hx : r.Takes x s) : r.Adds x s := by
  cases hx with
  | ignored peer stamp line => exact ⟨rfl, rfl, rfl, rfl, rfl, .inl rfl, rfl, rfl, Nat.le_refl _⟩
  | known peer stamp => exact ⟨rfl, rfl, rfl, rfl, rfl, .inl rfl, rfl, rfl, Nat.le_refl _⟩
  | merged peer stamp mem =>
    exact ⟨rfl, rfl, rfl, rfl, rfl, .inl rfl, (length_restamp ..).symm, rfl, Nat.le_refl _⟩
  | queued peer stamp notMem =>
    have hlength : r.line.length + 1 = (r.line ++ [(⟨peer, stamp⟩ : Pending)]).length := by
      rw [List.length_append]
      rfl
    exact ⟨rfl, rfl, rfl, rfl, rfl, .inl rfl, hlength, rfl, Nat.le_refl _⟩
  | launched pending rest line due free =>
    refine ⟨rfl, rfl, rfl, rfl, rfl, .inr rfl, congrArg List.length line, ?_, Nat.le_refl _⟩
    simp [unsettled, Counters.ended, due, free]
    omega
  | told pending outcome due => exact adds_settled due outcome
  | stopped free =>
    refine ⟨rfl, rfl, rfl, rfl, rfl, .inl rfl, (Nat.zero_add _).symm, ?_, Nat.le_refl _⟩
    rcases hdue : r.due with _ | pending
    · simp [unsettled, hdue, free]
    · simp [unsettled, hdue, free]
  | cancelled busy =>
    refine ⟨rfl, rfl, rfl, rfl, rfl, .inl rfl, rfl, ?_, Nat.le_refl _⟩
    simp [unsettled, Counters.ended, busy]
    omega
  | gone stamp => exact adds_of_aside rfl (fun _ => rfl) rfl rfl
  | planted stamp => exact adds_of_aside rfl (fun _ => rfl) rfl rfl

/-- The counters count what is on record. -/
structure Tallies (r : Roster) (log : List Record) : Prop where
  sightings : r.counters.sightings = log.countP Record.isHeard
  known : r.counters.sightingsKnown = log.countP (Record.isMet .known)
  deduped : r.counters.sightingsDeduped = log.countP (Record.isMet .merged)
  launches : log.filterMap Record.launch? = List.range r.counters.fetchesStarted
  nextFetch : r.nextFetch = r.counters.fetchesStarted
  /-- Of those who joined the line, some were launched, some sent away, and the others wait. -/
  waiting : log.countP (Record.isMet .queued) =
    r.counters.fetchesStarted + (log.flatMap Record.dropped).length + r.line.length
  /-- Of the fetches that were started, some are over, and one may be due or be cancelled. -/
  fetches : r.counters.fetchesStarted = r.counters.ended + r.unsettled
  late : r.counters.fetchesTimedOut ≤ r.counters.fetchesFailed

/-- A record counts at the end of a log. -/
theorem countP_concat (f : Record → Bool) (log : List Record) (x : Record) :
    (log ++ [x]).countP f = log.countP f + (f x).toNat := by
  rw [List.countP_append, List.countP_singleton]
  cases f x with
  | false => rfl
  | true => rfl

/-- The counters still count the records once one more was added. -/
theorem Tallies.concat (h : r.Tallies log) {x : Record} (hx : r.Adds x s) :
    s.Tallies (log ++ [x]) := by
  obtain ⟨sightings, known, deduped, started, nextFetch, launch, waiting, fetches, late⟩ := hx
  refine ⟨?_, ?_, ?_, ?_, ?_, ?_, ?_, ?_⟩
  · rw [sightings, h.sightings, countP_concat]
  · rw [known, h.known, countP_concat]
  · rw [deduped, h.deduped, countP_concat]
  · rw [List.filterMap_append, h.launches, started]
    rcases launch with hlaunch | hlaunch
    · simp [hlaunch]
    · simp [hlaunch, List.range_succ, h.nextFetch]
  · rw [nextFetch, h.nextFetch, started]
  · have hdropped : ((log ++ [x]).flatMap Record.dropped).length =
        (log.flatMap Record.dropped).length + x.dropped.length := by
      rw [List.flatMap_append, List.length_append, List.flatMap_singleton]
    rw [countP_concat, hdropped, h.waiting, started]
    omega
  · have := h.fetches
    omega
  · have := h.late
    omega

/-- A sighting that was counted is known, merged or queued. -/
theorem countP_isHeard (log : List Record) :
    log.countP Record.isHeard = log.countP (Record.isMet .known) +
      log.countP (Record.isMet .merged) + log.countP (Record.isMet .queued) := by
  induction log using List.reverseRecOn with
  | nil => rfl
  | append_singleton rest x ih =>
    have hx : x.isHeard.toNat = (x.isMet .known).toNat + (x.isMet .merged).toNat +
        (x.isMet .queued).toNat := by
      cases x with
      | met peer stamp reception => cases reception <;> rfl
      | launched | told | stopped | cancelled | gone | planted => rfl
    rw [countP_concat, countP_concat, countP_concat, countP_concat, ih, hx]
    omega

/-- **The counters count what happened.** -/
theorem Follows.tallies (h : initial.Follows log r) : r.Tallies log := by
  induction h with
  | nil => exact ⟨rfl, rfl, rfl, rfl, rfl, rfl, rfl, Nat.le_refl 0⟩
  | concat h hx ih => exact ih.concat hx.adds

/-! ## The line -/

/-- The records since the last stop. -/
def sinceStop (log : List Record) : List Record := log.rtakeWhile fun x => !x.isStop

/-- Those who joined the line since the last stop, in that order. -/
def joined (log : List Record) : List RadioId := (sinceStop log).filterMap Record.joins?

/-- Those whose turn it was since the last stop, in that order. -/
def served (log : List Record) : List RadioId := (sinceStop log).filterMap Record.turn?

/-- What has happened since the last stop grows with each record that is not a stop. -/
theorem filterMap_sinceStop_concat {α : Type} (f : Record → Option α) (log : List Record)
    {x : Record} (hx : x.isStop = false) :
    (sinceStop (log ++ [x])).filterMap f = (sinceStop log).filterMap f ++ (f x).toList := by
  rw [sinceStop, List.rtakeWhile_concat_pos _ _ _ (by simp [hx]), List.filterMap_append, sinceStop]
  rcases hfx : f x with _ | a
  · simp [hfx]
  · simp [hfx]

/-- What a record does to the line, stops apart. -/
theorem Takes.line_eq {x : Record} (hx : r.Takes x s) (hstop : x.isStop = false) :
    x.turn?.toList ++ s.line.map (·.peer) = r.line.map (·.peer) ++ x.joins?.toList := by
  cases hx with
  | merged peer stamp mem =>
    rw [Pipeline.map_peer_restamp]
    exact (List.append_nil _).symm
  | queued peer stamp notMem => exact List.map_append
  | launched pending rest line due free =>
    rw [line]
    exact (List.append_nil _).symm
  | stopped free => cases hstop
  | ignored | known | told | cancelled | gone | planted => exact (List.append_nil _).symm

/-- **First come, first served**: since the last stop, those who joined the line are those whose turn
it was, followed by those who wait. -/
theorem Follows.joined_eq (h : r.Follows log s) (hr : r.line = []) :
    joined log = served log ++ s.line.map (·.peer) := by
  induction h with
  | nil =>
    rw [hr]
    rfl
  | @concat log s t x h hx ih =>
    by_cases hstop : x.isStop = true
    · cases hx with
      | stopped free =>
        rw [joined, served, sinceStop, List.rtakeWhile_concat_neg _ _ _ (by simp [hstop])]
        rfl
      | ignored | known | merged | queued | launched | told | cancelled | gone | planted =>
        cases hstop
    · have hstop : x.isStop = false := by simpa using hstop
      calc joined (log ++ [x])
          = joined log ++ x.joins?.toList := filterMap_sinceStop_concat _ log hstop
        _ = served log ++ (s.line.map (·.peer) ++ x.joins?.toList) := by
          rw [ih, List.append_assoc]
        _ = served log ++ (x.turn?.toList ++ t.line.map (·.peer)) := by rw [hx.line_eq hstop]
        _ = served (log ++ [x]) ++ t.line.map (·.peer) := by
          rw [← List.append_assoc, served, served, filterMap_sinceStop_concat _ log hstop]

/-- A stop sends away those who wait. -/
theorem Takes.of_stopped {dropped : List Pending} (h : r.Takes (.stopped dropped) s) :
    dropped = r.line := by
  cases h with
  | stopped free => rfl

/-- Before each stop, those who joined the line are those whose turn it was, followed by those whom
the stop sent away. -/
theorem Follows.joined_eq_dropped {before since : List Record} {dropped : List Pending}
    (h : r.Follows (before ++ .stopped dropped :: since) s) (hr : r.line = []) :
    joined before = served before ++ dropped.map (·.peer) := by
  obtain ⟨t, hbefore, hafter⟩ := h.split
  have hafter : t.Follows ([.stopped dropped] ++ since) s := hafter
  obtain ⟨u, hstop, -⟩ := hafter.split
  rw [hstop.takes.of_stopped]
  exact hbefore.joined_eq hr

/-! ## Peers -/

/-- Nobody comes to be on the roster twice. -/
theorem Takes.nodup_peers {x : Record} (hx : r.Takes x s) (h : r.peers.Nodup) :
    s.peers.Nodup := by
  have hline : (r.line.map (·.peer)).Nodup := by
    rw [peers, List.map_append] at h
    exact h.of_append_right
  cases hx with
  | merged peer stamp mem =>
    rw [peers, List.map_append, Pipeline.map_peer_restamp, ← List.map_append]
    exact h
  | queued peer stamp notMem =>
    rw [peers, ← List.append_assoc, List.map_append, List.map_singleton, ← List.concat_eq_append]
    exact h.concat notMem
  | launched pending rest line due free =>
    rw [peers, due, line] at h
    exact h
  | told pending outcome due => exact hline
  | stopped free => exact List.nodup_nil
  | ignored | known | cancelled | gone | planted => exact h

/-- **Nobody is on the roster twice**, whatever happens. -/
theorem Follows.nodup_peers (h : r.Follows log s) (hr : r.peers.Nodup) : s.peers.Nodup := by
  induction h with
  | nil => exact hr
  | concat h hx ih => exact hx.nodup_peers ih

/-- Nobody comes to be on the roster but by joining the line. -/
theorem Takes.notMem_peers {x : Record} (hx : r.Takes x s) {peer : RadioId}
    (hjoins : x.joins? ≠ some peer) (h : peer ∉ r.peers) : peer ∉ s.peers := by
  cases hx with
  | merged other stamp mem =>
    rw [peers, List.map_append, Pipeline.map_peer_restamp, ← List.map_append]
    exact h
  | queued other stamp notMem =>
    have hother : peer ≠ other := fun heq => hjoins (congrArg some heq.symm)
    rw [peers, ← List.append_assoc, List.map_append, List.mem_append]
    rintro (hmem | hmem)
    · exact h hmem
    · exact hother (List.mem_singleton.mp hmem)
  | launched pending rest line due free =>
    rw [peers, due, line] at h
    exact h
  | told pending outcome due =>
    intro hmem
    rw [peers, List.map_append] at h
    exact h (List.mem_append_right _ hmem)
  | stopped free => exact List.not_mem_nil
  | ignored | known | cancelled | gone | planted => exact h

/-- Who is not on the roster and does not join the line is not on it later. -/
theorem Follows.notMem_peers (h : r.Follows log s) {peer : RadioId}
    (hjoins : ∀ x ∈ log, x.joins? ≠ some peer) (hr : peer ∉ r.peers) : peer ∉ s.peers := by
  induction h with
  | nil => exact hr
  | concat h hx ih =>
    obtain ⟨hlog, hlast⟩ := List.forall_mem_append.mp hjoins
    exact hx.notMem_peers (hlast _ (List.mem_singleton_self _)) (ih hlog)

/-! ## Stamps -/

/-- The peer was met under the stamp that it waits under, and not turned away as known, and nothing
that is on record since then bears on it. -/
def Stands (log : List Record) (pending : Pending) : Prop :=
  ∃ before reception since, log = before ++ .met pending.peer pending.stamp reception :: since ∧
    (reception = .merged ∨ reception = .queued) ∧ ∀ x ∈ since, x.bearsOn pending.peer = false

/-- What has no bearing on a peer leaves it as it stands. -/
theorem Stands.concat {pending : Pending} (h : Stands log pending) {x : Record}
    (hx : x.bearsOn pending.peer = false) : Stands (log ++ [x]) pending := by
  obtain ⟨before, reception, since, rfl, hreception, hsince⟩ := h
  refine ⟨before, reception, since ++ [x], List.append_assoc .., hreception, ?_⟩
  exact List.forall_mem_append.mpr ⟨hsince, List.forall_mem_singleton.mpr hx⟩

/-- A sighting that is queued or merged is the last that counts. -/
theorem stands_of_met (log : List Record) (pending : Pending) {reception : Reception}
    (h : reception = .merged ∨ reception = .queued) :
    Stands (log ++ [.met pending.peer pending.stamp reception]) pending :=
  ⟨log, reception, [], rfl, h, List.forall_mem_nil _⟩

/-- Who waits after a peer was restamped: the peer under its new stamp, and the others as before. -/
theorem mem_restamp {peer : RadioId} {stamp : Stamp} {line : List Pending}
    (h : (line.map (·.peer)).Nodup) {pending : Pending}
    (hmem : pending ∈ Pipeline.restamp peer stamp line) :
    pending = ⟨peer, stamp⟩ ∨ pending.peer ≠ peer ∧ pending ∈ line := by
  induction line with
  | nil => cases hmem
  | cons first rest ih =>
    obtain ⟨hfirst, hrest⟩ := List.nodup_cons.mp h
    rw [Pipeline.restamp] at hmem
    by_cases hpeer : first.peer = peer
    · rw [if_pos hpeer] at hmem
      rcases List.mem_cons.mp hmem with rfl | hmem
      · exact .inl (by rw [hpeer])
      · refine .inr ⟨fun heq => hfirst ?_, List.mem_cons_of_mem _ hmem⟩
        change first.peer ∈ _
        rw [hpeer, ← heq]
        exact List.mem_map_of_mem hmem
    · rw [if_neg hpeer] at hmem
      rcases List.mem_cons.mp hmem with rfl | hmem
      · exact .inr ⟨hpeer, List.mem_cons_self⟩
      · rcases ih hrest hmem with heq | ⟨hother, hold⟩
        · exact .inl heq
        · exact .inr ⟨hother, List.mem_cons_of_mem _ hold⟩

/-- Those who wait stand as they stood, or they were met just now. -/
theorem Takes.stands {x : Record} (hx : r.Takes x s) (hpeers : r.peers.Nodup)
    (h : ∀ pending ∈ r.line, Stands log pending) :
    ∀ pending ∈ s.line, Stands (log ++ [x]) pending := by
  rw [peers, List.map_append] at hpeers
  intro pending hmem
  cases hx with
  | ignored peer stamp line =>
    rw [line] at hmem
    cases hmem
  | known peer stamp => exact (h pending hmem).concat (by simp [Record.bearsOn])
  | merged peer stamp mem =>
    -- the peer that was met again is restamped, and all others are left alone
    rcases mem_restamp hpeers.of_append_right hmem with rfl | ⟨hother, hold⟩
    · exact stands_of_met log ⟨peer, stamp⟩ (.inl rfl)
    · exact (h pending hold).concat (by simp [Record.bearsOn, hother.symm])
  | queued peer stamp notMem =>
    rcases List.mem_append.mp hmem with hold | hnew
    · have hother : peer ≠ pending.peer := by
        rintro rfl
        exact notMem (List.mem_map_of_mem (List.mem_append_right _ hold))
      exact (h pending hold).concat (by simp [Record.bearsOn, hother])
    · obtain rfl := List.mem_singleton.mp hnew
      exact stands_of_met log ⟨peer, stamp⟩ (.inr rfl)
  | launched first rest line due free =>
    rw [line] at hpeers h
    -- the first in line is not also further back
    have hother : first.peer ≠ pending.peer := by
      intro heq
      refine (List.nodup_cons.mp hpeers.of_append_right).1 ?_
      change first.peer ∈ _
      rw [heq]
      exact List.mem_map_of_mem hmem
    exact (h pending (List.mem_cons_of_mem _ hmem)).concat (by simp [Record.bearsOn, hother])
  | told done outcome due =>
    rw [due] at hpeers
    -- who is fetched from does not wait
    have hother : done.peer ≠ pending.peer := by
      intro heq
      refine (List.nodup_cons.mp hpeers).1 ?_
      change done.peer ∈ _
      rw [heq]
      exact List.mem_map_of_mem hmem
    exact (h pending hmem).concat (by simp [Record.bearsOn, hother])
  | stopped free => cases hmem
  | cancelled | gone | planted => exact (h pending hmem).concat rfl

/-- **Who waits does so under the stamp of its last sighting that was not turned away as known.** -/
theorem Follows.stands (h : r.Follows log s) (hr : r.line = []) (hpeers : r.peers.Nodup) :
    ∀ pending ∈ s.line, Stands log pending := by
  induction h with
  | nil =>
    rw [hr]
    exact List.forall_mem_nil _
  | concat h hx ih => exact hx.stands (h.nodup_peers hpeers) ih

end Roster

end Nearby.Scan
