import Mathlib.Data.List.Nodup
import Nearby.Scan.Pipeline

/-!
# Accounts of fetches

In the course of a run fetches are launched, the cache is told what they came to, and now and then
everything is stopped. A log of these occurrences is an `Account` if it adds up: a fetch is launched
while no outcome is due, what the cache is told is the outcome of the fetch that is due, told for
the peer and the stamp it was launched for, and after a stop nothing is due any more.

It follows that the cache is told of a fetch at most once, and never after a stop.
-/

namespace Nearby.Scan

/-- What is noted of a run. -/
inductive Occurrence
  /-- The driver looked after subscribers. Were there any? -/
  | synced (subscribed : Bool)
  /-- The driver was told to stop for good. -/
  | shutDown
  | launched (fetch : FetchId) (pending : Pending)
  /-- The cache was told what the fetch from a peer came to, on the report of the given fetch. -/
  | told (sender : Option FetchId) (pending : Pending) (outcome : Outcome)

namespace Occurrence

/-- True for what has the pipeline stop. -/
def isStop : Occurrence → Bool
  | .synced subscribed => !subscribed
  | .shutDown => true
  | .launched .. => false
  | .told .. => false

/-- The fetch that was launched. -/
def launch? : Occurrence → Option FetchId
  | .launched id _ => some id
  | _ => none

/-- The fetch on whose report the cache was told something. -/
def sender? : Occurrence → Option FetchId
  | .told sender _ _ => sender
  | _ => none

/-- Whether subscribers were there when the driver last looked after them. -/
def subscribed (log : List Occurrence) : Bool :=
  log.foldl (fun before x => match x with
    | .synced now => now
    | _ => before) false

/-- Whether somebody is subscribed is a matter of the last note of it. -/
theorem subscribed_append {log l : List Occurrence} (h : ∀ x ∈ l, ∀ now, x ≠ .synced now) :
    subscribed (log ++ l) = subscribed log := by
  rw [subscribed, List.foldl_append]
  change l.foldl _ (subscribed log) = _
  generalize subscribed log = before
  induction l with
  | nil => rfl
  | cons x rest ih =>
    obtain ⟨hx, hrest⟩ := List.forall_mem_cons.mp h
    cases x with
    | synced now => exact absurd rfl (hx now)
    | shutDown | launched | told => exact ih hrest

/-- Nobody is subscribed between finding nobody and finding somebody. -/
theorem subscribed_eq_false {before since : List Occurrence} (h : .synced true ∉ since) :
    subscribed (before ++ .synced false :: since) = false := by
  rw [subscribed, List.foldl_append, List.foldl_cons]
  dsimp only
  induction since with
  | nil => rfl
  | cons x rest ih =>
    obtain ⟨hx, hrest⟩ := not_or.mp (List.mem_cons.not.mp h)
    cases x with
    | synced now =>
      cases now with
      | false => exact ih hrest
      | true => exact absurd rfl hx
    | shutDown | launched | told => exact ih hrest

end Occurrence

/-- A log that adds up, with the number of the next fetch and the fetch whose outcome is due. -/
inductive Account : List Occurrence → FetchId → Option InFlight → Prop
  | nil : Account [] 0 none
  /-- Subscribers do not concern a fetch that is under way. -/
  | subscribed {log : List Occurrence} {next : FetchId} {due : Option InFlight}
    (h : Account log next due) : Account (log ++ [.synced true]) next due
  /-- After a stop nothing is due. -/
  | stopped {log : List Occurrence} {next : FetchId} {due : Option InFlight} {x : Occurrence}
    (h : Account log next due) (stop : x.isStop = true) : Account (log ++ [x]) next none
  /-- A fetch is launched when nothing is due. -/
  | launched {log : List Occurrence} {next : FetchId} (h : Account log next none)
    (pending : Pending) : Account (log ++ [.launched next pending]) (next + 1) (some ⟨pending, next⟩)
  /-- What is due is told. -/
  | told {log : List Occurrence} {next : FetchId} {g : InFlight} (h : Account log next (some g))
    (outcome : Outcome) : Account (log ++ [.told (some g.fetch) g.pending outcome]) next none

namespace Account

variable {log : List Occurrence} {next : FetchId} {due : Option InFlight}

/-- Fetches are numbered as they are launched. -/
theorem launches (h : Account log next due) :
    log.filterMap Occurrence.launch? = List.range next := by
  induction h with
  | nil => rfl
  | subscribed h ih => rw [List.filterMap_append, ih]; exact List.append_nil _
  | stopped h stop ih =>
    rename_i x
    have hnone : x.launch? = none := by
      cases x with
      | launched id pending => cases stop
      | synced | shutDown | told => rfl
    rw [List.filterMap_append, ih, List.filterMap_cons_none hnone]
    exact List.append_nil _
  | launched h pending ih => rw [List.filterMap_append, ih, List.range_succ]; rfl
  | told h outcome ih => rw [List.filterMap_append, ih]; exact List.append_nil _

/-- What is due was launched, and not stopped since. -/
theorem launched_of_due {g : InFlight} (h : Account log next due) (hg : due = some g) :
    ∃ before since, log = before ++ .launched g.fetch g.pending :: since ∧
      ∀ x ∈ since, x.isStop = false := by
  induction h with
  | nil => cases hg
  | subscribed h ih =>
    obtain ⟨before, since, rfl, hsince⟩ := ih hg
    refine ⟨before, since ++ [.synced true], by simp, ?_⟩
    exact List.forall_mem_append.mpr ⟨hsince, List.forall_mem_singleton.mpr rfl⟩
  | stopped h stop ih => cases hg
  | launched h pending ih =>
    cases hg
    exact ⟨_, [], rfl, List.forall_mem_nil _⟩
  | told h outcome ih => cases hg

/-- What was told was told on the report of a fetch that was launched, and that is not due. -/
theorem senders (h : Account log next due) :
    (log.filterMap Occurrence.sender?).Nodup ∧
      (∀ id ∈ log.filterMap Occurrence.sender?, id < next) ∧
      ∀ g, due = some g → g.fetch < next ∧ g.fetch ∉ log.filterMap Occurrence.sender? := by
  induction h with
  | nil => exact ⟨List.nodup_nil, List.forall_mem_nil _, fun _ hg => by cases hg⟩
  | subscribed h ih =>
    rw [List.filterMap_append, List.filterMap_cons_none (by rfl), List.filterMap_nil,
      List.append_nil]
    exact ih
  | stopped h stop ih =>
    rename_i x
    have hnone : x.sender? = none := by
      cases x with
      | told sender pending outcome => cases stop
      | synced | shutDown | launched => rfl
    rw [List.filterMap_append, List.filterMap_cons_none hnone, List.filterMap_nil, List.append_nil]
    exact ⟨ih.1, ih.2.1, fun _ hg => by cases hg⟩
  | launched h pending ih =>
    rename_i log next
    rw [List.filterMap_append, List.filterMap_cons_none (by rfl), List.filterMap_nil,
      List.append_nil]
    refine ⟨ih.1, fun id hid => Nat.lt_succ_of_lt (ih.2.1 id hid), fun g hg => ?_⟩
    cases hg
    exact ⟨Nat.lt_succ_self next, fun hmem => Nat.lt_irrefl next (ih.2.1 next hmem)⟩
  | told h outcome ih =>
    rename_i log next g
    obtain ⟨hnodup, hpast, hdue⟩ := ih
    obtain ⟨hlt, hnew⟩ := hdue g rfl
    rw [List.filterMap_append]
    refine ⟨?_, ?_, fun _ hg => by cases hg⟩
    · refine List.nodup_append.mpr ⟨hnodup, List.nodup_singleton _, fun a ha b hb heq => ?_⟩
      obtain rfl := List.mem_singleton.mp hb
      exact hnew (heq ▸ ha)
    · exact List.forall_mem_append.mpr ⟨hpast, List.forall_mem_singleton.mpr hlt⟩

/-- What was noted last is the entry in question, or the log had the entry before. -/
theorem split_of_concat {α : Type} {log earlier later : List α} {x y : α}
    (h : log ++ [x] = earlier ++ y :: later) :
    log = earlier ∧ x = y ∨ ∃ later, log = earlier ++ y :: later := by
  rcases List.eq_nil_or_concat later with rfl | ⟨later, z, rfl⟩
  · obtain ⟨hlog, hx⟩ := List.append_inj' h rfl
    exact .inl ⟨hlog, (List.cons.inj hx).1⟩
  · have h : log ++ [x] = (earlier ++ y :: later) ++ [z] := by
      rw [h]
      simp
    exact .inr ⟨later, (List.append_inj' h rfl).1⟩

/-- **What the cache was told is the outcome of a fetch launched for this peer and this stamp**, and
no stop came in between. -/
theorem launched_of_told (h : Account log next due) {earlier later : List Occurrence}
    {sender : Option FetchId} {pending : Pending} {outcome : Outcome}
    (hlog : log = earlier ++ .told sender pending outcome :: later) :
    ∃ id before since, sender = some id ∧ earlier = before ++ .launched id pending :: since ∧
      ∀ x ∈ since, x.isStop = false := by
  induction h generalizing later with
  | nil => simp at hlog
  | subscribed h ih =>
    rcases split_of_concat hlog with ⟨-, hx⟩ | ⟨later, hlog⟩
    · cases hx
    · exact ih hlog
  | stopped h stop ih =>
    rcases split_of_concat hlog with ⟨-, rfl⟩ | ⟨later, hlog⟩
    · cases stop
    · exact ih hlog
  | launched h pending ih =>
    rcases split_of_concat hlog with ⟨-, hx⟩ | ⟨later, hlog⟩
    · cases hx
    · exact ih hlog
  | told h outcome ih =>
    rcases split_of_concat hlog with ⟨rfl, hx⟩ | ⟨later, hlog⟩
    · cases hx
      obtain ⟨before, since, hbefore, hsince⟩ := h.launched_of_due rfl
      exact ⟨_, before, since, rfl, hbefore, hsince⟩
    · exact ih hlog

end Account

end Nearby.Scan
