import Nearby.Proofs.Characteristics.Fields
import Nearby.Proofs.Latest
import Nearby.Proofs.Scan.Telling
import Nearby.Proofs.Scan.Visit

/-!
# The course of a fetch

A `Course` is all that others see of a fetch: its calls, what it reports and what it warns of.
`Turn.course` follows a fetch through the answers to its calls. It never has two calls under way, so
the answers that have come tell the calls that were made (`calls_course_take`).

Once the services of a peer are known, it is settled what will be read: the readable characteristics
of the services that are not reserved, in the order in which they are listed (`readsOf`). The first
read that loses the link is the last one, and the fetch comes to its error, of which the cache learns
nothing. If no read does, the fetch comes to the values that were read last, and a service counts only
if something was read of it (`Fetch.reads_until_loss`).
-/

namespace Nearby.Scan

open Characteristics (decode identifier?)

/-! ## Calls and answers -/

/-- What others see of a fetch. -/
structure Course where
  /-- The calls it makes, in order. -/
  calls : List Call
  reports : List Report
  warnings : List Warning

/-- A course that goes on with another one. -/
def Course.andThen (a b : Course) : Course :=
  ⟨a.calls ++ b.calls, a.reports ++ b.reports, a.warnings ++ b.warnings⟩

namespace Fetch.Turn

/-- What others see of a turn. -/
def shows (turn : Turn) : Course := ⟨turn.next.toList.map (·.2), turn.reports, turn.warnings⟩

/-- How a fetch goes on from a turn as its calls are answered, one after the other. -/
def course (id : FetchId) (turn : Turn) : List Answer → Course
  | [] => turn.shows
  | answer :: rest =>
    match turn.next.bind fun next => next.1.resume id answer with
    | none => turn.shows
    | some turn' => turn.shows.andThen (turn'.course id rest)

variable {id : FetchId} {turn turn' : Turn} {f : Fetch} {call : Call} {answer : Answer}

/-- A fetch that was over makes no more calls. -/
theorem course_of_next_eq_none (h : turn.next = none) (answers : List Answer) :
    turn.course id answers = turn.shows := by
  cases answers with
  | nil => rfl
  | cons answer rest => rw [course, h, Option.bind_none]

/-- The course of a fetch is that of its next turn, with the call in front. -/
theorem course_cons (hnext : turn.next = some (f, call)) (hresume : f.resume id answer = some turn')
    (rest : List Answer) :
    turn.course id (answer :: rest) =
      ⟨call :: (turn'.course id rest).calls, turn.reports ++ (turn'.course id rest).reports,
        turn.warnings ++ (turn'.course id rest).warnings⟩ := by
  rw [course, hnext, Option.bind_some, hresume]
  simp [Course.andThen, shows, hnext]

/-- What a turn reports besides comes first. -/
theorem course_reporting (id : FetchId) (turn : Turn) (report : Report) (answers : List Answer) :
    ({ turn with reports := report :: turn.reports } : Turn).course id answers =
      { turn.course id answers with reports := report :: (turn.course id answers).reports } := by
  cases answers with
  | nil => rfl
  | cons answer rest =>
    rw [course, course]
    rcases turn.next.bind fun next => next.1.resume id answer with _ | turn'
    · rfl
    · rfl

theorem take_calls_shows (turn : Turn) (n : Nat) :
    turn.shows.calls.take (n + 1) = turn.shows.calls := by
  rw [shows]
  rcases turn.next with _ | next
  · rfl
  · exact List.take_succ_cons.trans (congrArg _ List.take_nil)

/-- **A fetch makes one call at a time**: with each answer that came, it has made one more. -/
theorem calls_course_take (id : FetchId) (turn : Turn) (answers : List Answer) (n : Nat) :
    (turn.course id (answers.take n)).calls = (turn.course id answers).calls.take (n + 1) := by
  induction answers generalizing turn n with
  | nil => rw [List.take_nil, course, take_calls_shows]
  | cons answer rest ih =>
    rcases hnext : turn.next with _ | ⟨f, call⟩
    · rw [course_of_next_eq_none hnext, course_of_next_eq_none hnext, take_calls_shows]
    rcases hresume : f.resume id answer with _ | turn'
    · -- an answer to another kind of call is passed over for good
      have hstays (answers : List Answer) : turn.course id (answer :: answers) = turn.shows := by
        rw [course, hnext, Option.bind_some, hresume]
      cases n with
      | zero => rw [hstays, List.take_zero, course, take_calls_shows]
      | succ n => rw [List.take_succ_cons, hstays, hstays, take_calls_shows]
    · rw [course_cons hnext hresume]
      cases n with
      | zero => simp [course, shows, hnext]
      | succ n => rw [List.take_succ_cons, course_cons hnext hresume, ih, List.take_succ_cons]

end Fetch.Turn

/-! ## Reads -/

/-- A read of a characteristic, with what comes of it. -/
structure Read where
  target : Target
  result : Except RadioError Bytes

namespace Read

/-- The call with which a fetch reads. -/
def call (id : FetchId) (r : Read) : Call := .read id r.target.service r.target.characteristic

/-- The answer to that call. -/
def answer (r : Read) : Answer := .value r.result

/-- The error of a read that loses the link. -/
def loss? (r : Read) : Option RadioError :=
  match r.result with
  | .ok _ => none
  | .error e => if e.isLinkLoss then some e else none

/-- What is warned of if a read fails and the link holds. -/
def skipped? (peer : RadioId) (r : Read) : Option Warning :=
  match r.result with
  | .ok _ => none
  | .error e => if e.isLinkLoss then none else some (.readSkipped r.target.characteristic peer e)

/-- The loss of the link is no reason to go on without a characteristic. -/
theorem skipped?_of_loss {r : Read} {e : RadioError} (h : r.loss? = some e) (peer : RadioId) :
    r.skipped? peer = none := by
  rw [loss?] at h
  rw [skipped?]
  rcases hresult : r.result with e' | value
  · rw [hresult] at h
    exact if_pos (Option.ite_none_right_eq_some.mp h).1
  · rfl

/-- The value that was read of a characteristic, if it is the one that was read. -/
def value? (t : Target) (r : Read) : Option Bytes := if r.target = t then r.result.toOption else none

/-- Adds what comes of a read. -/
def enter (readings : Readings) (r : Read) : Readings :=
  match r.result with
  | .ok value => readings.record r.target value
  | .error _ => readings

/-- A read has the value of its target if it succeeded. -/
theorem value?_eq_some_iff {t : Target} {r : Read} {value : Bytes} :
    r.value? t = some value ↔ r.target = t ∧ r.result = .ok value := by
  rw [value?]
  rcases r.result with e | value'
  · simp [Except.toOption]
  · simp [Except.toOption]

/-- A value that was read is entered, and all else is as it was. -/
theorem look_enter (readings : Readings) (r : Read) (t : Target) :
    Visit.look (r.enter readings) t = (r.value? t).or (Visit.look readings t) := by
  rw [enter, value?]
  rcases r.result with e | value
  · simp [Except.toOption]
  · rw [Visit.look_record]
    by_cases ht : r.target = t
    · simp [ht, Except.toOption]
    · simp [ht, Ne.symm ht]

/-- Readings stay tight as a read is entered. -/
theorem isTight_enter {readings : Readings} (h : Visit.IsTight readings) (r : Read) :
    Visit.IsTight (r.enter readings) := by
  rw [enter]
  rcases r.result with e | value
  · exact h
  · exact h.record r.target value

end Read

/-- **The last value counts.** -/
theorem look_foldl_enter (reads : List Read) (readings : Readings) (t : Target) :
    Visit.look (reads.foldl (fun readings r => r.enter readings) readings) t =
      (lastSome (Read.value? t) reads).or (Visit.look readings t) := by
  induction reads generalizing readings with
  | nil => rfl
  | cons r rest ih => rw [List.foldl_cons, ih, Read.look_enter, lastSome_cons, Option.or_assoc]

/-! ## What a peer offers to read -/

/-- The characteristics that a peer lists, each with its service. -/
def listed (services : List RemoteService) : List (RemoteService × RemoteCharacteristic) :=
  services.flatMap fun s => s.characteristics.map fun c => (s, c)

/-- True for a characteristic that can be read and whose service is not reserved. -/
def isWorthReading (e : RemoteService × RemoteCharacteristic) : Bool :=
  !e.1.uuid.isReserved && e.2.readable

/-- What is to be read is what is listed and worth it, in order. -/
theorem targets_eq (services : List RemoteService) :
    targets services =
      ((listed services).filter isWorthReading).map fun e => ⟨e.1.uuid, e.2.uuid⟩ := by
  induction services with
  | nil => rfl
  | cons s rest ih =>
    have hlisted : listed (s :: rest) = s.characteristics.map (fun c => (s, c)) ++ listed rest := rfl
    rw [hlisted, List.filter_append, List.map_append, ← ih, targets, targets, List.filter_cons]
    rcases hreserved : s.uuid.isReserved with _ | _
    · simp [isWorthReading, hreserved, List.filter_map, Function.comp_def]
    · simp [isWorthReading, hreserved, List.filter_map, Function.comp_def]

/-- The reads that a peer is good for, with what comes of each: the characteristics worth reading, as
they are listed. -/
def readsOf (services : List RemoteService) (results : Nat → Except RadioError Bytes) : List Read :=
  ((listed services).filter isWorthReading).zipIdx.map fun e =>
    ⟨⟨e.1.1.uuid, e.1.2.uuid⟩, results e.2⟩

/-- Each target is read once, in order. -/
theorem map_target_readsOf (services : List RemoteService) (results : Nat → Except RadioError Bytes) :
    (readsOf services results).map Read.target = targets services := by
  rw [readsOf, targets_eq, List.map_map]
  conv_rhs => rw [← List.zipIdx_map_fst 0 ((listed services).filter isWorthReading), List.map_map]
  rfl

/-! ## The course of the reads -/

namespace Fetch

variable {id : FetchId} {r : Read} {rest : List Read}

/-- It does not matter to what is left to read which call was answered last. -/
theorem proceed_stage (f : Fetch) (stage : Stage) (id : FetchId) (warnings : List Warning)
    (ts : List Target) :
    Fetch.proceed { f with stage } id warnings ts = f.proceed id warnings ts := by
  cases ts with
  | nil => rfl
  | cons t rest => rfl

/-- After a read that does not lose the link, the fetch goes on with what is left. -/
theorem course_proceed_cons (hr : r.loss? = none) (f : Fetch) (warnings : List Warning) :
    (f.proceed id warnings ((r :: rest).map Read.target)).course id ((r :: rest).map Read.answer) =
      let next := (Fetch.proceed { f with readings := r.enter f.readings } id
        (r.skipped? f.peer).toList (rest.map Read.target)).course id (rest.map Read.answer)
      ⟨r.call id :: next.calls, next.reports, warnings ++ next.warnings⟩ := by
  rw [List.map_cons, List.map_cons, proceed]
  refine Turn.course_cons rfl ?_ _
  rw [Read.loss?] at hr
  rw [Read.answer, Read.skipped?, Read.enter]
  rcases hresult : r.result with e | value
  · have hkeeps : e.isLinkLoss = false := by simpa [hresult] using hr
    simp only [resume, hkeeps, proceed_stage]
    rfl
  · exact congrArg some (proceed_stage { f with readings := f.readings.record r.target value } ..)

/-- **The fetch stops at the first read that loses the link.** -/
theorem course_proceed_of_loss {before after : List Read} (hbefore : ∀ x ∈ before, x.loss? = none)
    {e : RadioError} (hr : r.loss? = some e) (f : Fetch) (warnings : List Warning) :
    (f.proceed id warnings ((before ++ r :: after).map Read.target)).course id
        ((before ++ r :: after).map Read.answer) =
      ⟨(before ++ [r]).map (Read.call id), [.finished (.error e)],
        warnings ++ before.filterMap (Read.skipped? f.peer)⟩ := by
  induction before generalizing f warnings with
  | nil =>
    rw [Read.loss?] at hr
    rcases hresult : r.result with e' | value
    · rw [hresult] at hr
      obtain ⟨hloss, heq⟩ := Option.ite_none_right_eq_some.mp hr
      obtain rfl := Option.some.inj heq
      have hresume (g : Fetch) : ({ g with stage := .reading r.target (after.map Read.target) } :
          Fetch).resume id r.answer = some (finished (.error e') []) := by
        rw [Read.answer, hresult]
        exact if_pos hloss
      rw [List.nil_append, List.map_cons, List.map_cons, proceed, Turn.course_cons rfl (hresume f),
        Turn.course_of_next_eq_none rfl]
      simp [Turn.shows, finished, Read.call]
    · rw [hresult] at hr
      cases hr
  | cons x before ih =>
    obtain ⟨hx, hbefore⟩ := List.forall_mem_cons.mp hbefore
    rw [List.cons_append, course_proceed_cons hx, ih hbefore, List.filterMap_cons]
    rcases x.skipped? f.peer with _ | w
    · simp
    · simp

/-- **If the link holds, everything is read**, and what could not be read is left out. -/
theorem course_proceed_of_keeps {reads : List Read} (hreads : ∀ r ∈ reads, r.loss? = none)
    (f : Fetch) (warnings : List Warning) :
    (f.proceed id warnings (reads.map Read.target)).course id (reads.map Read.answer) =
      ⟨reads.map (Read.call id),
        [.finished (.ok (reads.foldl (fun readings r => r.enter readings) f.readings))],
        warnings ++ reads.filterMap (Read.skipped? f.peer)⟩ := by
  induction reads generalizing f warnings with
  | nil => simp [proceed, Turn.course, Turn.shows, finished]
  | cons r rest ih =>
    obtain ⟨hr, hrest⟩ := List.forall_mem_cons.mp hreads
    rw [course_proceed_cons hr, ih hrest, List.filterMap_cons]
    rcases r.skipped? f.peer with _ | w
    · simp
    · simp

end Fetch

/-! ## What a fetch comes to -/

/-- What is seen of a fetch that connects, finds services, makes these reads and no other, and comes
to this. -/
structure Course.Makes (course : Course) (peer : RadioId) (id : FetchId) (reads : List Read)
    (outcome : Outcome) : Prop where
  calls : course.calls = .connect id peer :: .discover id :: reads.map (Read.call id)
  reports : course.reports = [.phase .discovering, .phase .reading, .finished outcome]
  warnings : course.warnings = reads.filterMap (Read.skipped? peer)

namespace Fetch

/-- The course of a fetch whose calls are answered like this. -/
def course (peer : RadioId) (epoch : Nat) (id : FetchId) (answers : List Answer) : Course :=
  ((new peer epoch).begin id).course id answers

/-- The answers of a peer that is connected to, lists these services, and is read with these
results. -/
def answersOf (services : List RemoteService) (results : Nat → Except RadioError Bytes) :
    List Answer :=
  .done (.ok ()) :: .services (.ok services) :: (readsOf services results).map Read.answer

variable {peer : RadioId} {epoch : Nat} {id : FetchId} {services : List RemoteService}
  {results : Nat → Except RadioError Bytes} {reads : List Read} {outcome : Outcome}

/-- The first two answers lead to the first read. -/
theorem makes_of_proceed
    (h : (proceed { new peer epoch with stage := .discovering } id [] (targets services)).course id
        ((readsOf services results).map Read.answer) =
      ⟨reads.map (Read.call id), [.finished outcome], reads.filterMap (Read.skipped? peer)⟩) :
    (course peer epoch id (answersOf services results)).Makes peer id reads outcome := by
  have hreading : course peer epoch id (answersOf services results) =
      ⟨.connect id peer :: .discover id :: reads.map (Read.call id),
        [.phase .discovering, .phase .reading, .finished outcome],
        reads.filterMap (Read.skipped? peer)⟩ := by
    rw [course, answersOf, Turn.course_cons rfl rfl, Turn.course_cons rfl rfl, Turn.course_reporting,
      h]
    rfl
  rw [hreading]
  exact ⟨rfl, rfl, rfl⟩

end Fetch

/-! ### Readings -/

/-- The readings are the values that were read last, and nothing else: a service of which nothing was
read is not among them. -/
structure IsReadBy (readings : Readings) (reads : List Read) : Prop where
  values : ∀ t, Visit.look readings t = lastSome (Read.value? t) reads
  services : ∀ service, readings.contains service = true ↔
    ∃ r ∈ reads, r.target.service = service ∧ r.result.isOk = true

/-- So they do as many are. -/
theorem isTight_foldl_enter (reads : List Read) {readings : Readings} (h : Visit.IsTight readings) :
    Visit.IsTight (reads.foldl (fun readings r => r.enter readings) readings) := by
  induction reads generalizing readings with
  | nil => exact h
  | cons r rest ih => exact ih (Read.isTight_enter h r)

/-- A service is among the readings exactly if some value of it is. -/
theorem Visit.contains_iff {readings : Readings} (h : Visit.IsTight readings) (service : Uuid) :
    readings.contains service = true ↔ ∃ u value, Visit.look readings ⟨service, u⟩ = some value := by
  rw [Table.contains]
  rcases hm : readings.get? service with _ | m
  · simp [Visit.look, hm]
  · simp only [Visit.look, hm, Option.isSome_some, Option.bind_some, true_iff]
    -- a service in tight readings has a characteristic
    by_contra hnone
    simp only [not_exists, ← Option.ne_none_iff_exists', not_not] at hnone
    refine h service (hm.trans (congrArg some (Table.ext_get? fun u => ?_)))
    rw [hnone, Table.get?_empty]

/-- **The readings are what the reads have come to**, and nothing else. -/
theorem isReadBy_foldl_enter (reads : List Read) :
    IsReadBy (reads.foldl (fun readings r => r.enter readings) ∅) reads := by
  have hvalues (t : Target) : Visit.look (reads.foldl (fun readings r => r.enter readings) ∅) t =
      lastSome (Read.value? t) reads := by
    rw [look_foldl_enter, Visit.look, Table.get?_empty, Option.bind_none, Option.or_none]
  have hempty : Visit.IsTight ∅ := by
    intro service h
    cases h
  refine ⟨hvalues, fun service => ?_⟩
  rw [Visit.contains_iff (isTight_foldl_enter reads hempty)]
  simp only [hvalues]
  constructor
  · rintro ⟨u, value, hlast⟩
    obtain ⟨r, hr, hvalue⟩ := exists_of_lastSome hlast
    obtain ⟨htarget, hresult⟩ := Read.value?_eq_some_iff.mp hvalue
    exact ⟨r, hr, by rw [htarget], by rw [hresult]; rfl⟩
  · rintro ⟨r, hr, rfl, hok⟩
    refine ⟨r.target.characteristic, Option.ne_none_iff_exists'.mp fun hnone => ?_⟩
    -- the read itself is among those that have something to say
    have hvalue := lastSome_eq_none_iff.mp hnone r hr
    rcases hresult : r.result with e | value
    · rw [hresult] at hok
      cases hok
    · cases hvalue.symm.trans (Read.value?_eq_some_iff.mpr ⟨rfl, hresult⟩)

/-! ### Advertisements -/

/-- The advertisements are those of the services that tell an identifier, one for each, by ascending
service. -/
structure AreOf (ads : List Advertisement) (readings : Readings) : Prop where
  decoded : ads =
    (readings.entries.filter fun e => (identifier? e.2).isSome).map fun e => (decode e.2).ad
  ids : ads.map Advertisement.id = readings.entries.filterMap fun e => identifier? e.2
  ascending : readings.keys.Pairwise fun a b => compare a b = .lt

/-- What is decoded is each service with an identifier. -/
theorem decodeReadings_fst (peer : RadioId) (readings : Readings) :
    (decodeReadings peer readings).1 =
      (readings.entries.filter fun e => (identifier? e.2).isSome).map fun e => (decode e.2).ad := by
  simp only [decodeReadings]
  induction readings.entries with
  | nil => rfl
  | cons e rest ih =>
    rw [List.map_cons, List.filterMap_cons, List.filter_cons, ih, decodeService,
      Characteristics.identifier?_eq]
    rcases hzero : (decode e.2).ad.id.isZero with _ | _
    · simp
    · simp

theorem areOf_decodeReadings (peer : RadioId) (readings : Readings) :
    AreOf (decodeReadings peer readings).1 readings := by
  refine ⟨decodeReadings_fst peer readings, ?_, List.pairwise_map.mpr readings.ascending⟩
  rw [decodeReadings_fst]
  induction readings.entries with
  | nil => rfl
  | cons e rest ih =>
    rw [List.filterMap_cons, List.filter_cons, ← ih, Characteristics.identifier?_eq]
    rcases hzero : (decode e.2).ad.id.isZero with _ | _
    · simp
    · simp

/-! ### The cache -/

/-- The cache learns nothing of a fetch that reports this and comes to this error, neither when the
driver deals with a report, nor once it has closed the link. -/
structure LeavesCache (reports : List Report) (e : RadioError) : Prop where
  report : ∀ (p : Pipeline) config now epoch cache, ∀ said ∈ reports,
    (p.onReport config now epoch said cache).cache = cache
  closed : ∀ (p : Pipeline) config now peer pending closing cache,
    ({ p with control := .closing peer (.settle pending (.error e)) }.onClosed config now closing
      cache).cache = cache

/-- The report of a failure leaves the cache as it is. -/
theorem Pipeline.cache_onReport_error (p : Pipeline) (config : Config) (now : Timestamp)
    (epoch : Nat) (e : RadioError) (cache : Cache) :
    (p.onReport config now epoch (.finished (.error e)) cache).cache = cache := by
  rw [onReport]
  split
  · rfl
  rcases hfetch : p.inFlight with _ | g
  · unfold fetchFinished
    rw [hfetch]
  · rw [fetchFinished_of_some hfetch, close]
    split
    · rfl
    split
    · rfl
    · exact (leaves_settle _ config now g.pending (.error e) cache).cache

/-- A course that comes to a failure leaves the cache as it is. -/
theorem Course.Makes.leavesCache {course : Course} {peer : RadioId} {id : FetchId}
    {reads : List Read} {e : RadioError} (h : course.Makes peer id reads (.error e)) :
    LeavesCache course.reports e := by
  constructor
  · intro p config now epoch cache said hsaid
    rw [h.reports] at hsaid
    have hphase (phase : Phase) :
        (p.onReport config now epoch (.phase phase) cache).cache = cache :=
      (Pipeline.leaves_onReport (fun _ _ => by simp) now cache).cache
    simp only [List.mem_cons, List.not_mem_nil, or_false] at hsaid
    rcases hsaid with rfl | rfl | rfl
    · exact hphase .discovering
    · exact hphase .reading
    · exact p.cache_onReport_error config now epoch e cache
  · intro p config now peer pending closing cache
    exact (Pipeline.leaves_settle _ config now pending (.error e) cache).cache

/-! ## The course of a fetch -/

/-- A fetch that connects to a peer finds services, and its reads have these results. -/
structure Fetch.ReadsUntilLoss (peer : RadioId) (epoch : Nat) (id : FetchId)
    (services : List RemoteService) (results : Nat → Except RadioError Bytes) : Prop where
  /-- Each call waits for the answer to the one before. -/
  one_at_a_time : ∀ n, (course peer epoch id ((answersOf services results).take n)).calls =
    (course peer epoch id (answersOf services results)).calls.take (n + 1)
  /-- The first read that loses the link is the last, and the cache learns nothing of the fetch. -/
  lost : ∀ before r after e, readsOf services results = before ++ r :: after →
    (∀ x ∈ before, x.loss? = none) → r.loss? = some e →
    let course := course peer epoch id (answersOf services results)
    course.Makes peer id (before ++ [r]) (.error e) ∧ LeavesCache course.reports e
  /-- If the link holds, everything is read, and the last value counts. -/
  kept : (∀ r ∈ readsOf services results, r.loss? = none) → ∃ readings,
    (course peer epoch id (answersOf services results)).Makes peer id (readsOf services results)
      (.ok readings) ∧
    IsReadBy readings (readsOf services results) ∧ AreOf (decodeReadings peer readings).1 readings

/-- **A fetch reads what is worth reading, in order, until the link is lost.** If it is, the fetch
comes to that error and nothing of it to the cache; otherwise it comes to the last values, and to an
advertisement for each service that tells an identifier. -/
theorem Fetch.reads_until_loss (peer : RadioId) (epoch : Nat) (id : FetchId)
    (services : List RemoteService) (results : Nat → Except RadioError Bytes) :
    ReadsUntilLoss peer epoch id services results where
  one_at_a_time n := Turn.calls_course_take id _ _ n
  lost before r after e hreads hbefore hr := by
    have hmakes : (course peer epoch id (answersOf services results)).Makes peer id (before ++ [r])
        (.error e) := by
      refine makes_of_proceed ?_
      rw [← map_target_readsOf services results, hreads, course_proceed_of_loss hbefore hr,
        List.filterMap_append, List.filterMap_cons, Read.skipped?_of_loss hr, List.filterMap_nil,
        List.append_nil, List.nil_append]
      rfl
    exact ⟨hmakes, hmakes.leavesCache⟩
  kept hkeeps := by
    refine ⟨_, makes_of_proceed ?_, isReadBy_foldl_enter _, areOf_decodeReadings _ _⟩
    rw [← map_target_readsOf services results, course_proceed_of_keeps hkeeps, List.nil_append]
    rfl

/-- A characteristic of a service that carries an advertisement. -/
def identifierRead : Target := ⟨.ofNat 1, Characteristics.idUuid⟩

/-- A peer that lists this service twice, beside one that every peer has. -/
def twiceListed : List RemoteService :=
  [⟨genericAccessUuid, [⟨Characteristics.idUuid, true⟩]⟩,
    ⟨identifierRead.service, [⟨Characteristics.idUuid, true⟩, ⟨Characteristics.hashUuid, false⟩]⟩,
    ⟨identifierRead.service, [⟨Characteristics.idUuid, true⟩]⟩]

/-- Of two reads of a characteristic, the second counts; if it loses the link, none does. -/
theorem Fetch.reads_until_loss_twiceListed :
    (∃ readings, (course ⟨"aa"⟩ 0 0 (answersOf twiceListed fun i => .ok [.ofNat i])).Makes ⟨"aa"⟩ 0
      [⟨identifierRead, .ok [0]⟩, ⟨identifierRead, .ok [1]⟩] (.ok readings) ∧
      Visit.look readings identifierRead = some [1]) ∧
    (course ⟨"aa"⟩ 0 0 (answersOf twiceListed fun i =>
      if i = 0 then .ok [0] else .error .disconnected)).Makes ⟨"aa"⟩ 0
      [⟨identifierRead, .ok [0]⟩, ⟨identifierRead, .error .disconnected⟩] (.error .disconnected) := by
  constructor
  · obtain ⟨readings, hmakes, hread, -⟩ :=
      (reads_until_loss ⟨"aa"⟩ 0 0 twiceListed fun i => .ok [.ofNat i]).kept (by decide)
    refine ⟨readings, hmakes, ?_⟩
    rw [hread.values]
    rfl
  · have hlost := (reads_until_loss ⟨"aa"⟩ 0 0 twiceListed fun i =>
      if i = 0 then .ok [0] else .error .disconnected).lost
    exact (hlost [⟨identifierRead, .ok [0]⟩] ⟨identifierRead, .error .disconnected⟩ []
      .disconnected rfl (by decide) rfl).1

end Nearby.Scan
