import Nearby.Publisher

/-!
# The logbook of the publisher's driver

The publisher keeps what its driver has still to do, and no more. A `Logbook` keeps beside it what
was done: which desired states were applied, the tasks that each of them took, and how every task
ended.

The entries fit the publisher at all times (`Logbook.Fits`), however the tasks end: a state counts as
applied once all tasks of its plan have ended, and not before.
-/

namespace Nearby.Publisher

/-- A task that has ended. -/
structure Ended where
  task : Task
  result : Except RadioError Unit

/-- True for a task that ended well. -/
def Ended.isOk (e : Ended) : Bool :=
  match e.result with
  | .ok () => true
  | .error _ => false

/-- A desired state that the driver has taken up. -/
structure Application where
  desired : Desired
  /-- The tasks it takes. -/
  plan : List Task
  /-- The tasks that have ended, in order. -/
  ended : List Ended

/-- The generation of the state. -/
def Application.generation (a : Application) : Nat := a.desired.generation

/-- A publisher with what its driver did. -/
structure Logbook where
  publisher : Publisher
  /-- The state that is being applied. -/
  present : Option Application
  /-- The states that were applied, oldest first. -/
  past : List Application

namespace Logbook

/-- The logbook of a publisher that has not done anything. -/
def initial : Logbook := ⟨.initial, none, []⟩

/-- Enters an application: it is past as soon as the publisher is through with it. -/
def enter (l : Logbook) (publisher : Publisher) (a : Application) : Logbook :=
  if publisher.applying.isSome then { l with publisher, present := some a }
  else ⟨publisher, none, l.past ++ [a]⟩

/-- What comes of a move of the driver. -/
def move (l : Logbook) (manufacturerId : UInt16) (move : Move) : Logbook :=
  let p := l.publisher
  let publisher := (p.move manufacturerId move).1
  match move with
  | .takeDesired =>
    if p.applying.isSome || !p.unseen then { l with publisher }
    else l.enter publisher ⟨p.desired, p.belief.plan p.desired, []⟩
  | .answered result =>
    match p.applying, l.present with
    | some ⟨_, task :: _⟩, some a =>
      l.enter publisher { a with ended := a.ended ++ [⟨task, result⟩] }
    | _, _ => { l with publisher }

/-- All states the driver has taken up, oldest first. -/
def applications (l : Logbook) : List Application := l.past ++ l.present.toList

/-- The state that was applied last. -/
def lastApplied (l : Logbook) : Desired := (l.past.getLast?.map (·.desired)).getD .initial

/-- What is entered as present is what the publisher applies. -/
inductive Matches : Option Application → Option Applying → Prop
  | idle : Matches none none
  | busy (a : Application) (task : Task) (rest : List Task)
    (plan : a.plan = a.ended.map (·.task) ++ task :: rest) :
    Matches (some a) (some ⟨a.desired, task :: rest⟩)

/-- **The invariant of a logbook.** -/
structure Fits (l : Logbook) : Prop where
  present : Matches l.present l.publisher.applying
  /-- The tasks of a past application have all ended. -/
  past : ∀ a ∈ l.past, a.ended.map (·.task) = a.plan
  applied : l.publisher.applied = l.lastApplied.generation

theorem fits_initial : initial.Fits := ⟨.idle, List.forall_mem_nil _, rfl⟩

variable {l : Logbook}

/-- Nothing is entered as present as long as nothing is applied. -/
theorem Fits.present_eq_none_iff (h : l.Fits) :
    l.present = none ↔ l.publisher.applying = none := by
  have hmatches := h.present
  generalize l.present = present at hmatches ⊢
  generalize l.publisher.applying = applying at hmatches ⊢
  cases hmatches with
  | idle => exact ⟨fun _ => rfl, fun _ => rfl⟩
  | busy a task rest plan => exact ⟨nofun, nofun⟩

theorem applications_of_idle (hidle : l.present = none) : l.applications = l.past := by
  rw [applications, hidle]
  exact List.append_nil _

theorem applications_of_busy {a : Application} (hbusy : l.present = some a) :
    l.applications = l.past ++ [a] := by
  rw [applications, hbusy]
  rfl

/-- Changes do not concern the driver before it takes them up. -/
theorem Fits.change (h : l.Fits) {publisher : Publisher}
    (happlying : publisher.applying = l.publisher.applying)
    (happlied : publisher.applied = l.publisher.applied) : Fits { l with publisher } :=
  ⟨happlying ▸ h.present, h.past, happlied.trans h.applied⟩

/-! ## Moves -/

/-- Goes on with an application of which these tasks are left. -/
def proceed (l : Logbook) (p : Publisher) (a : Application) : List Task → Logbook
  | [] => ⟨{ p with applying := none, applied := a.generation }, none, l.past ++ [a]⟩
  | task :: rest =>
    { l with publisher := { p with applying := some ⟨a.desired, task :: rest⟩ }, present := some a }

/-- The driver goes on to the next task, or is through with the state. -/
theorem enter_continueWith (l : Logbook) (p : Publisher) (manufacturerId : UInt16) (a : Application)
    (tasks : List Task) :
    l.enter (p.continueWith manufacturerId a.desired tasks).1 a = l.proceed p a tasks := by
  cases tasks with
  | nil => rfl
  | cons task rest => rfl

theorem applications_proceed (l : Logbook) (p : Publisher) (a : Application) (tasks : List Task) :
    (l.proceed p a tasks).applications = l.past ++ [a] := by
  cases tasks with
  | nil => exact List.append_nil _
  | cons task rest => rfl

/-- To go on changes what is being applied, and what was applied, and nothing else. -/
theorem publisher_proceed (l : Logbook) (p : Publisher) (a : Application) (tasks : List Task) :
    ∃ applying applied, (l.proceed p a tasks).publisher = { p with applying, applied } := by
  cases tasks with
  | nil => exact ⟨_, _, rfl⟩
  | cons task rest => exact ⟨_, _, rfl⟩

/-- What was applied before stays on record. -/
theorem past_proceed (l : Logbook) (p : Publisher) (a : Application) (tasks : List Task) :
    l.past <+: (l.proceed p a tasks).past := by
  cases tasks with
  | nil => exact List.prefix_append _ _
  | cons task rest => exact List.prefix_refl _

/-- The ways in which a move comes about. -/
inductive Moves (l : Logbook) : Move → Logbook → Prop
  /-- The move is not possible at present. -/
  | rests (move : Move) : Moves l move l
  | takes (idle : l.present = none) (unseen : l.publisher.unseen = true) :
    Moves l .takeDesired (l.proceed
      { l.publisher with
        unseen := false
        belief := l.publisher.belief.depart l.publisher.desired }
      ⟨l.publisher.desired, l.publisher.belief.plan l.publisher.desired, []⟩
      (l.publisher.belief.plan l.publisher.desired))
  | answers (a : Application) (task : Task) (rest : List Task) (result : Except RadioError Unit)
    (present : l.present = some a) (applying : l.publisher.applying = some ⟨a.desired, task :: rest⟩)
    (plan : a.plan = a.ended.map (·.task) ++ task :: rest) :
    Moves l (.answered result) (l.proceed
      { l.publisher with belief := l.publisher.belief.settle task result }
      { a with ended := a.ended ++ [⟨task, result⟩] } rest)

/-- **Every move comes about in one of these ways.** -/
theorem Fits.moves (h : l.Fits) (manufacturerId : UInt16) (move : Move) :
    l.Moves move (l.move manufacturerId move) := by
  obtain ⟨⟨published, stamp, generation, desired, unseen, belief, applying, applied⟩, present,
    past⟩ := l
  have hpresent : Matches present applying := h.present
  cases move with
  | takeDesired =>
    cases hpresent with
    | busy a task rest plan => exact .rests _
    | idle =>
      cases unseen with
      | false => exact .rests _
      | true =>
        rw [Logbook.move, Publisher.move]
        simp only [Option.isSome_none, Bool.not_true, Bool.or_self, Bool.false_eq_true, if_false]
        rw [enter_continueWith (a := ⟨desired, belief.plan desired, []⟩)]
        exact .takes rfl rfl
  | answered result =>
    cases hpresent with
    | idle => exact .rests _
    | busy a task rest plan =>
      rw [Logbook.move, Publisher.move]
      dsimp only
      rw [enter_continueWith (a := { a with ended := a.ended ++ [⟨task, result⟩] })]
      exact .answers a task rest result rfl rfl plan

/-- The publisher in the logbook is the publisher. -/
theorem publisher_move (l : Logbook) (manufacturerId : UInt16) (move : Move) :
    (l.move manufacturerId move).publisher = (l.publisher.move manufacturerId move).1 := by
  have henter : ∀ publisher a, (l.enter publisher a).publisher = publisher := by
    intro publisher a
    rw [enter]
    split
    · rfl
    · rfl
  cases move with
  | takeDesired =>
    rw [Logbook.move]
    split
    · rfl
    · exact henter _ _
  | answered result =>
    rw [Logbook.move]
    split
    · exact henter _ _
    · rfl

/-- What callers change is none of the driver's business. -/
theorem Fits.frame_move (h : l.Fits) (manufacturerId : UInt16) (move : Move) :
    ∃ unseen belief applying applied, (l.move manufacturerId move).publisher =
      { l.publisher with unseen, belief, applying, applied } := by
  have hmoves := h.moves manufacturerId move
  generalize l.move manufacturerId move = m at hmoves
  cases hmoves with
  | rests => exact ⟨_, _, _, _, rfl⟩
  | takes idle unseen =>
    obtain ⟨applying, applied, hpublisher⟩ := l.publisher_proceed _ _ _
    exact ⟨_, _, _, _, hpublisher⟩
  | answers a task rest result present applying plan =>
    obtain ⟨applying, applied, hpublisher⟩ := l.publisher_proceed _ _ _
    exact ⟨_, _, _, _, hpublisher⟩

theorem lastApplied_append (past : List Application) (publisher : Publisher)
    (present : Option Application) (a : Application) :
    lastApplied ⟨publisher, present, past ++ [a]⟩ = a.desired := by
  rw [lastApplied, List.getLast?_concat]
  rfl

/-- The logbook stays right as the driver goes on. -/
theorem Fits.proceed (h : l.Fits) {p : Publisher} (happlied : p.applied = l.publisher.applied)
    {a : Application} {tasks : List Task} (hplan : a.plan = a.ended.map (·.task) ++ tasks) :
    (l.proceed p a tasks).Fits := by
  cases tasks with
  | nil =>
    refine ⟨.idle, List.forall_mem_append.mpr ⟨h.past, ?_⟩, ?_⟩
    · rw [List.append_nil] at hplan
      exact List.forall_mem_singleton.mpr hplan.symm
    · rw [Logbook.proceed, lastApplied_append]
      rfl
  | cons task rest => exact ⟨.busy a task rest hplan, h.past, happlied.trans h.applied⟩

/-- **Every move keeps the logbook.** -/
theorem Fits.move (h : l.Fits) (manufacturerId : UInt16) (move : Move) :
    (l.move manufacturerId move).Fits := by
  have hmoves := h.moves manufacturerId move
  generalize l.move manufacturerId move = m at hmoves
  cases hmoves with
  | rests => exact h
  | takes idle unseen =>
    apply h.proceed
    · rfl
    · rfl
  | answers a task rest result present applying plan =>
    apply h.proceed
    · rfl
    · rw [plan, List.map_append, List.append_assoc]
      rfl

/-- What is past stays past. -/
theorem Fits.past_move (h : l.Fits) (manufacturerId : UInt16) (move : Move) :
    l.past <+: (l.move manufacturerId move).past := by
  have hmoves := h.moves manufacturerId move
  generalize l.move manufacturerId move = m at hmoves
  cases hmoves with
  | rests => exact List.prefix_refl _
  | takes idle unseen => exact l.past_proceed _ _ _
  | answers a task rest result present applying plan => exact l.past_proceed _ _ _

end Logbook

/-! ## The driver, left to itself -/

/-- The radio answers that it has done as it was told. -/
def settles : Move := .answered (.ok ())

/-- The publisher after a list of moves of its driver. -/
def run (manufacturerId : UInt16) (p : Publisher) (moves : List Move) : Publisher :=
  moves.foldl (fun p move => (p.move manufacturerId move).1) p

/-- A driver at work gets through with the state it applies. -/
theorem exists_idle (manufacturerId : UInt16) {p : Publisher} {desired : Desired} {task : Task}
    {rest : List Task} (h : p.applying = some ⟨desired, task :: rest⟩) :
    ∃ moves : List Move, (∀ move ∈ moves, move = settles) ∧
      (p.run manufacturerId moves).applying = none ∧
      (p.run manufacturerId moves).unseen = p.unseen := by
  induction rest generalizing p task with
  | nil =>
    refine ⟨[settles], List.forall_mem_singleton.mpr rfl, ?_, ?_⟩
    · simp [run, settles, move, h, continueWith]
    · simp [run, settles, move, h, continueWith]
  | cons next rest ih =>
    have happlying : (p.move manufacturerId settles).1.applying = some ⟨desired, next :: rest⟩ := by
      simp [settles, move, h, continueWith]
    have hunseen : (p.move manufacturerId settles).1.unseen = p.unseen := by
      simp [settles, move, h, continueWith]
    obtain ⟨moves, hmoves, hidle, hsame⟩ := ih happlying
    exact ⟨settles :: moves, List.forall_mem_cons.mpr ⟨rfl, hmoves⟩, hidle, hsame.trans hunseen⟩

/-- A driver at rest takes up what was handed over, and gets through with it. -/
theorem exists_settled_of_idle (manufacturerId : UInt16) {p : Publisher} (hidle : p.applying = none)
    (hunseen : p.unseen = true) :
    ∃ moves : List Move, (∀ move ∈ moves, move = settles ∨ move = .takeDesired) ∧
      (p.run manufacturerId moves).applying = none ∧
      (p.run manufacturerId moves).unseen = false := by
  have htake : (p.move manufacturerId .takeDesired).1 =
      (continueWith { p with unseen := false, belief := p.belief.depart p.desired } manufacturerId
        p.desired (p.belief.plan p.desired)).1 := by
    simp [move, hidle, hunseen]
  rcases hplan : p.belief.plan p.desired with _ | ⟨task, rest⟩
  · refine ⟨[.takeDesired], List.forall_mem_singleton.mpr (.inr rfl), ?_, ?_⟩
    · simp [run, htake, hplan, continueWith]
    · simp [run, htake, hplan, continueWith]
  · have happlying : (p.move manufacturerId .takeDesired).1.applying =
        some ⟨p.desired, task :: rest⟩ := by
      simp [htake, hplan, continueWith]
    obtain ⟨moves, hmoves, hidle, hsame⟩ := exists_idle manufacturerId happlying
    refine ⟨.takeDesired :: moves, List.forall_mem_cons.mpr ⟨.inr rfl, ?_⟩, hidle, ?_⟩
    · exact fun move hmove => .inl (hmoves move hmove)
    · refine hsame.trans ?_
      simp [htake, hplan, continueWith]

/-- **A driver that is left to it gets through with everything.** -/
theorem exists_settled (manufacturerId : UInt16) {p : Publisher} {present : Option Application}
    (h : Logbook.Matches present p.applying) :
    ∃ moves : List Move, (∀ move ∈ moves, move = settles ∨ move = .takeDesired) ∧
      (p.run manufacturerId moves).applying = none ∧
      (p.run manufacturerId moves).unseen = false := by
  obtain ⟨first, hfirst, hidle⟩ : ∃ moves : List Move, (∀ move ∈ moves, move = settles) ∧
      (p.run manufacturerId moves).applying = none := by
    generalize happlying : p.applying = applying at h
    cases h with
    | idle => exact ⟨[], List.forall_mem_nil _, happlying⟩
    | busy a task rest plan =>
      obtain ⟨moves, hmoves, hidle, -⟩ := exists_idle manufacturerId happlying
      exact ⟨moves, hmoves, hidle⟩
  rcases hunseen : (p.run manufacturerId first).unseen with _ | _
  · exact ⟨first, fun move hmove => .inl (hfirst move hmove), hidle, hunseen⟩
  · obtain ⟨second, hsecond, hsettled⟩ := exists_settled_of_idle manufacturerId hidle hunseen
    refine ⟨first ++ second, List.forall_mem_append.mpr ⟨?_, hsecond⟩, ?_⟩
    · exact fun move hmove => .inl (hfirst move hmove)
    · rw [run, List.foldl_append]
      exact hsettled

/-- A driver with nothing to do does nothing. -/
theorem move_of_settled {p : Publisher} (hidle : p.applying = none) (hseen : p.unseen = false)
    (manufacturerId : UInt16) (move : Move) : p.move manufacturerId move = (p, []) := by
  cases move with
  | takeDesired => simp [Publisher.move, hidle, hseen]
  | answered result => simp [Publisher.move, hidle]

theorem Logbook.move_of_settled {l : Logbook} (hidle : l.publisher.applying = none)
    (hseen : l.publisher.unseen = false) (manufacturerId : UInt16) (move : Move) :
    l.move manufacturerId move = l := by
  have hsame := congrArg Prod.fst (Publisher.move_of_settled hidle hseen manufacturerId move)
  cases move with
  | takeDesired => simp [Logbook.move, hsame, hseen]
  | answered result => simp [Logbook.move, hsame, hidle]

end Nearby.Publisher
