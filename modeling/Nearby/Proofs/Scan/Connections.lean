import Nearby.Proofs.Scan.Coherent

/-!
# At most one connection

A link is opened by a fetch and closed by the driver, and between the two any of them may be cut
short. Here the pipeline is put together with the radio it calls, of which no more is kept than what
it holds: attempts to connect and links (`Adapter`). Of the radio this much is assumed.

* A call to connect that fails leaves nothing behind. One that nobody waits for any more may still
  get through; it counts as one connection at most, until it is taken back.
* Closing a link and taking back an attempt come to an end in time, and then the link or the attempt
  is gone, whatever the answer.

Everything else is open: calls may be answered in any way or not at all, attempts may get through
and fail, links may be lost, and messages and turns come in any order. The invariant (`Holds`) goes
by where the fetch in flight is, and by what the driver waits for when there is none.
-/

namespace Nearby.Scan

/-! ## The radio -/

/-- A call to connect that was not answered, or whose answer nobody waits for. -/
structure Attempt where
  link : FetchId
  peer : RadioId
  /-- True while the radio holds a connection for it. -/
  connected : Bool
  deriving DecidableEq

/-- What the radio holds, and the call of the driver that it is about to answer. -/
structure Adapter where
  attempts : List Attempt
  links : List FetchId
  closing : Option Call
  deriving DecidableEq

namespace Adapter

/-- The radio without connections. -/
def silent : Adapter := ⟨[], [], none⟩

/-- The number of connections. -/
def connections (a : Adapter) : Nat := a.attempts.countP Attempt.connected + a.links.length

/-- The radio is called. -/
def called (a : Adapter) : Effect → Adapter
  | .call _ (.connect link peer) => { a with attempts := a.attempts ++ [⟨link, peer, false⟩] }
  | .call _ (.disconnect link) => { a with closing := some (.disconnect link) }
  | .call _ (.cancelConnect peer) => { a with closing := some (.cancelConnect peer) }
  | _ => a

/-- The call to connect is answered. -/
def connectAnswered (a : Adapter) (link : FetchId) : Except RadioError Unit → Adapter
  | .ok () =>
    { a with attempts := a.attempts.filter (·.link ≠ link), links := a.links ++ [link] }
  | .error _ => { a with attempts := a.attempts.filter (·.link ≠ link) }

/-- The call to close a link, or to take back an attempt, is answered. -/
def closeAnswered (a : Adapter) : Adapter :=
  match a.closing with
  | some (.disconnect link) => { a with links := a.links.filter (· ≠ link), closing := none }
  | some (.cancelConnect peer) =>
    { a with attempts := a.attempts.filter (·.peer ≠ peer), closing := none }
  | _ => a

/-- What a move of the pipeline says of the radio, where it is an answer. -/
def answered (a : Adapter) (p : Pipeline) : Move → Adapter
  | .fetchAnswered id (.done result) =>
    if (p.fetches.get? id).any fun f => f.stage = .connecting then a.connectAnswered id result
    else a
  | .closed (.answered _) => a.closeAnswered
  | _ => a

/-- An attempt gets through, or fails again, without an answer. -/
def turns (a : Adapter) (link : FetchId) (connected : Bool) : Adapter :=
  { a with attempts := a.attempts.map fun t => if t.link = link then { t with connected } else t }

/-- A link is lost. -/
def loses (a : Adapter) (link : FetchId) : Adapter :=
  { a with links := a.links.filter (· ≠ link) }

end Adapter

/-! ## Pipeline and radio -/

/-- A pipeline with its cache and its radio. -/
structure System where
  pipeline : Pipeline
  cache : Cache
  adapter : Adapter

/-- Anything that can happen to pipeline, cache and radio. -/
inductive Happening
  | moves (now : Timestamp) (move : Move)
  /-- Subscribers come and go, and entries are swept. -/
  | caches (cache : Cache)
  | turns (link : FetchId) (connected : Bool)
  | loses (link : FetchId)

/-- True for what happens while commands come from the engine, reports from fetches, and the radio
closes links in time. -/
def Happening.IsFair : Happening → Prop
  | .moves _ (.send (.report ..)) => False
  | .moves _ (.closed .timedOut) => False
  | _ => True

namespace System

/-- The system before anyone subscribes. -/
def initial (cache : Cache) : System := ⟨.initial, cache, .silent⟩

/-- What comes of a happening: an answer says something of the radio, the pipeline makes its move,
and the calls it makes reach the radio. -/
def after (config : Config) (s : System) : Happening → System
  | .moves now move =>
    let step := s.pipeline.move config now s.cache move
    ⟨step.pipeline, step.cache,
      step.effects.foldl Adapter.called (s.adapter.answered s.pipeline move)⟩
  | .caches cache => { s with cache }
  | .turns link connected => { s with adapter := s.adapter.turns link connected }
  | .loses link => { s with adapter := s.adapter.loses link }

/-- The system after a list of happenings. -/
def run (config : Config) (s : System) (happenings : List Happening) : System :=
  happenings.foldl (after config) s

end System

/-! ## What the radio holds -/

/-- What a fetch has of the radio. -/
inductive Grip
  | nothing
  | attempt
  | link

/-- What a fetch has of the radio while it waits for a call. -/
def Fetch.Stage.grip : Fetch.Stage → Grip
  | .ready => .nothing
  | .connecting => .attempt
  | .discovering => .link
  | .reading .. => .link

/-- Pipeline and radio hold for the fetch in flight what it has, and nothing else. A link that was
lost is not held by the radio any more. -/
def Grip.Fits (p : Pipeline) (a : Adapter) (g : InFlight) : Grip → Prop
  | .nothing => p.links = [] ∧ a.attempts = [] ∧ a.links = []
  | .attempt =>
    p.links = [] ∧ (∃ connected, a.attempts = [⟨g.fetch, g.pending.peer, connected⟩]) ∧ a.links = []
  | .link => p.links = [g.fetch] ∧ a.attempts = [] ∧ a.links.Sublist [g.fetch]

/-- What the radio holds, by where the pipeline is. -/
inductive Holds (p : Pipeline) (a : Adapter) : Prop
  /-- A fetch is in flight. If it is over and has left an attempt behind, it has run out of time. -/
  | busy (g : InFlight) (inFlight : p.inFlight = some g) (grip : Grip) (fits : grip.Fits p a g)
    (closing : a.closing = none)
    (stage : ∀ f, p.fetches.get? g.fetch = some f → f.stage.grip = grip)
    (late : ∀ outcome, (g.fetch, .finished outcome) ∈ p.reports → grip = .attempt →
      Pipeline.timedOut outcome = true)
  /-- Nothing is going on. -/
  | free (inFlight : p.inFlight = none) (waits : p.isClosing = false) (links : p.links = [])
    (silent : a = .silent)
  /-- The driver waits for a link to be closed. -/
  | disconnecting (inFlight : p.inFlight = none) (waits : p.isClosing = true) (link : FetchId)
    (links : p.links = []) (attempts : a.attempts = []) (held : a.links.Sublist [link])
    (closing : a.closing = some (.disconnect link))
  /-- The driver waits for an attempt to be taken back. -/
  | cancelling (inFlight : p.inFlight = none) (waits : p.isClosing = true) (peer : RadioId)
    (links : p.links = [])
    (attempts : a.attempts = [] ∨ ∃ link connected, a.attempts = [⟨link, peer, connected⟩])
    (held : a.links = []) (closing : a.closing = some (.cancelConnect peer))

/-! ### Calls -/

/-- A radio that is not asked to open or close a link stays as it is. -/
theorem called_of_not_isLinkCall (a : Adapter) {e : Effect} (h : e.isLinkCall = false) :
    a.called e = a := by
  cases e with
  | call caller call =>
    cases call with
    | connect link peer => cases h
    | cancelConnect peer => cases h
    | disconnect link => cases h
    | startScan | stopScan | discover | read | register | unregister | startBroadcast
    | stopBroadcast => rfl
  | spawn | cancel | event | warn | acknowledge => rfl

/-- Effects that open and close no link leave the radio as it is. -/
theorem foldl_called_of_isQuiet (a : Adapter) {effects : List Effect} (h : IsQuiet effects) :
    effects.foldl Adapter.called a = a := by
  induction effects with
  | nil => rfl
  | cons e rest ih =>
    obtain ⟨he, hrest⟩ := List.forall_mem_cons.mp h
    rw [List.foldl_cons, called_of_not_isLinkCall a he, ih hrest]

/-- The calls of a turn: the one the fetch waits for from now on. -/
theorem foldl_called_applyTurn (a : Adapter) (p : Pipeline) (id : FetchId) (epoch : Nat)
    (turn : Fetch.Turn) (cache : Cache) :
    (p.applyTurn id epoch turn cache).effects.foldl Adapter.called a =
      match turn.next with
      | none => a
      | some (_, call) => a.called (.call (.fetch id) call) := by
  have hquiet : IsQuiet (turn.warnings.map Effect.warn) := isQuiet_map (fun _ => rfl) _
  rw [Pipeline.applyTurn]
  rcases turn.next with _ | ⟨fetch, call⟩
  · exact foldl_called_of_isQuiet a hquiet
  · dsimp only
    rw [List.foldl_append, foldl_called_of_isQuiet a hquiet]
    rfl

/-! ### The driver -/

variable {p q : Pipeline} {a : Adapter}

/-- What a fetch has of the radio fits as long as the links are the same. -/
theorem Grip.Fits.of_links {g : InFlight} {grip : Grip} (h : grip.Fits p a g)
    (hlinks : q.links = p.links) : grip.Fits q a g := by
  cases grip with
  | nothing => exact ⟨hlinks.trans h.1, h.2⟩
  | attempt => exact ⟨hlinks.trans h.1, h.2⟩
  | link => exact ⟨hlinks.trans h.1, h.2⟩

/-- What is held does not depend on more of the pipeline than this. -/
theorem Holds.of_eq (h : Holds p a) (hinFlight : q.inFlight = p.inFlight)
    (hclosing : q.isClosing = p.isClosing) (hlinks : q.links = p.links)
    (hfetches : q.fetches = p.fetches) (hreports : ∀ r ∈ q.reports, r ∈ p.reports) : Holds q a := by
  cases h with
  | busy g inFlight grip fits closing stage late =>
    exact .busy g (hinFlight.trans inFlight) grip (fits.of_links hlinks) closing (hfetches ▸ stage)
      fun outcome hmem => late outcome (hreports _ hmem)
  | free inFlight waits links silent =>
    exact .free (hinFlight.trans inFlight) (hclosing.trans waits) (hlinks.trans links) silent
  | disconnecting inFlight waits link links attempts held closing =>
    exact .disconnecting (hinFlight.trans inFlight) (hclosing.trans waits) link
      (hlinks.trans links) attempts held closing
  | cancelling inFlight waits peer links attempts held closing =>
    exact .cancelling (hinFlight.trans inFlight) (hclosing.trans waits) peer
      (hlinks.trans links) attempts held closing

/-- The driver goes on while the radio holds nothing: if it launches a fetch, this has nothing of
the radio yet. -/
theorem Pipeline.GoesOn.holds_silent {s : Step} (hs : p.GoesOn s) (hidle : p.inFlight = none)
    (hlinks : p.links = []) : Holds s.pipeline .silent := by
  cases hs with
  | stays same control closing quiet =>
    exact .free (same.inFlight.trans hidle) closing (same.links.trans hlinks) rfl
  | launches q pending same idle active pipeline quiet =>
    rw [pipeline]
    refine .busy ⟨pending, q.nextFetch⟩ rfl .nothing ⟨same.links.trans hlinks, rfl, rfl⟩ rfl ?_ ?_
    · intro f hf
      change (q.fetches.insert q.nextFetch _).get? q.nextFetch = some f at hf
      rw [Table.get?_insert_self] at hf
      cases hf
      rfl
    · intro outcome _ hgrip
      cases hgrip

/-- **The driver goes on** and holds what it held. -/
theorem Pipeline.GoesOn.holds {s : Step} (hs : p.GoesOn s) (h : Holds p a)
    (hclosing : p.isClosing = false) : Holds s.pipeline (s.effects.foldl Adapter.called a) := by
  rw [foldl_called_of_isQuiet a hs.quiet]
  rcases hidle : p.inFlight with _ | g
  · cases h with
    | busy g inFlight => cases hidle.symm.trans inFlight
    | free inFlight waits links silent =>
      rw [silent]
      exact hs.holds_silent inFlight links
    | disconnecting inFlight waits => cases hclosing.symm.trans waits
    | cancelling inFlight waits => cases hclosing.symm.trans waits
  · cases hs with
    | stays same control closing quiet =>
      exact h.of_eq same.inFlight (closing.trans hclosing.symm) same.links same.fetches
        fun r hr => same.reports ▸ hr
    | launches q pending same idle => cases hidle.symm.trans idle

/-- **What a fetch has is given back**: its link is closed, or else its attempt taken back. -/
theorem Grip.Fits.holds_closing {g : InFlight} {grip : Grip} (h : grip.Fits p a g)
    (hidle : q.inFlight = none) (hlinks : q.links = p.links) (next : AfterClose) :
    Holds (q.closing g next) (a.called (.call .driver (p.closeCall g))) := by
  have hcall : p.closeCall g =
      if g.fetch ∈ p.links then .disconnect g.fetch else .cancelConnect g.pending.peer := rfl
  have hrest : (q.closing g next).links = p.links.erase g.fetch :=
    congrArg (List.erase · g.fetch) hlinks
  cases grip with
  | nothing =>
    -- the driver cannot tell this from an attempt, and takes back what is not there
    obtain ⟨hnone, hattempts, hheld⟩ := h
    rw [hnone] at hcall hrest
    rw [hcall, if_neg List.not_mem_nil]
    exact .cancelling hidle rfl g.pending.peer hrest (.inl hattempts) hheld rfl
  | attempt =>
    obtain ⟨hnone, ⟨connected, hattempts⟩, hheld⟩ := h
    rw [hnone] at hcall hrest
    rw [hcall, if_neg List.not_mem_nil]
    exact .cancelling hidle rfl g.pending.peer hrest (.inr ⟨g.fetch, connected, hattempts⟩) hheld rfl
  | link =>
    obtain ⟨hone, hattempts, hheld⟩ := h
    rw [hone] at hcall hrest
    rw [List.erase_cons_head] at hrest
    rw [hcall, if_pos List.mem_cons_self]
    exact .disconnecting hidle rfl g.fetch hrest hattempts hheld rfl

/-- What the radio holds for the fetch in flight. -/
theorem Holds.fits (h : Holds p a) {g : InFlight} (hg : p.inFlight = some g) :
    ∃ grip : Grip, grip.Fits p a g ∧ a.closing = none ∧
      ∀ outcome, (g.fetch, .finished outcome) ∈ p.reports → grip = .attempt →
        Pipeline.timedOut outcome = true := by
  cases h with
  | busy g' inFlight grip fits closing stage late =>
    cases hg.symm.trans inFlight
    exact ⟨grip, fits, closing, late⟩
  | free inFlight => cases hg.symm.trans inFlight
  | disconnecting inFlight => cases hg.symm.trans inFlight
  | cancelling inFlight => cases hg.symm.trans inFlight

/-- **Dealing with a command**, the driver gives back what it does not need any more. -/
theorem Pipeline.Deals.holds {command : Command} {rest : List Command} {s : Step}
    (htracks : p.Tracks) (h : Holds p a) (hclosing : p.isClosing = false)
    (hcommands : p.commands = command :: rest)
    (hs : Pipeline.Deals { p with commands := rest } command s) :
    Holds s.pipeline (s.effects.foldl Adapter.called a) := by
  have hreports := Pipeline.reports_cons hcommands
  have htaken : Holds { p with commands := rest } a :=
    h.of_eq rfl rfl rfl rfl fun r hr => hreports ▸ List.mem_append_right _ hr
  cases hs with
  | goesOn other step => exact step.holds htaken hclosing
  | stops idle step =>
    cases h with
    | busy g inFlight => cases inFlight.symm.trans idle
    | free inFlight waits links silent =>
      have hstopped : Holds (Pipeline.stopped { p with commands := rest }) a :=
        .free idle waits links silent
      exact step.holds hstopped hclosing
    | disconnecting inFlight waits => cases hclosing.symm.trans waits
    | cancelling inFlight waits => cases hclosing.symm.trans waits
  | cancels g next inFlight pipeline effects =>
    obtain ⟨grip, fits, -, -⟩ := htaken.fits inFlight
    rw [pipeline, effects]
    refine fits.holds_closing ?_ ?_ next
    · rfl
    · rfl
  | settles id outcome g report inFlight unlinked inTime step =>
    subst report
    obtain ⟨rfl, -⟩ := htracks.takeOutcome hcommands inFlight
    obtain ⟨grip, fits, closing, late⟩ := h.fits inFlight
    cases grip with
    | nothing =>
      obtain ⟨hlinks, hattempts, hheld⟩ := fits
      obtain ⟨attempts, links, call⟩ := a
      obtain rfl : attempts = [] := hattempts
      obtain rfl : links = [] := hheld
      obtain rfl : call = none := closing
      have hfree : Holds { p with commands := rest, inFlight := none } .silent :=
        .free rfl hclosing hlinks rfl
      exact step.holds hfree hclosing
    | attempt =>
      -- only a fetch that ran out of time leaves an attempt behind
      have hmem : (g.fetch, Report.finished outcome) ∈ p.reports := by
        rw [hreports, Command.reportOf?_eq_some_iff.mpr rfl]
        exact List.mem_cons_self
      cases inTime.symm.trans (late outcome hmem rfl)
    | link =>
      refine absurd ?_ unlinked
      rw [fits.1]
      exact List.mem_cons_self
  | closes id outcome g next report inFlight pipeline effects =>
    obtain ⟨grip, fits, -, -⟩ := htaken.fits inFlight
    rw [pipeline, effects]
    refine fits.holds_closing ?_ ?_ next
    · rfl
    · rfl

/-! ### Fetches -/

/-- The turn of the fetch in flight, with what it has of the radio afterwards. -/
theorem holds_applyTurn {g : InFlight} {f : Fetch} {turn : Fetch.Turn} {grip : Grip}
    {cache : Cache} (htracks : p.Tracks) (hg : p.inFlight = some g)
    (hf : p.fetches.get? g.fetch = some f)
    (fits : grip.Fits (p.applyTurn g.fetch f.epoch turn cache).pipeline a g)
    (closing : a.closing = none)
    (stage : ∀ next call, turn.next = some (next, call) → next.stage.grip = grip)
    (late : ∀ outcome, .finished outcome ∈ turn.reports → grip = .attempt →
      Pipeline.timedOut outcome = true) :
    Holds (p.applyTurn g.fetch f.epoch turn cache).pipeline a := by
  obtain ⟨g', hg', -, -, hepoch, -, hphases⟩ := htracks.underway hf
  refine .busy g ?_ grip fits closing (fun f' hf' => ?_) (fun outcome hmem => ?_)
  · rw [Pipeline.pipeline_applyTurn, hg]
  · rw [Pipeline.pipeline_applyTurn] at hf'
    rcases hnext : turn.next with _ | ⟨next, call⟩
    · rw [hnext] at hf'
      dsimp only at hf'
      rw [Table.get?_erase_self] at hf'
      cases hf'
    · rw [hnext] at hf'
      dsimp only at hf'
      rw [Table.get?_insert_self] at hf'
      cases hf'
      exact stage _ call hnext
  · rw [Pipeline.reports_applyTurn hepoch] at hmem
    rcases List.mem_append.mp hmem with hmem | hmem
    · -- before this turn the fetch had reported phases only
      cases (hphases _ hmem).2
    · obtain ⟨said, hsaid, heq⟩ := List.mem_map.mp hmem
      cases heq
      exact late outcome hsaid

/-- What a fetch under way has of the radio. -/
theorem Holds.underway (h : Holds p a) {g : InFlight} {f : Fetch} (hg : p.inFlight = some g)
    (hf : p.fetches.get? g.fetch = some f) :
    f.stage.grip.Fits p a g ∧ a.closing = none := by
  cases h with
  | busy g' inFlight grip fits closing stage late =>
    cases hg.symm.trans inFlight
    rw [stage f hf]
    exact ⟨fits, closing⟩
  | free inFlight => cases hg.symm.trans inFlight
  | disconnecting inFlight => cases hg.symm.trans inFlight
  | cancelling inFlight => cases hg.symm.trans inFlight

/-- A link is on record once its fetch knows that it is open. -/
theorem links_applyTurn (p : Pipeline) (id : FetchId) (epoch : Nat) (turn : Fetch.Turn)
    (cache : Cache) :
    (p.applyTurn id epoch turn cache).pipeline.links =
      if turn.linked then p.links ++ [id] else p.links := by
  rw [Pipeline.pipeline_applyTurn]

/-- **The first turn** makes an attempt to connect. -/
theorem Holds.begun (h : Holds p a) (htracks : p.Tracks) {id : FetchId} {f : Fetch} {cache : Cache}
    (hf : p.fetches.get? id = some f) (hstage : f.stage = .ready) :
    Holds (p.applyTurn id f.epoch (f.begin id) cache).pipeline
      ((p.applyTurn id f.epoch (f.begin id) cache).effects.foldl Adapter.called a) := by
  obtain ⟨g, hg, rfl, hpeer, -, -, -⟩ := htracks.underway hf
  obtain ⟨hfits, hclosing⟩ := h.underway hg hf
  rw [hstage] at hfits
  obtain ⟨hlinks, hattempts, hheld⟩ := hfits
  rw [foldl_called_applyTurn]
  have hfits' : Grip.Fits (p.applyTurn g.fetch f.epoch (f.begin g.fetch) cache).pipeline
      (a.called (.call (.fetch g.fetch) (.connect g.fetch f.peer))) g .attempt := by
    refine ⟨(links_applyTurn ..).trans hlinks, ⟨false, ?_⟩, hheld⟩
    change a.attempts ++ [⟨g.fetch, f.peer, false⟩] = _
    rw [hattempts, hpeer]
    rfl
  refine holds_applyTurn htracks hg hf hfits' hclosing ?_ ?_
  · intro next call hnext
    cases hnext
    rfl
  · intro outcome hmem
    cases hmem

/-- **A fetch that runs out of time** leaves what it had to the driver. -/
theorem Holds.expired (h : Holds p a) (htracks : p.Tracks) {id : FetchId} {f : Fetch}
    {cache : Cache} (hf : p.fetches.get? id = some f) {outcome : Outcome}
    (hlate : Pipeline.timedOut outcome = true) :
    Holds (p.applyTurn id f.epoch (Fetch.finished outcome []) cache).pipeline a := by
  obtain ⟨g, hg, rfl, -, -, -, -⟩ := htracks.underway hf
  obtain ⟨hfits, hclosing⟩ := h.underway hg hf
  refine holds_applyTurn htracks hg hf (hfits.of_links (links_applyTurn ..)) hclosing ?_ ?_
  · intro next call hnext
    cases hnext
  · intro outcome' hmem _
    cases List.mem_singleton.mp hmem
    exact hlate

/-- A turn of a fetch that has a link and keeps it. -/
structure Fetch.Turn.KeepsLink (turn : Fetch.Turn) : Prop where
  unlinked : turn.linked = false
  next : ∀ f call, turn.next = some (f, call) →
    f.stage.grip = .link ∧ ∀ caller, (Effect.call caller call).isLinkCall = false

/-- A fetch that is over does not touch its link. -/
theorem keepsLink_finished (outcome : Outcome) (warnings : List Warning) :
    (Fetch.finished outcome warnings).KeepsLink :=
  ⟨rfl, fun _ _ hnext => by cases hnext⟩

/-- A fetch that reads on keeps its link. -/
theorem keepsLink_proceed (f : Fetch) (id : FetchId) (warnings : List Warning)
    (targets : List Target) : (f.proceed id warnings targets).KeepsLink := by
  cases targets with
  | nil => exact keepsLink_finished _ warnings
  | cons target rest =>
    refine ⟨rfl, fun _ _ hnext => ?_⟩
    cases hnext
    exact ⟨rfl, fun _ => rfl⟩

/-- What the radio holds is still what the fetch has, if the fetch keeps its link. -/
theorem Holds.keepsLink (h : Holds p a) (htracks : p.Tracks) {id : FetchId} {f : Fetch}
    {turn : Fetch.Turn} {cache : Cache} (hf : p.fetches.get? id = some f)
    (hstage : f.stage.grip = .link) (hturn : turn.KeepsLink) :
    Holds (p.applyTurn id f.epoch turn cache).pipeline
      ((p.applyTurn id f.epoch turn cache).effects.foldl Adapter.called a) := by
  obtain ⟨g, hg, rfl, -, -, -, -⟩ := htracks.underway hf
  obtain ⟨hfits, hclosing⟩ := h.underway hg hf
  rw [hstage] at hfits
  have hcalled : (p.applyTurn g.fetch f.epoch turn cache).effects.foldl Adapter.called a = a := by
    rw [foldl_called_applyTurn]
    rcases hnext : turn.next with _ | ⟨next, call⟩
    · rfl
    · exact called_of_not_isLinkCall a ((hturn.next next call hnext).2 _)
  have hlinks : (p.applyTurn g.fetch f.epoch turn cache).pipeline.links = p.links := by
    rw [links_applyTurn, hturn.unlinked]
    rfl
  rw [hcalled]
  refine holds_applyTurn htracks hg hf (hfits.of_links hlinks) hclosing ?_ ?_
  · intro next call hnext
    exact (hturn.next next call hnext).1
  · intro outcome _ hgrip
    cases hgrip

/-- The radio answers an attempt to connect. -/
theorem answered_of_connecting {id : FetchId} {f : Fetch} (hf : p.fetches.get? id = some f)
    (hstage : f.stage = .connecting) (a : Adapter) (result : Except RadioError Unit) :
    a.answered p (.fetchAnswered id (.done result)) = a.connectAnswered id result := by
  rw [Adapter.answered, hf, if_pos]
  exact decide_eq_true hstage

/-- **An answer to a fetch** turns its attempt into a link, or ends it; a link is kept. -/
theorem Holds.answered (h : Holds p a) (htracks : p.Tracks) {id : FetchId} {f : Fetch}
    {answer : Answer} {turn : Fetch.Turn} {cache : Cache} (hf : p.fetches.get? id = some f)
    (hturn : f.Answered id answer turn) :
    Holds (p.applyTurn id f.epoch turn cache).pipeline
      ((p.applyTurn id f.epoch turn cache).effects.foldl Adapter.called
        (a.answered p (.fetchAnswered id answer))) := by
  obtain ⟨g, hg, rfl, -, -, -, -⟩ := htracks.underway hf
  obtain ⟨hfits, hclosing⟩ := h.underway hg hf
  cases hturn with
  | refused stage e =>
    rw [answered_of_connecting hf stage, foldl_called_applyTurn]
    rw [stage] at hfits
    obtain ⟨hlinks, ⟨connected, hattempts⟩, hheld⟩ := hfits
    have hfits' : Grip.Fits (p.applyTurn g.fetch f.epoch (Fetch.finished (.error e) []) cache).pipeline
        (a.connectAnswered g.fetch (.error e)) g .nothing := by
      refine ⟨(links_applyTurn ..).trans hlinks, ?_, hheld⟩
      simp [Adapter.connectAnswered, hattempts]
    refine holds_applyTurn htracks hg hf hfits' hclosing ?_ ?_
    · intro next call hnext
      cases hnext
    · intro outcome _ hgrip
      cases hgrip
  | connected stage =>
    rw [answered_of_connecting hf stage, foldl_called_applyTurn]
    rw [stage] at hfits
    obtain ⟨hlinks, ⟨connected, hattempts⟩, hheld⟩ := hfits
    -- the attempt has become a link, on both sides
    have hfits' : ∀ turn : Fetch.Turn, turn.linked = true →
        Grip.Fits (p.applyTurn g.fetch f.epoch turn cache).pipeline
          (a.connectAnswered g.fetch (.ok ())) g .link := by
      intro turn hlinked
      refine ⟨?_, ?_, ?_⟩
      · rw [links_applyTurn, if_pos hlinked, hlinks]
        rfl
      · simp [Adapter.connectAnswered, hattempts]
      · simp [Adapter.connectAnswered, hheld]
    refine holds_applyTurn htracks hg hf (hfits' _ rfl) hclosing ?_ ?_
    · intro next call hnext
      cases hnext
      rfl
    · intro outcome _ hgrip
      cases hgrip
  | undiscovered stage e =>
    exact h.keepsLink htracks hf (by rw [stage]; rfl) (keepsLink_finished _ _)
  | discovered stage services =>
    have hkeeps := keepsLink_proceed f g.fetch [] (targets services)
    exact h.keepsLink htracks hf (by rw [stage]; rfl) ⟨hkeeps.unlinked, hkeeps.next⟩
  | read target rest stage value =>
    exact h.keepsLink htracks hf (by rw [stage]; rfl) (keepsLink_proceed _ _ _ _)
  | dropped target rest stage e loss =>
    exact h.keepsLink htracks hf (by rw [stage]; rfl) (keepsLink_finished _ _)
  | skipped target rest stage e loss =>
    exact h.keepsLink htracks hf (by rw [stage]; rfl) (keepsLink_proceed _ _ _ _)

/-! ### Happenings -/

/-- An answer that nobody waits for is not one that the radio gives. -/
theorem Holds.answered_of_ignores (h : Holds p a) {move : Move} (hmove : p.Ignores move) :
    a.answered p move = a := by
  cases move with
  | closed result =>
    have hnone : a.closing = none := by
      cases h with
      | busy g inFlight grip fits closing => exact closing
      | free inFlight waits links silent => rw [silent]; rfl
      | disconnecting inFlight waits => cases hmove.symm.trans waits
      | cancelling inFlight waits => cases hmove.symm.trans waits
    cases result with
    | answered _ => rw [Adapter.answered, Adapter.closeAnswered, hnone]
    | timedOut => rfl
  | fetchAnswered id answer =>
    cases answer with
    | done result =>
      rw [Adapter.answered, if_neg]
      intro hconnecting
      obtain ⟨f, hf, hstage⟩ := (Option.any_eq_true _ _).mp hconnecting
      -- a fetch that waits to be connected goes on with any answer of this kind
      have hnone := hmove f hf
      rw [Fetch.resume.eq_def, of_decide_eq_true hstage] at hnone
      cases result with
      | ok _ => cases hnone
      | error e => cases hnone
    | services result => rfl
    | value result => rfl
  | send | hear | takeCommand | takeSighting | scanAnswered | fetchBegins | fetchExpires => rfl

/-- **A closed link is gone**, and the driver goes on with nothing held. -/
theorem Holds.closed (h : Holds p a) (hidle : p.inFlight = none) (hclosing : p.isClosing = true)
    {s : Step} (hs : p.GoesOn s) :
    Holds s.pipeline (s.effects.foldl Adapter.called a.closeAnswered) := by
  have hsilent : p.links = [] ∧ a.closeAnswered = .silent := by
    obtain ⟨attempts, held, closing⟩ := a
    cases h with
    | busy g inFlight => cases hidle.symm.trans inFlight
    | free inFlight waits => cases hclosing.symm.trans waits
    | disconnecting inFlight waits link links hattempts hheld hcall =>
      obtain rfl : attempts = [] := hattempts
      obtain rfl : closing = some (.disconnect link) := hcall
      have hgone : held.filter (· ≠ link) = [] := by
        rw [List.filter_eq_nil_iff]
        intro other hother
        simpa using List.mem_singleton.mp (hheld.subset hother)
      refine ⟨links, ?_⟩
      change (⟨[], held.filter (· ≠ link), none⟩ : Adapter) = _
      rw [hgone]
      rfl
    | cancelling inFlight waits peer links hattempts hheld hcall =>
      obtain rfl : held = [] := hheld
      obtain rfl : closing = some (.cancelConnect peer) := hcall
      refine ⟨links, ?_⟩
      rcases hattempts with hnone | ⟨link, connected, hone⟩
      · obtain rfl : attempts = [] := hnone
        rfl
      · obtain rfl : attempts = [⟨link, peer, connected⟩] := hone
        simp [Adapter.closeAnswered, Adapter.silent]
  rw [hsilent.2, foldl_called_of_isQuiet _ hs.quiet]
  exact hs.holds_silent hidle hsilent.1

/-- **Every fair move keeps what is held.** -/
theorem Holds.move (h : Holds p a) (hp : p.Coherent) (config : Config) (now : Timestamp)
    (cache : Cache) {move : Move} (hmove : (Happening.moves now move).IsFair) :
    Holds (p.move config now cache move).pipeline
      ((p.move config now cache move).effects.foldl Adapter.called (a.answered p move)) := by
  have hmoves := hp.moves config now cache move
  generalize p.move config now cache move = s at hmoves
  cases hmoves with
  | rests move ignores =>
    rw [h.answered_of_ignores ignores]
    exact h
  | sent command =>
    have hgenuine : (Move.send command).IsGenuine := by
      cases command with
      | sync ticket => trivial
      | shutdown ticket => trivial
      | report id epoch said => cases hmove
    exact h.of_eq rfl rfl rfl rfl fun _ hr =>
      Pipeline.reports_send hgenuine.reportOf?_eq_none ▸ hr
  | heard sighting => exact h.of_eq rfl rfl rfl rfl fun _ hr => hr
  | dealt command rest s closing commands step => exact step.holds hp.tracks h closing commands
  | sighted s closing step => exact step.holds h closing
  | scanned result s closing step => exact step.holds h closing
  | closed result s closing step =>
    cases result with
    | answered result =>
      exact h.closed (hp.control.idle_of_isClosing closing) closing step
    | timedOut => cases hmove
  | begun id f fetch stage => exact h.begun hp.tracks fetch stage
  | answered id f fetch answer turn answered => exact h.answered hp.tracks fetch answered
  | expired id f fetch outcome late => exact h.expired hp.tracks fetch late

/-- The state of an attempt may change, but not whose it is. -/
theorem Adapter.attempts_turns {link id : FetchId} {peer : RadioId} {before : Bool}
    (h : a.attempts = [⟨id, peer, before⟩]) (connected : Bool) :
    ∃ now, (a.turns link connected).attempts = [⟨id, peer, now⟩] := by
  rw [turns, h]
  by_cases hid : id = link
  · exact ⟨connected, by simp [hid]⟩
  · exact ⟨before, by simp [hid]⟩

/-- An attempt that gets through, or fails again, stays the attempt it is. -/
theorem Holds.turns (h : Holds p a) (link : FetchId) (connected : Bool) :
    Holds p (a.turns link connected) := by
  have hempty : a.attempts = [] → (a.turns link connected).attempts = [] := fun hnone =>
    congrArg (List.map _) hnone
  cases h with
  | busy g inFlight grip fits closing stage late =>
    refine .busy g inFlight grip ?_ closing stage late
    cases grip with
    | nothing => exact ⟨fits.1, hempty fits.2.1, fits.2.2⟩
    | attempt =>
      obtain ⟨hlinks, ⟨before, hattempts⟩, hheld⟩ := fits
      exact ⟨hlinks, a.attempts_turns hattempts connected, hheld⟩
    | link => exact ⟨fits.1, hempty fits.2.1, fits.2.2⟩
  | free inFlight waits links silent =>
    rw [silent]
    exact .free inFlight waits links rfl
  | disconnecting inFlight waits other links attempts held closing =>
    exact .disconnecting inFlight waits other links (hempty attempts) held closing
  | cancelling inFlight waits peer links attempts held closing =>
    refine .cancelling inFlight waits peer links ?_ held closing
    rcases attempts with hnone | ⟨id, before, hone⟩
    · exact .inl (hempty hnone)
    · obtain ⟨now, hnow⟩ := a.attempts_turns hone connected
      exact .inr ⟨id, now, hnow⟩

/-- A lost link is one that the fetch, or the driver, need not close. -/
theorem Holds.loses (h : Holds p a) (link : FetchId) : Holds p (a.loses link) := by
  have hempty : a.links = [] → (a.loses link).links = [] := fun hnone =>
    congrArg (List.filter _) hnone
  cases h with
  | busy g inFlight grip fits closing stage late =>
    refine .busy g inFlight grip ?_ closing stage late
    cases grip with
    | nothing => exact ⟨fits.1, fits.2.1, hempty fits.2.2⟩
    | attempt => exact ⟨fits.1, fits.2.1, hempty fits.2.2⟩
    | link => exact ⟨fits.1, fits.2.1, List.filter_sublist.trans fits.2.2⟩
  | free inFlight waits links silent =>
    rw [silent]
    exact .free inFlight waits links rfl
  | disconnecting inFlight waits other links attempts held closing =>
    exact .disconnecting inFlight waits other links attempts (List.filter_sublist.trans held) closing
  | cancelling inFlight waits peer links attempts held closing =>
    exact .cancelling inFlight waits peer links attempts (hempty held) closing

/-- **What is held is one connection at most**, and none unless a fetch is in flight or a link is
about to be closed. -/
theorem Holds.connections_le (h : Holds p a) :
    a.connections ≤ 1 ∧ (p.inFlight = none → p.isClosing = false → a.connections = 0) := by
  rw [Adapter.connections]
  cases h with
  | busy g inFlight grip fits closing stage late =>
    refine ⟨?_, fun hidle => (by cases hidle.symm.trans inFlight)⟩
    -- the fetch in flight has nothing, an attempt that may have got through, or a link
    cases grip with
    | nothing => simp [fits.2.1, fits.2.2]
    | attempt =>
      obtain ⟨-, ⟨connected, hattempts⟩, hheld⟩ := fits
      rw [hattempts, hheld]
      exact List.countP_le_length
    | link =>
      rw [fits.2.1]
      simpa using fits.2.2.length_le
  | free inFlight waits links silent =>
    rw [silent]
    exact ⟨Nat.zero_le 1, fun _ _ => rfl⟩
  | disconnecting inFlight waits link links attempts held closing =>
    refine ⟨?_, fun _ hclosing => (by cases hclosing.symm.trans waits)⟩
    rw [attempts]
    simpa using held.length_le
  | cancelling inFlight waits peer links attempts held closing =>
    refine ⟨?_, fun _ hclosing => (by cases hclosing.symm.trans waits)⟩
    rw [held]
    rcases attempts with hnone | ⟨link, connected, hone⟩
    · rw [hnone]
      exact Nat.zero_le 1
    · rw [hone]
      exact List.countP_le_length

namespace System

/-- The invariant of pipeline and radio. -/
structure IsSound (s : System) : Prop where
  coherent : s.pipeline.Coherent
  holds : Holds s.pipeline s.adapter

theorem isSound_initial (cache : Cache) : (initial cache).IsSound :=
  ⟨Pipeline.coherent_initial, .free rfl rfl rfl rfl⟩

/-- Whatever happens leaves a system sound, if links are closed in time. -/
theorem IsSound.after {s : System} (h : s.IsSound) (config : Config) {happening : Happening}
    (hfair : happening.IsFair) : (s.after config happening).IsSound := by
  cases happening with
  | moves now move =>
    have hgenuine : move.IsGenuine := by
      cases move with
      | send command =>
        cases command with
        | sync ticket => trivial
        | shutdown ticket => trivial
        | report id epoch said => cases hfair
      | hear | takeCommand | takeSighting | scanAnswered | closed | fetchBegins | fetchAnswered
      | fetchExpires => trivial
    exact ⟨h.coherent.move config now s.cache hgenuine,
      h.holds.move h.coherent config now s.cache hfair⟩
  | caches cache => exact ⟨h.coherent, h.holds⟩
  | turns link connected => exact ⟨h.coherent, h.holds.turns link connected⟩
  | loses link => exact ⟨h.coherent, h.holds.loses link⟩

theorem IsSound.run {s : System} (h : s.IsSound) (config : Config) {happenings : List Happening}
    (hfair : ∀ x ∈ happenings, x.IsFair) : (s.run config happenings).IsSound := by
  induction happenings generalizing s with
  | nil => exact h
  | cons x rest ih =>
    obtain ⟨hx, hrest⟩ := List.forall_mem_cons.mp hfair
    exact ih (h.after config hx) hrest

/-- **At most one connection is ever held**, whatever happens and in whatever order; and none while
no fetch is in flight, except that the driver may be about to close the link of the last one. So
none is held whenever the driver waits for its next message, or has stopped, without a fetch. -/
theorem connections_le_one (config : Config) (cache : Cache) {happenings : List Happening}
    (hfair : ∀ x ∈ happenings, x.IsFair) :
    let s := (initial cache).run config happenings
    s.adapter.connections ≤ 1 ∧
      (s.pipeline.inFlight = none → s.pipeline.isClosing = false → s.adapter.connections = 0) :=
  ((isSound_initial cache).run config hfair).holds.connections_le

/-- Somebody subscribes, a peer is met, and the attempt to connect to it gets through, but the answer
does not come in time. -/
def encounter : List Happening :=
  [.caches { Cache.new .default with subscriptions := [⟨"", ⟨"list"⟩⟩] },
    .moves ⟨0⟩ (.send (.sync 0)), .moves ⟨1⟩ .takeCommand, .moves ⟨2⟩ (.scanAnswered (.ok ())),
    .moves ⟨3⟩ (.hear ⟨⟨"aa"⟩, Stamp.payload ⟨7⟩⟩), .moves ⟨4⟩ .takeSighting,
    .moves ⟨5⟩ (.scanAnswered (.ok ())), .moves ⟨6⟩ (.fetchBegins 0), .turns 0 true,
    .moves ⟨7⟩ (.fetchExpires 0)]

/-- The driver has the attempt taken back. -/
def withdrawal : List Happening :=
  [.moves ⟨8⟩ .takeCommand, .moves ⟨9⟩ (.closed (.answered (.ok ()))),
    .moves ⟨10⟩ (.scanAnswered (.ok ()))]

theorem connections_encounter :
    ((initial (.new .default)).run .default encounter).adapter.connections = 1 ∧
      ((initial (.new .default)).run .default (encounter ++ withdrawal)).adapter.connections = 0 := by
  have hfair : ∀ x ∈ encounter ++ withdrawal, x.IsFair := by
    simp [encounter, withdrawal, Happening.IsFair]
  have hrest := (connections_le_one .default (.new .default) hfair).2
  refine ⟨by decide +kernel, hrest ?_ ?_⟩
  · decide +kernel
  · decide +kernel

end System

end Nearby.Scan
