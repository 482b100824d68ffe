import Nearby.Scan.Fetch

/-!
# The turns of a fetch

An answer takes a fetch from one call to the next, and `Fetch.Answered` lists how. From there it is
short to what others see of a turn (`Fetch.Turn.Fits`): the fetch goes on and reports phases at most,
or it is over, and its outcome is the last that it reports.
-/

namespace Nearby.Scan

/-- True for the report of a new phase. -/
def Report.isPhase : Report → Bool
  | .phase _ => true
  | .finished _ => false

namespace Fetch

/-- What a turn does to the fetch: it goes on, or it is over and says so last. -/
inductive Turn.Fits (f : Fetch) (turn : Turn) : Prop
  | goesOn (next : Fetch) (call : Call) (hnext : turn.next = some (next, call))
    (peer : next.peer = f.peer) (epoch : next.epoch = f.epoch)
    (reports : ∀ r ∈ turn.reports, r.isPhase = true)
  | ends (phases : List Report) (outcome : Outcome) (hnext : turn.next = none)
    (reports : turn.reports = phases ++ [.finished outcome])
    (hphases : ∀ r ∈ phases, r.isPhase = true)

/-- The last turn of a fetch fits it. -/
theorem fits_finished (f : Fetch) (outcome : Outcome) (warnings : List Warning) :
    (finished outcome warnings).Fits f :=
  .ends [] outcome rfl rfl (List.forall_mem_nil _)

theorem fits_begin (f : Fetch) (id : FetchId) : (f.begin id).Fits f :=
  .goesOn _ _ rfl rfl rfl (List.forall_mem_nil _)

/-- A fetch that reads on, for the same peer, fits. -/
theorem fits_proceed {f g : Fetch} (hpeer : g.peer = f.peer) (hepoch : g.epoch = f.epoch)
    (id : FetchId) (warnings : List Warning) (targets : List Target) :
    (g.proceed id warnings targets).Fits f := by
  cases targets with
  | nil => exact fits_finished f _ _
  | cons target rest => exact .goesOn _ _ rfl hpeer hepoch (List.forall_mem_nil _)

/-- A report of a phase before what a turn reports anyway. -/
theorem Turn.Fits.phase {f : Fetch} {turn : Turn} (h : turn.Fits f) (phase : Phase) :
    ({ turn with reports := .phase phase :: turn.reports } : Turn).Fits f := by
  cases h with
  | goesOn next call hnext hpeer hepoch hreports =>
    exact .goesOn next call hnext hpeer hepoch (List.forall_mem_cons.mpr ⟨rfl, hreports⟩)
  | ends phases outcome hnext hreports hphases =>
    refine .ends (.phase phase :: phases) outcome hnext ?_ (List.forall_mem_cons.mpr ⟨rfl, hphases⟩)
    exact congrArg (Report.phase phase :: ·) hreports

/-- What the answer to the call of a fetch leads to. -/
inductive Answered (f : Fetch) (id : FetchId) : Answer → Turn → Prop
  | refused (stage : f.stage = .connecting) (e : RadioError) :
    Answered f id (.done (.error e)) (finished (.error e) [])
  | connected (stage : f.stage = .connecting) :
    Answered f id (.done (.ok ()))
      ⟨some ({ f with stage := .discovering }, .discover id), [.phase .discovering], [], true⟩
  | undiscovered (stage : f.stage = .discovering) (e : RadioError) :
    Answered f id (.services (.error e)) (finished (.error e) [])
  | discovered (stage : f.stage = .discovering) (services : List RemoteService) :
    Answered f id (.services (.ok services))
      { f.proceed id [] (targets services) with
        reports := .phase .reading :: (f.proceed id [] (targets services)).reports }
  | read (target : Target) (rest : List Target) (stage : f.stage = .reading target rest)
    (value : Bytes) :
    Answered f id (.value (.ok value))
      (proceed { f with readings := f.readings.record target value } id [] rest)
  | dropped (target : Target) (rest : List Target) (stage : f.stage = .reading target rest)
    (e : RadioError) (loss : e.isLinkLoss = true) :
    Answered f id (.value (.error e)) (finished (.error e) [])
  | skipped (target : Target) (rest : List Target) (stage : f.stage = .reading target rest)
    (e : RadioError) (loss : e.isLinkLoss = false) :
    Answered f id (.value (.error e))
      (f.proceed id [.readSkipped target.characteristic f.peer e] rest)

/-- A fetch that goes on was waiting for the answer. -/
theorem answered_of_resume {f : Fetch} {id : FetchId} {answer : Answer} {turn : Turn}
    (h : f.resume id answer = some turn) : f.Answered id answer turn := by
  rw [resume.eq_def] at h
  rcases hstage : f.stage with _ | _ | _ | ⟨target, rest⟩
  · rw [hstage] at h
    rcases answer with result | result | result
    · cases h
    · cases h
    · cases h
  · rw [hstage] at h
    rcases answer with (e | _) | result | result
    · cases h
      exact .refused hstage e
    · cases h
      exact .connected hstage
    · cases h
    · cases h
  · rw [hstage] at h
    rcases answer with result | (e | services) | result
    · cases h
    · cases h
      exact .undiscovered hstage e
    · cases h
      exact .discovered hstage services
    · cases h
  · rw [hstage] at h
    rcases answer with result | result | (e | value)
    · cases h
    · cases h
    · -- the fetch goes on after an error, unless the link is lost
      dsimp only at h
      by_cases hloss : e.isLinkLoss = true
      · rw [if_pos hloss] at h
        cases h
        exact .dropped target rest hstage e hloss
      · rw [if_neg hloss] at h
        cases h
        exact .skipped target rest hstage e (by simpa using hloss)
    · cases h
      exact .read target rest hstage value

/-- The turn of a fetch that was answered fits it. -/
theorem Answered.fits {f : Fetch} {id : FetchId} {answer : Answer} {turn : Turn}
    (h : f.Answered id answer turn) : turn.Fits f := by
  cases h with
  | refused stage e => exact fits_finished f _ _
  | connected stage => exact .goesOn _ _ rfl rfl rfl (List.forall_mem_singleton.mpr rfl)
  | undiscovered stage e => exact fits_finished f _ _
  | discovered stage services => exact (fits_proceed rfl rfl id _ _).phase .reading
  | read target rest stage value =>
    exact fits_proceed (f := f) (g := { f with readings := f.readings.record target value }) rfl rfl id _ _
  | dropped target rest stage e loss => exact fits_finished f _ _
  | skipped target rest stage e loss => exact fits_proceed rfl rfl id _ _

end Fetch

end Nearby.Scan
