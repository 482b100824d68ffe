import Nearby.Proofs.Publisher.Convergence
import Nearby.Proofs.Publisher.Handover

/-!
# An idle radio

The driver takes something back from the radio only where it believes that there is something, and
it does so once. So the radio is idle exactly if the driver has set out to take back all that it has
brought about (`Logbook.HasWithdrawn`), and none of its attempts has failed for good
(`Logbook.NothingLingers`). This holds at all times, whether or not the driver has something to do
(`Logbook.Converges.presence_eq_idle_iff`).

However its calls are answered, the driver never takes anything for installed that is not asked for
(`Logbook.IsWithin`). So it has taken everything back by the time it has applied a state that asks
for nothing.
-/

namespace Nearby

namespace Belief

/-- What is taken for installed is desired, and so is what is still to come. -/
structure IsWithin (b : Belief) (d : Desired) (left : List Task) : Prop where
  installed : ∀ service characteristics, b.installed.get? service = some characteristics →
    d.services.get? service = some characteristics
  registers : ∀ service characteristics, .register service characteristics ∈ left →
    d.services.get? service = some characteristics
  starts : ∀ stamp, .startBroadcast stamp ∈ left → d.stamp = some stamp
  silent : d.stamp = none → b.broadcasting = false

variable {b : Belief} {d : Desired} {task : Task} {left : List Task}

/-- Only what is desired is kept, and only that is registered. -/
theorem isWithin_depart (b : Belief) (d : Desired) : (b.depart d).IsWithin d (b.plan d) where
  installed _ _ hkept := (get?_kept_eq_some_iff.mp hkept).2
  registers _ _ hmem := (mem_missing.mp (register_mem_plan.mp hmem)).1
  starts _ hmem := start_mem_plan.mp hmem
  silent _ := rfl

/-- What a task brings about is desired, if it ends well, and nothing comes of it if it fails. -/
theorem IsWithin.settle (h : b.IsWithin d (task :: left)) (result : Except RadioError Unit) :
    (b.settle task result).IsWithin d left := by
  have hregisters := fun service characteristics hmem =>
    h.registers service characteristics (.tail _ hmem)
  have hstarts := fun stamp hmem => h.starts stamp (.tail _ hmem)
  cases result with
  | error e => exact ⟨h.installed, hregisters, hstarts, h.silent⟩
  | ok _ =>
    cases task with
    | stopBroadcast => exact ⟨h.installed, hregisters, hstarts, h.silent⟩
    | unregister service => exact ⟨h.installed, hregisters, hstarts, h.silent⟩
    | register service characteristics =>
      refine ⟨fun other found hfound => ?_, hregisters, hstarts, h.silent⟩
      change (b.installed.insert service characteristics).get? other = some found at hfound
      by_cases hsame : other = service
      · subst hsame
        rw [Table.get?_insert_self] at hfound
        obtain rfl := Option.some.inj hfound
        exact h.registers other characteristics List.mem_cons_self
      · rw [Table.get?_insert_of_ne _ hsame] at hfound
        exact h.installed other found hfound
    | startBroadcast stamp =>
      refine ⟨h.installed, hregisters, hstarts, fun hnone => ?_⟩
      cases hnone.symm.trans (h.starts stamp List.mem_cons_self)

end Belief

namespace Publisher.Logbook

variable {l : Logbook} {manufacturerId : UInt16}

/-! ## What the driver is after -/

/-- The state that was taken up last. -/
def aim (l : Logbook) : Desired := l.taken.getLast?.getD .initial

/-- **The invariant of the belief**, however the radio answers: it does not go beyond the state that
was taken up last. -/
def IsWithin (l : Logbook) : Prop := l.publisher.belief.IsWithin l.aim l.left

theorem isWithin_initial : initial.IsWithin where
  installed _ _ hsome := by cases hsome
  registers _ _ hmem := by cases hmem
  starts _ hmem := by cases hmem
  silent _ := rfl

theorem aim_proceed (l : Logbook) (p : Publisher) (a : Application) (tasks : List Task) :
    (l.proceed p a tasks).aim = a.desired := by
  rw [aim, taken_proceed, List.getLast?_concat]
  rfl

theorem aim_of_busy {a : Application} (hbusy : l.present = some a) : l.aim = a.desired := by
  rw [aim, taken, applications_of_busy hbusy, List.map_append, List.map_singleton,
    List.getLast?_concat]
  rfl

/-- **Every move keeps the belief within what is asked for.** -/
theorem IsWithin.move (h : l.IsWithin) (hfits : l.Fits) (manufacturerId : UInt16) (move : Move) :
    (l.move manufacturerId move).IsWithin := by
  have hmoves := hfits.moves manufacturerId move
  generalize l.move manufacturerId move = m at hmoves
  cases hmoves with
  | rests => exact h
  | takes idle unseen =>
    rw [IsWithin, aim_proceed, belief_proceed, left_proceed]
    exact Belief.isWithin_depart _ _
  | answers a task rest result present applying plan =>
    rw [IsWithin, aim_of_busy present, left_of_applying applying] at h
    rw [IsWithin, aim_proceed, belief_proceed, left_proceed]
    exact h.settle result

/-! ## What lingers -/

/-- Nothing is left behind that the driver has failed to take back. -/
structure NothingLingers (l : Logbook) : Prop where
  services : ∀ service, lingers l.ended service = false
  broadcast : broadcastLingers l.ended = false

/-- A move ends one task at most. -/
theorem ended_move (hfits : l.Fits) (manufacturerId : UInt16) (move : Move) :
    (l.move manufacturerId move).ended = l.ended ∨
      ∃ task result, move = .answered result ∧
        (l.move manufacturerId move).ended = l.ended ++ [⟨task, result⟩] := by
  have hmoves := hfits.moves manufacturerId move
  generalize l.move manufacturerId move = m at hmoves
  cases hmoves with
  | rests => exact .inl rfl
  | takes idle unseen => exact .inl (ended_proceed_of_idle idle ..)
  | answers a task rest result present applying plan =>
    exact .inr ⟨task, result, rfl, ended_proceed_of_busy present ..⟩

/-- **Nothing comes to linger where the radio does as it is told.** -/
theorem NothingLingers.move (h : l.NothingLingers) (hfits : l.Fits) (manufacturerId : UInt16)
    {move : Move} (hok : ∀ e, move ≠ .answered (.error e)) :
    (l.move manufacturerId move).NothingLingers := by
  obtain hsame | ⟨task, result, rfl, hended⟩ := ended_move hfits manufacturerId move
  · exact ⟨hsame ▸ h.services, hsame ▸ h.broadcast⟩
  · have hisOk : (⟨task, result⟩ : Ended).isOk = true := by
      cases result with
      | ok _ => rfl
      | error e => exact absurd rfl (hok e)
    refine ⟨fun service => ?_, ?_⟩
    · rw [hended, lingers_concat, h.services service]
      exact lingersAfter_of_isOk hisOk service
    · rw [hended, broadcastLingers_concat, h.broadcast]
      exact broadcastLingersAfter_of_isOk hisOk

/-! ## What is taken back -/

/-- The driver has set out to take everything back, and none of this is still to be done. -/
structure HasWithdrawn (l : Logbook) : Prop where
  installed : l.publisher.belief.installed = ∅
  broadcasting : l.publisher.belief.broadcasting = false
  services : ∀ service, .unregister service ∉ l.left
  broadcast : .stopBroadcast ∉ l.left

/-- **The radio is idle exactly if the driver has taken everything back and nothing lingers.** -/
theorem Converges.presence_eq_idle_iff (h : l.Converges manufacturerId) :
    l.presence manufacturerId = .idle ↔ l.NothingLingers ∧ l.HasWithdrawn := by
  obtain ⟨hservice, hbroadcast⟩ := h.knows
  generalize l.presence manufacturerId = p at hservice hbroadcast
  constructor
  · rintro rfl
    -- whatever is to be taken back, or could not be, is there
    have hgone : ∀ service,
        ¬(.unregister service ∈ l.left ∨ lingers l.ended service = true) := fun service hgone => by
      cases ((hservice service).gone hgone).2
    have hquiet : ¬(.stopBroadcast ∈ l.left ∨ broadcastLingers l.ended = true) := fun hgone => by
      cases (hbroadcast.gone hgone).2
    have hlingers : ∀ service, lingers l.ended service = false := fun service =>
      (Bool.not_eq_true _).mp fun htrue => hgone service (.inr htrue)
    have hbroadcastLingers : broadcastLingers l.ended = false :=
      (Bool.not_eq_true _).mp fun htrue => hquiet (.inr htrue)
    refine ⟨⟨hlingers, hbroadcastLingers⟩, ?_, ?_, fun service hmem => hgone service (.inl hmem),
      fun hmem => hquiet (.inl hmem)⟩
    · refine Table.ext_get? fun service => ?_
      exact ((hservice service).known (fun hmem => hgone service (.inl hmem))
        (hlingers service)).symm
    · exact (hbroadcast.known (fun hmem => hquiet (.inl hmem)) hbroadcastLingers).symm
  · rintro ⟨⟨hlingers, hbroadcastLingers⟩, hinstalled, hbroadcasting, hservices, hstop⟩
    have hserved : p.services = ∅ := by
      refine Table.ext_get? fun service => ?_
      rw [(hservice service).known (hservices service) (hlingers service), hinstalled]
    have hsilent : p.broadcast = none := by
      have hknown := hbroadcast.known hstop hbroadcastLingers
      rw [hbroadcasting] at hknown
      simpa using hknown
    obtain ⟨services, broadcast⟩ := p
    obtain rfl : services = ∅ := hserved
    obtain rfl : broadcast = none := hsilent
    rfl

/-- A driver with nothing to do has taken everything back, if it is after nothing. -/
theorem IsWithin.hasWithdrawn (h : l.IsWithin) (hleft : l.left = []) (hservices : l.aim.services = ∅)
    (hstamp : l.aim.stamp = none) : l.HasWithdrawn := by
  refine ⟨Table.ext_get? fun service => ?_, h.silent hstamp, ?_, ?_⟩
  · refine (Option.eq_none_iff_forall_ne_some.mpr fun characteristics hsome => ?_).trans
      (Table.get?_empty service).symm
    have hdesired := h.installed service characteristics hsome
    rw [hservices] at hdesired
    cases hdesired
  · rw [hleft]
    exact fun _ => List.not_mem_nil
  · rw [hleft]
    exact List.not_mem_nil

end Publisher.Logbook

end Nearby
