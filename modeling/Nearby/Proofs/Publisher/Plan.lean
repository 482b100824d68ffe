import Nearby.Proofs.Table
import Nearby.Publisher.Reconcile

/-!
# The way to a desired state

A plan leads from what the radio is believed to do to what it should do. Which tasks it holds is
told by the two states alone (`Belief.stop_mem_plan` and the lemmas after it), and their order is
that of their stages (`Belief.ordered_plan`): the broadcast stops first and starts last, and services
go before others come.
-/

namespace Nearby

namespace Task

/-- The part of a plan a task belongs to. -/
def stage : Task → Nat
  | .stopBroadcast => 0
  | .unregister _ => 1
  | .register .. => 2
  | .startBroadcast _ => 3

/-- A task that stands before another one in a plan. -/
def Precedes (a b : Task) : Prop := a.stage ≤ b.stage ∧ a ≠ b

/-- No task is repeated, and none comes before a task of an earlier stage. -/
def Ordered (tasks : List Task) : Prop := tasks.Pairwise Precedes

theorem Ordered.tail {task : Task} {rest : List Task} (h : Ordered (task :: rest)) : Ordered rest :=
  (List.pairwise_cons.mp h).2

/-- A task comes before those that follow it. -/
theorem Ordered.stage_le {task : Task} {rest : List Task} (h : Ordered (task :: rest)) {t : Task}
    (ht : t ∈ rest) : task.stage ≤ t.stage := ((List.pairwise_cons.mp h).1 t ht).1

/-- No task is planned twice. -/
theorem Ordered.notMem {task : Task} {rest : List Task} (h : Ordered (task :: rest)) : task ∉ rest :=
  fun hmem => ((List.pairwise_cons.mp h).1 task hmem).2 rfl

/-- Tasks in order, none of which comes after the stage. -/
structure OrderedUpTo (stage : Nat) (tasks : List Task) : Prop where
  ordered : Ordered tasks
  stage_le : ∀ t ∈ tasks, t.stage ≤ stage

/-- The tasks of the next stage follow. -/
theorem OrderedUpTo.append {n : Nat} {tasks next : List Task} (h : OrderedUpTo n tasks)
    (hnodup : next.Nodup) (hstage : ∀ t ∈ next, t.stage = n + 1) :
    OrderedUpTo (n + 1) (tasks ++ next) := by
  have hnext : Ordered next := hnodup.imp_of_mem fun ha hb hne =>
    ⟨Nat.le_of_eq ((hstage _ ha).trans (hstage _ hb).symm), hne⟩
  refine ⟨List.pairwise_append.mpr ⟨h.ordered, hnext, fun a ha b hb => ?_⟩,
    List.forall_mem_append.mpr ⟨fun t ht => ?_, fun t ht => ?_⟩⟩
  · have hlt : a.stage < b.stage := by
      rw [hstage b hb]
      exact Nat.lt_succ_of_le (h.stage_le a ha)
    refine ⟨Nat.le_of_lt hlt, ?_⟩
    rintro rfl
    exact Nat.lt_irrefl _ hlt
  · exact Nat.le_succ_of_le (h.stage_le t ht)
  · exact Nat.le_of_eq (hstage t ht)

end Task

namespace Belief

variable {b : Belief} {d : Desired} {service : Uuid} {characteristics : Characteristics}
  {stamp : Stamp}

/-- What is kept is installed and desired alike. -/
theorem get?_kept_eq_some_iff : (b.kept d).get? service = some characteristics ↔
    b.installed.get? service = some characteristics ∧
      d.services.get? service = some characteristics := by
  rw [kept, Table.get?_filter, Option.filter_eq_some_iff, decide_eq_true_eq]

theorem get?_kept_eq_none (h : ∀ characteristics, b.installed.get? service = some characteristics →
    d.services.get? service ≠ some characteristics) : (b.kept d).get? service = none := by
  refine Option.eq_none_iff_forall_ne_some.mpr fun characteristics hkept => ?_
  obtain ⟨hinstalled, hdesired⟩ := get?_kept_eq_some_iff.mp hkept
  exact h characteristics hinstalled hdesired

/-- A service is stale if it is installed and not desired in this form. -/
theorem mem_stale : service ∈ b.stale d ↔
    ∃ characteristics, b.installed.get? service = some characteristics ∧
      d.services.get? service ≠ some characteristics := by
  rw [stale, Table.mem_keys]
  simp only [Table.get?_filter, Option.filter_eq_some_iff, decide_eq_true_eq]

/-- A service is missing if it is desired and not installed in this form. -/
theorem mem_missing : (service, characteristics) ∈ (b.missing d).entries ↔
    d.services.get? service = some characteristics ∧
      b.installed.get? service ≠ some characteristics := by
  rw [← Table.get?_eq_some_iff, missing, Table.get?_filter, Option.filter_eq_some_iff]
  refine and_congr_right fun hdesired => ?_
  rw [Table.contains, Bool.not_eq_true', Option.isSome_eq_false_iff, Option.isNone_iff_eq_none]
  constructor
  · intro hnone hinstalled
    cases hnone.symm.trans (get?_kept_eq_some_iff.mpr ⟨hinstalled, hdesired⟩)
  · refine fun hne => get?_kept_eq_none fun other hinstalled hother => ?_
    obtain rfl := Option.some.inj (hdesired.symm.trans hother)
    exact hne hinstalled

/-! ## The tasks of a plan -/

/-- A broadcast is stopped if there is one. -/
theorem stop_mem_plan : .stopBroadcast ∈ b.plan d ↔ b.broadcasting = true := by
  simp [plan]

theorem unregister_mem_plan : .unregister service ∈ b.plan d ↔ service ∈ b.stale d := by
  simp [plan]

theorem register_mem_plan : .register service characteristics ∈ b.plan d ↔
    (service, characteristics) ∈ (b.missing d).entries := by
  simp [plan]

/-- One is started if a stamp is desired. -/
theorem start_mem_plan : .startBroadcast stamp ∈ b.plan d ↔ d.stamp = some stamp := by
  simp [plan]

/-- **A plan goes from stage to stage.** -/
theorem ordered_plan (b : Belief) (d : Desired) : Task.Ordered (b.plan d) := by
  have hstop : Task.OrderedUpTo 0 (if b.broadcasting then [.stopBroadcast] else []) := by
    split
    · exact ⟨List.pairwise_singleton _ _, List.forall_mem_singleton.mpr (Nat.le_refl 0)⟩
    · exact ⟨List.Pairwise.nil, List.forall_mem_nil _⟩
  have hunregister : ((b.stale d).map Task.unregister).Nodup :=
    (Table.nodup_keys _).map fun _ _ heq => Task.unregister.inj heq
  have hregister : ((b.missing d).entries.map fun e => Task.register e.1 e.2).Nodup := by
    refine (Table.nodup_entries _).map fun x y heq => ?_
    obtain ⟨hservice, hcharacteristics⟩ := Task.register.inj heq
    exact Prod.ext hservice hcharacteristics
  have hstart : (d.stamp.toList.map Task.startBroadcast).Nodup := by
    cases d.stamp with
    | none => exact List.nodup_nil
    | some stamp => exact List.nodup_singleton _
  have hgone := hstop.append hunregister (List.forall_mem_map.mpr fun _ _ => rfl)
  have hcome := hgone.append hregister (List.forall_mem_map.mpr fun _ _ => rfl)
  exact (hcome.append hstart (List.forall_mem_map.mpr fun _ _ => rfl)).ordered

end Belief

end Nearby
