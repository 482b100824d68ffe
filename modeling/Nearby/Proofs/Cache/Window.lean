import Nearby.Proofs.Cache.Freshness

/-!
# Windows that are longer than the clock can count

The freshness window is a duration and may be longer than the milliseconds of the clock can count. A
sweep compares ages with what a word holds of the window, and the rest of it falls off. So an entry
goes as soon as its age exceeds what is left of the window, which is less than the window itself or
all of it (`get?_sweep_eq_some_iff`).

An entry that is overdue is therefore never spared. One that is fresh is spared as long as the clock
can count the window; of the windows beyond, only those spare it of which a word full of ones is left,
since no age exceeds that (`sparesFresh_iff`). The longest duration there is happens to be one of
them.
-/

namespace Nearby

/-- Milliseconds lose nothing in a duration. -/
theorem Duration.toNanos_ofMillis (millis : UInt64) :
    (Duration.ofMillis millis).toNanos = millis.toNat * 1000000 := by
  have hseconds : (millis / 1000).toNat = millis.toNat / 1000 := UInt64.toNat_div ..
  simp only [Duration.toNanos, Duration.ofMillis, hseconds]
  omega

namespace Cache

/-- An entry is fresh if it was seen within the window, both taken for what they are. -/
def IsFresh (c : Cache) (now : Timestamp) (e : Entry) : Prop :=
  (now.durationSince e.lastSeen).toNanos ≤ c.config.freshnessWindow.toNanos

/-- A sweep spares the fresh entries. -/
def SparesFresh (c : Cache) (now : Timestamp) : Prop :=
  ∀ stamp e, c.entries.get? stamp = some e → c.IsFresh now e →
    (c.sweep now).cache.entries.get? stamp = some e

/-- Ages are counted in whole milliseconds, so the rest of the window below one does not matter. -/
theorem isFresh_iff {c : Cache} {now : Timestamp} {e : Entry} :
    c.IsFresh now e ↔
      now.millis.toNat - e.lastSeen.millis.toNat ≤ c.config.freshnessWindow.toMillis := by
  rw [IsFresh, Timestamp.durationSince, Duration.toNanos_ofMillis, toNat_since, Duration.toNanos,
    Duration.toMillis]
  omega

/-- A sweep leaves the entries that are not stale. -/
theorem get?_entries_sweep (c : Cache) (now : Timestamp) (stamp : Stamp) :
    (c.sweep now).cache.entries.get? stamp =
      (c.entries.get? stamp).filter fun e => !c.isStale now e := by
  change (c.evict (c.staleStamps now)).cache.entries.get? stamp = _
  rw [get?_entries_evict]
  rcases he : c.entries.get? stamp with _ | e
  · simp
  · have hmem : stamp ∈ c.staleStamps now ↔ c.isStale now e = true := by
      simp [mem_staleStamps, he]
    by_cases hstale : c.isStale now e = true
    · simp [hmem, hstale, Option.filter_some]
    · simp [hmem, hstale, Option.filter_some]

/-- **What is left of the window decides**: a sweep spares an entry exactly if its age does not exceed
what a word holds of the window. -/
theorem get?_sweep_eq_some_iff {c : Cache} {now : Timestamp} {stamp : Stamp} {e : Entry}
    (he : c.entries.get? stamp = some e) :
    (c.sweep now).cache.entries.get? stamp = some e ↔
      now.millis.toNat - e.lastSeen.millis.toNat ≤
        c.config.freshnessWindow.toMillis % UInt64.size := by
  have hspared : (c.sweep now).cache.entries.get? stamp = some e ↔ ¬ c.isStale now e = true := by
    simp [get?_entries_sweep, he, Option.filter_some]
  rw [hspared, isStale_iff_mod, Nat.not_lt]

/-- A window that the clock can count is kept to, and so is one that a word keeps all ones of. -/
theorem sparesFresh_of_le {c : Cache} {now : Timestamp}
    (hwindow : c.config.freshnessWindow.toMillis < UInt64.size ∨
      c.config.freshnessWindow.toMillis % UInt64.size = UInt64.size - 1) :
    c.SparesFresh now := by
  intro stamp e he hfresh
  apply (get?_sweep_eq_some_iff he).mpr
  rcases hwindow with hcounted | hones
  · rw [Nat.mod_eq_of_lt hcounted]
    exact isFresh_iff.mp hfresh
  · have hage : now.millis.toNat < UInt64.size := now.millis.toNat_lt_size
    omega

/-- Any other window evicts an entry that is fresh: one that is a millisecond older than what is left
of the window. -/
theorem exists_not_sparesFresh {config : Config}
    (hbeyond : UInt64.size ≤ config.freshnessWindow.toMillis)
    (hones : config.freshnessWindow.toMillis % UInt64.size ≠ UInt64.size - 1) :
    ∃ ops now, ¬ ((new config).run ops).SparesFresh now := by
  have hleft : config.freshnessWindow.toMillis % UInt64.size < UInt64.size :=
    Nat.mod_lt _ (by decide)
  let age := UInt64.ofNat (config.freshnessWindow.toMillis % UInt64.size + 1)
  have hage : age.toNat = config.freshnessWindow.toMillis % UInt64.size + 1 :=
    UInt64.toNat_ofNat_of_lt' (by omega)
  let ops : List Operation := [.fetched ⟨0⟩ ⟨0⟩ ⟨""⟩ []]
  let e : Entry := ⟨⟨""⟩, [], ⟨0⟩⟩
  have he : ((new config).run ops).entries.get? ⟨0⟩ = some e := rfl
  have hconfig : ((new config).run ops).config = config := config_run config ops
  refine ⟨ops, ⟨age⟩, fun hspares => ?_⟩
  have hfresh : ((new config).run ops).IsFresh ⟨age⟩ e := by
    rw [isFresh_iff, hconfig]
    change age.toNat - 0 ≤ _
    omega
  have hkept := (get?_sweep_eq_some_iff he).mp (hspares _ e he hfresh)
  rw [hconfig] at hkept
  change age.toNat - 0 ≤ _ at hkept
  omega

/-- **No entry is evicted early exactly if the clock can count the window**, or if a word full of ones
is left of it. Whatever the window, an entry goes when its age exceeds what is left, and no overdue
entry stays. -/
theorem sparesFresh_iff (config : Config) :
    (∀ ops now stamp e, ((new config).run ops).entries.get? stamp = some e →
      ((((new config).run ops).sweep now).cache.entries.get? stamp = some e ↔
        now.millis.toNat - e.lastSeen.millis.toNat ≤
          config.freshnessWindow.toMillis % UInt64.size) ∧
      (¬ ((new config).run ops).IsFresh now e →
        (((new config).run ops).sweep now).cache.entries.get? stamp = none)) ∧
    ((∀ ops now, ((new config).run ops).SparesFresh now) ↔
      config.freshnessWindow.toMillis < UInt64.size ∨
        config.freshnessWindow.toMillis % UInt64.size = UInt64.size - 1) := by
  constructor
  · intro ops now stamp e he
    have hconfig : ((new config).run ops).config = config := config_run config ops
    refine ⟨?_, fun hoverdue => ?_⟩
    · rw [get?_sweep_eq_some_iff he, hconfig]
    · -- what is left of a window is no longer than the window
      have hstale : ((new config).run ops).isStale now e = true := by
        rw [isFresh_iff, hconfig, Nat.not_le] at hoverdue
        rw [isStale_iff_mod, hconfig]
        exact Nat.lt_of_le_of_lt (Nat.mod_le _ _) hoverdue
      simp [get?_entries_sweep, he, hstale, Option.filter_some]
  · constructor
    · -- a window that is cut short, but not to its longest, has an entry evicted too early
      intro hspares
      by_contra hwindow
      obtain ⟨hbeyond, hones⟩ := not_or.mp hwindow
      obtain ⟨ops, now, hevicts⟩ := exists_not_sparesFresh (Nat.not_lt.mp hbeyond) hones
      exact hevicts (hspares ops now)
    · intro hwindow ops now
      apply sparesFresh_of_le
      rw [config_run]
      exact hwindow

/-- A window of two to the power of sixty-one seconds, of which a word keeps nothing. -/
def overlong : Config := ⟨.ofSeconds 2305843009213693952⟩

/-- A device is fetched from once. -/
def fetchedOnce : List Operation := [.fetched ⟨0⟩ ⟨1⟩ ⟨"aa"⟩ [room]]

/-- **Under an overlong window an entry goes after a millisecond.** -/
theorem not_always_sparesFresh :
    ¬ ∀ (config : Config) (ops : List Operation) (now : Timestamp),
      ((new config).run ops).SparesFresh now := by
  intro halways
  have hfresh : ((new overlong).run fetchedOnce).IsFresh ⟨1⟩ ⟨⟨"aa"⟩, [room], ⟨0⟩⟩ := by
    rw [isFresh_iff]
    decide +kernel
  have hspared := halways overlong fetchedOnce ⟨1⟩ ⟨1⟩ _ rfl hfresh
  have hgone : (((new overlong).run fetchedOnce).sweep ⟨1⟩).cache.entries.get? ⟨1⟩ = none := by
    decide +kernel
  rw [hgone] at hspared
  cases hspared

end Cache

end Nearby
