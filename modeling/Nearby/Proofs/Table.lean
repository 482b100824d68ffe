import Mathlib.Data.List.Nodup
import Nearby.Table

/-!
# The entries of a table

A table is looked at through `get?`; this module says what that means for the list of its entries.
Insertion puts one entry in the stead of another (`perm_insert`), erasing takes one away
(`perm_erase`), a table built from entries with different keys holds exactly these (`perm_ofList`),
and one built from its own entries is the table again (`ofList_entries`).
-/

namespace Nearby.Table

/-! ## Keys and look-ups -/

theorem ne_of_compare_lt {κ : Type} [Ord κ] [Std.ReflOrd κ] {a b : κ} (h : compare a b = .lt) :
    a ≠ b := by
  rintro rfl
  rw [Std.ReflOrd.compare_self] at h
  cases h

theorem eq_empty_of_isEmpty {κ ν : Type} [Ord κ] {t : Table κ ν} (h : t.isEmpty = true) :
    t = ∅ := by
  obtain ⟨l, hl⟩ := t
  obtain rfl := List.isEmpty_iff.mp h
  rfl

/-- Tables that list the same entries are the same table. -/
theorem ext_entries {κ ν : Type} [Ord κ] {t u : Table κ ν} (h : t.entries = u.entries) : t = u := by
  cases t; cases u; cases h; rfl

variable {κ ν : Type} [Ord κ] [Std.LawfulEqOrd κ]

/-- No key occurs twice. -/
theorem nodup_keys (t : Table κ ν) : (t.entries.map (·.1)).Nodup := by
  rw [List.Nodup, List.pairwise_map]
  exact t.ascending.imp ne_of_compare_lt

/-- No entry occurs twice, for no key does. -/
theorem nodup_entries (t : Table κ ν) : t.entries.Nodup := t.nodup_keys.of_map

/-- A look-up finds an entry exactly if it is listed. -/
theorem get?_eq_some_iff {t : Table κ ν} {k : κ} {v : ν} :
    t.get? k = some v ↔ (k, v) ∈ t.entries := by
  obtain ⟨l, hl⟩ := t
  change lookup k l = some v ↔ (k, v) ∈ l
  induction l with
  | nil => simp [lookup]
  | cons e rest ih =>
    obtain ⟨he, hrest⟩ := List.pairwise_cons.mp hl
    by_cases hk : compare k e.1 = .eq
    · obtain rfl : k = e.1 := Std.LawfulEqOrd.eq_of_compare hk
      rw [lookup, if_pos hk, Option.some.injEq, List.mem_cons]
      constructor
      · rintro rfl
        exact .inl rfl
      · rintro (h | h)
        · exact (congrArg Prod.snd h).symm
        · have hlt : compare e.1 e.1 = .lt := he (e.1, v) h
          exact absurd rfl (ne_of_compare_lt hlt)
    · rw [lookup, if_neg hk, ih hrest, List.mem_cons, or_iff_right]
      rintro rfl
      exact hk Std.ReflOrd.compare_self

/-- The keys of a table are those with a value. -/
theorem mem_keys {t : Table κ ν} {k : κ} : k ∈ t.keys ↔ ∃ v, t.get? k = some v := by
  simp only [get?_eq_some_iff]
  rw [keys, List.mem_map]
  constructor
  · rintro ⟨⟨_, v⟩, he, rfl⟩
    exact ⟨v, he⟩
  · rintro ⟨v, he⟩
    exact ⟨(k, v), he, rfl⟩

/-- The values of a table are those of some key. -/
theorem mem_values {t : Table κ ν} {v : ν} : v ∈ t.values ↔ ∃ k, t.get? k = some v := by
  simp only [get?_eq_some_iff]
  rw [values, List.mem_map]
  constructor
  · rintro ⟨⟨k, _⟩, he, rfl⟩
    exact ⟨k, he⟩
  · rintro ⟨k, he⟩
    exact ⟨(k, v), he, rfl⟩

/-- A filtered table finds what passes the test. -/
theorem get?_filter (t : Table κ ν) (p : κ → ν → Bool) (k : κ) :
    (t.filter p).get? k = (t.get? k).filter (p k) := by
  refine Option.ext fun v => ?_
  rw [Option.filter_eq_some_iff, get?_eq_some_iff, get?_eq_some_iff, filter, List.mem_filter]

/-- Tests that agree on the entries pick the same of them. -/
theorem filter_congr {t : Table κ ν} {p q : κ → ν → Bool}
    (h : ∀ k v, t.get? k = some v → p k v = q k v) : t.filter p = t.filter q :=
  ext_entries (List.filter_congr fun e he => h e.1 e.2 (get?_eq_some_iff.mpr he))

/-- A table of images finds the image of what is found. -/
theorem get?_map {μ : Type} (t : Table κ ν) (f : κ → ν → μ) (k : κ) :
    (t.map f).get? k = (t.get? k).map (f k) := by
  refine Option.ext fun v => ?_
  rw [Option.map_eq_some_iff, get?_eq_some_iff, map, List.mem_map]
  constructor
  · rintro ⟨⟨j, w⟩, he, hw⟩
    obtain ⟨rfl, rfl⟩ := Prod.mk.inj hw
    exact ⟨w, get?_eq_some_iff.mpr he, rfl⟩
  · rintro ⟨w, hw, rfl⟩
    exact ⟨(k, w), get?_eq_some_iff.mp hw, rfl⟩

/-- To go through the keys and look each of them up is to go through the entries. -/
theorem filterMap_keys {α : Type} (t : Table κ ν) (f : κ → ν → α) :
    t.keys.filterMap (fun k => (t.get? k).map (f k)) = t.entries.map fun e => f e.1 e.2 := by
  have hfound : ∀ e ∈ t.entries, (t.get? e.1).map (f e.1) = some (f e.1 e.2) := by
    intro e he
    rw [get?_eq_some_iff.mpr he]
    rfl
  rw [keys, List.filterMap_map, ← List.filterMap_eq_map]
  exact List.filterMap_congr hfound

/-! ## Erasing -/

/-- What is erased is gone, and nothing else is. -/
theorem get?_erase [DecidableEq κ] (t : Table κ ν) (k j : κ) :
    (t.erase k).get? j = if j = k then none else t.get? j := by
  split
  · rename_i h
    rw [h, get?_erase_self]
  · rename_i h
    exact get?_erase_of_ne t h

/-- The entries left are those of other keys. -/
theorem mem_erase {t : Table κ ν} {k : κ} {e : κ × ν} :
    e ∈ (t.erase k).entries ↔ e ∈ t.entries ∧ e.1 ≠ k := by
  obtain ⟨j, w⟩ := e
  rw [← get?_eq_some_iff, ← get?_eq_some_iff]
  by_cases hj : j = k
  · simp [hj]
  · simp [get?_erase_of_ne t hj, hj]

/-- A key may be put in again once it was erased. -/
theorem nodup_cons_erase (t : Table κ ν) (k : κ) (v : ν) :
    ((k, v) :: (t.erase k).entries).Nodup :=
  List.nodup_cons.mpr ⟨fun h => (mem_erase.mp h).2 rfl, nodup_entries _⟩

/-- Erasing takes away the entry that is found. -/
theorem perm_erase {t : Table κ ν} {k : κ} {v : ν} (h : t.get? k = some v) :
    t.entries.Perm ((k, v) :: (t.erase k).entries) := by
  rw [List.perm_ext_iff_of_nodup (nodup_entries _) (nodup_cons_erase t k v)]
  rintro ⟨j, w⟩
  rw [List.mem_cons, mem_erase]
  by_cases hj : j = k
  · subst hj
    rw [← get?_eq_some_iff, h]
    simp [eq_comm]
  · simp [hj]

/-! ## Insertion -/

variable [Std.TransOrd κ]

/-- What is inserted is there, and all else is as it was. -/
theorem get?_insert [DecidableEq κ] (t : Table κ ν) (k j : κ) (v : ν) :
    (t.insert k v).get? j = if j = k then some v else t.get? j := by
  split
  · rename_i h
    rw [h, get?_insert_self]
  · rename_i h
    exact get?_insert_of_ne t h v

/-- The entries are the new one and those of other keys. -/
theorem mem_insert {t : Table κ ν} {k : κ} {v : ν} {e : κ × ν} :
    e ∈ (t.insert k v).entries ↔ e = (k, v) ∨ e ∈ t.entries ∧ e.1 ≠ k := by
  obtain ⟨j, w⟩ := e
  rw [← get?_eq_some_iff, ← get?_eq_some_iff]
  by_cases hj : j = k
  · subst hj
    simp [eq_comm]
  · simp [get?_insert_of_ne t hj, hj]

/-- Insertion puts an entry in the stead of the one with its key. -/
theorem perm_insert (t : Table κ ν) (k : κ) (v : ν) :
    (t.insert k v).entries.Perm ((k, v) :: (t.erase k).entries) := by
  rw [List.perm_ext_iff_of_nodup (nodup_entries _) (nodup_cons_erase t k v)]
  intro e
  rw [mem_insert, List.mem_cons, mem_erase]

/-- To erase what is not there changes nothing. -/
theorem erase_of_get?_eq_none {t : Table κ ν} {k : κ} (h : t.get? k = none) : t.erase k = t := by
  refine ext_get? fun j => ?_
  by_cases hj : j = k
  · rw [hj, get?_erase_self, h]
  · exact get?_erase_of_ne t hj

/-- Insertions under different keys may change places. -/
theorem insert_comm (t : Table κ ν) {k j : κ} (h : k ≠ j) (v w : ν) :
    (t.insert k v).insert j w = (t.insert j w).insert k v := by
  refine ext_get? fun i => ?_
  by_cases hj : i = j
  · rw [hj, get?_insert_self, get?_insert_of_ne _ (Ne.symm h), get?_insert_self]
  by_cases hk : i = k
  · rw [hk, get?_insert_of_ne _ h, get?_insert_self, get?_insert_self]
  · rw [get?_insert_of_ne _ hj, get?_insert_of_ne _ hk, get?_insert_of_ne _ hk,
      get?_insert_of_ne _ hj]

theorem map_insert {μ : Type} (t : Table κ ν) (f : κ → ν → μ) (k : κ) (v : ν) :
    (t.insert k v).map f = (t.map f).insert k (f k v) := by
  refine ext_get? fun j => ?_
  by_cases hj : j = k
  · rw [hj, get?_map, get?_insert_self, get?_insert_self]
    rfl
  · rw [get?_map, get?_insert_of_ne _ hj, get?_insert_of_ne _ hj, get?_map]

theorem map_erase {μ : Type} (t : Table κ ν) (f : κ → ν → μ) (k : κ) :
    (t.erase k).map f = (t.map f).erase k := by
  refine ext_get? fun j => ?_
  by_cases hj : j = k
  · rw [hj, get?_map, get?_erase_self, get?_erase_self]
    rfl
  · rw [get?_map, get?_erase_of_ne _ hj, get?_erase_of_ne _ hj, get?_map]

/-! ## Tables from lists -/

/-- A table built from a list has the entries it had, and those of the list. -/
theorem of_mem_foldl_insert {l : List (κ × ν)} {t : Table κ ν} {e : κ × ν}
    (h : e ∈ (l.foldl (fun t e => t.insert e.1 e.2) t).entries) : e ∈ t.entries ∨ e ∈ l := by
  induction l generalizing t with
  | nil => exact .inl h
  | cons d rest ih =>
    rcases ih h with hinserted | hrest
    · rcases mem_insert.mp hinserted with rfl | ⟨hbefore, -⟩
      · exact .inr List.mem_cons_self
      · exact .inl hbefore
    · exact .inr (List.mem_cons_of_mem _ hrest)

/-- A table holds nothing but the entries it is built from. -/
theorem of_mem_ofList {l : List (κ × ν)} {e : κ × ν} (h : e ∈ (ofList l).entries) : e ∈ l :=
  (of_mem_foldl_insert h).resolve_left List.not_mem_nil

/-- If the keys are new and distinct, it has them all. -/
theorem perm_foldl_insert (l : List (κ × ν)) :
    ∀ t : Table κ ν, (l.map (·.1)).Nodup → (∀ e ∈ l, t.get? e.1 = none) →
      (l.foldl (fun t e => t.insert e.1 e.2) t).entries.Perm (t.entries ++ l) := by
  induction l with
  | nil => intro t _ _; simp
  | cons e rest ih =>
    intro t hl ht
    obtain ⟨he, hrest⟩ := List.nodup_cons.mp hl
    have hnew : ∀ d ∈ rest, (t.insert e.1 e.2).get? d.1 = none := by
      intro d hd
      have hne : d.1 ≠ e.1 := fun h => he (List.mem_map.mpr ⟨d, hd, h⟩)
      rw [get?_insert_of_ne _ hne]
      exact ht d (List.mem_cons_of_mem _ hd)
    have hinsert := perm_insert t e.1 e.2
    rw [erase_of_get?_eq_none (ht e List.mem_cons_self)] at hinsert
    exact ((ih _ hrest hnew).trans (hinsert.append_right rest)).trans List.perm_middle.symm

/-- **A table of entries with different keys** holds just these entries. -/
theorem perm_ofList {l : List (κ × ν)} (h : (l.map (·.1)).Nodup) : (ofList l).entries.Perm l :=
  perm_foldl_insert l empty h fun _ _ => rfl

/-- **A table is made of its entries.** -/
theorem ofList_entries (t : Table κ ν) : ofList t.entries = t := by
  have hperm := perm_ofList t.nodup_keys
  refine ext_get? fun k => Option.ext fun v => ?_
  rw [get?_eq_some_iff, get?_eq_some_iff, hperm.mem_iff]

end Nearby.Table
