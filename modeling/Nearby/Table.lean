/-!
# Tables in ascending key order

A `Table κ ν` keeps at most one value a key and lists its entries by ascending key. The order is
part of the type, so two tables with the same look-ups are the same table (`Table.ext_get?`), and
walking a table needs no further rule about order.

The main statements are the two pairs of look-up laws, `get?_insert_self` with `get?_insert_of_ne`
and `get?_erase_self` with `get?_erase_of_ne`.
-/

namespace Nearby

/-- A list of entries with strictly ascending keys. -/
structure Table (κ ν : Type) [Ord κ] where
  entries : List (κ × ν)
  ascending : entries.Pairwise fun a b => compare a.1 b.1 = .lt
  deriving DecidableEq

namespace Table

section Basic

variable {κ ν : Type} [Ord κ]

/-- The table without entries. -/
def empty : Table κ ν := ⟨[], .nil⟩

instance : EmptyCollection (Table κ ν) := ⟨empty⟩

instance : Inhabited (Table κ ν) := ⟨empty⟩

/-- True if the table has no entry. -/
def isEmpty (t : Table κ ν) : Bool := t.entries.isEmpty

/-- The number of entries. -/
def size (t : Table κ ν) : Nat := t.entries.length

/-- The keys, ascending. -/
def keys (t : Table κ ν) : List κ := t.entries.map (·.1)

/-- The values, by ascending key. -/
def values (t : Table κ ν) : List ν := t.entries.map (·.2)

/-- The value filed under a key in a list of entries. -/
def lookup (k : κ) : List (κ × ν) → Option ν
  | [] => none
  | e :: rest => if compare k e.1 = .eq then some e.2 else lookup k rest

/-- The value filed under a key. -/
def get? (t : Table κ ν) (k : κ) : Option ν := lookup k t.entries

/-- True if a value is filed under the key. -/
def contains (t : Table κ ν) (k : κ) : Bool := (t.get? k).isSome

/-- The entries that pass a test. -/
def filter (p : κ → ν → Bool) (t : Table κ ν) : Table κ ν :=
  ⟨t.entries.filter fun e => p e.1 e.2, t.ascending.filter _⟩

/-- The table with every value replaced by its image. -/
def map {μ : Type} (f : κ → ν → μ) (t : Table κ ν) : Table κ μ :=
  ⟨t.entries.map fun e => (e.1, f e.1 e.2), by
    rw [List.pairwise_map]; exact t.ascending⟩

/-- Takes the entry of a key out of the table. -/
def erase (t : Table κ ν) (k : κ) : Table κ ν := t.filter fun j _ => compare k j != .eq

/-- Places an entry in an ascending list, in the stead of an entry with the same key. -/
def place (k : κ) (v : ν) : List (κ × ν) → List (κ × ν)
  | [] => [(k, v)]
  | e :: rest =>
    match compare k e.1 with
    | .lt => (k, v) :: e :: rest
    | .eq => (k, v) :: rest
    | .gt => e :: place k v rest

/-- To put an entry in its place brings in no other. -/
theorem mem_place {k : κ} {v : ν} {e : κ × ν} {l : List (κ × ν)} (h : e ∈ place k v l) :
    e = (k, v) ∨ e ∈ l := by
  induction l with
  | nil => simpa [place] using h
  | cons d rest ih =>
    rw [place] at h
    split at h
    · simpa using h
    · rcases List.mem_cons.mp h with h | h
      · exact .inl h
      · exact .inr (List.mem_cons_of_mem _ h)
    · rcases List.mem_cons.mp h with h | h
      · exact .inr (h ▸ List.mem_cons_self)
      · exact (ih h).imp_right (List.mem_cons_of_mem _)

@[simp] theorem get?_empty (k : κ) : (∅ : Table κ ν).get? k = none := rfl

/-- A key is not found once its entries are filtered out. -/
theorem lookup_filter_of_eq {k : κ} (l : List (κ × ν)) :
    lookup k (l.filter fun e => compare k e.1 != .eq) = none := by
  induction l with
  | nil => rfl
  | cons d rest ih =>
    by_cases h : compare k d.1 = .eq
    · simp [h, ih]
    · simp [h, lookup, ih]

/-- A key below all others is not found among them. -/
theorem lookup_eq_none_of_lt {k : κ} {l : List (κ × ν)} (h : ∀ e ∈ l, compare k e.1 = .lt) :
    lookup k l = none := by
  induction l with
  | nil => rfl
  | cons d rest ih =>
    rw [lookup, if_neg (by simp [h d List.mem_cons_self]),
      ih fun e he => h e (List.mem_cons_of_mem _ he)]

@[simp] theorem get?_erase_self (t : Table κ ν) (k : κ) : (t.erase k).get? k = none :=
  lookup_filter_of_eq t.entries

end Basic

section Lawful

variable {κ ν : Type} [Ord κ] [Std.LawfulEqOrd κ]

/-- An entry that was put in its place is found there. -/
theorem lookup_place_self (k : κ) (v : ν) (l : List (κ × ν)) :
    lookup k (place k v l) = some v := by
  induction l with
  | nil => simp [place, lookup]
  | cons d rest ih =>
    rw [place]
    split
    · simp [lookup]
    · simp [lookup]
    · rename_i hgt
      simp [lookup, hgt, ih]

/-- Other keys are found as before. -/
theorem lookup_place_of_ne {k j : κ} (h : j ≠ k) (v : ν) (l : List (κ × ν)) :
    lookup j (place k v l) = lookup j l := by
  have hjk : compare j k ≠ .eq := fun e => h (Std.LawfulEqOrd.eq_of_compare e)
  induction l with
  | nil => simp [place, lookup, hjk]
  | cons d rest ih =>
    rw [place]
    split
    · rw [lookup, if_neg hjk]
    · rename_i heq
      have hk : k = d.1 := Std.LawfulEqOrd.eq_of_compare heq
      rw [lookup, if_neg hjk, lookup, ← hk, if_neg hjk]
    · rw [lookup, lookup, ih]

/-- So they are once the entries of a key are filtered out. -/
theorem lookup_filter_of_ne {k j : κ} (h : j ≠ k) (l : List (κ × ν)) :
    lookup j (l.filter fun e => compare k e.1 != .eq) = lookup j l := by
  induction l with
  | nil => rfl
  | cons d rest ih =>
    by_cases hk : compare k d.1 = .eq
    · have hd : k = d.1 := Std.LawfulEqOrd.eq_of_compare hk
      have hj : compare j d.1 ≠ .eq := fun e => h (hd ▸ Std.LawfulEqOrd.eq_of_compare e)
      simp [hk, ih, lookup, hj]
    · simp [hk, lookup, ih]

theorem get?_erase_of_ne (t : Table κ ν) {k j : κ} (h : j ≠ k) :
    (t.erase k).get? j = t.get? j := lookup_filter_of_ne h t.entries

end Lawful

variable {κ ν : Type} [Ord κ] [Std.TransOrd κ] [Std.LawfulEqOrd κ]

/-- Placing an entry keeps the keys strictly ascending. -/
theorem ascending_place (k : κ) (v : ν) {l : List (κ × ν)}
    (h : l.Pairwise fun a b => compare a.1 b.1 = .lt) :
    (place k v l).Pairwise fun a b => compare a.1 b.1 = .lt := by
  induction l with
  | nil => simp [place]
  | cons d rest ih =>
    obtain ⟨hd, hrest⟩ := List.pairwise_cons.mp h
    rw [place]
    split
    · rename_i hlt
      refine List.pairwise_cons.mpr ⟨fun e he => ?_, h⟩
      rcases List.mem_cons.mp he with rfl | he
      · exact hlt
      · exact Std.TransCmp.lt_trans hlt (hd e he)
    · rename_i heq
      have hk : k = d.1 := Std.LawfulEqOrd.eq_of_compare heq
      exact List.pairwise_cons.mpr ⟨fun e he => hk ▸ hd e he, hrest⟩
    · rename_i hgt
      refine List.pairwise_cons.mpr ⟨fun e he => ?_, ih hrest⟩
      rcases mem_place he with rfl | he
      · exact Std.OrientedCmp.gt_iff_lt.mp hgt
      · exact hd e he

/-- Files a value under a key, in the stead of a value filed there before. -/
def insert (t : Table κ ν) (k : κ) (v : ν) : Table κ ν :=
  ⟨place k v t.entries, ascending_place k v t.ascending⟩

/-- The table of a list of entries; a later entry takes the stead of an earlier one. -/
def ofList (l : List (κ × ν)) : Table κ ν := l.foldl (fun t e => t.insert e.1 e.2) empty

/-! ### Look-up laws -/

@[simp] theorem get?_insert_self (t : Table κ ν) (k : κ) (v : ν) :
    (t.insert k v).get? k = some v := lookup_place_self k v t.entries

theorem get?_insert_of_ne (t : Table κ ν) {k j : κ} (h : j ≠ k) (v : ν) :
    (t.insert k v).get? j = t.get? j := lookup_place_of_ne h v t.entries

/-! ### Extensionality -/

/-- Ordered lists in which the same is found are the same. -/
theorem entries_eq_of_lookup_eq {a b : List (κ × ν)}
    (ha : a.Pairwise fun x y => compare x.1 y.1 = .lt)
    (hb : b.Pairwise fun x y => compare x.1 y.1 = .lt)
    (h : ∀ k, lookup k a = lookup k b) : a = b := by
  induction a generalizing b with
  | nil =>
    cases b with
    | nil => rfl
    | cons y ys => simpa [lookup] using h y.1
  | cons x xs ih =>
    cases b with
    | nil => simpa [lookup] using h x.1
    | cons y ys =>
      obtain ⟨hx, hxs⟩ := List.pairwise_cons.mp ha
      obtain ⟨hy, hys⟩ := List.pairwise_cons.mp hb
      -- the first keys agree, as the smaller of them is not found in the other list
      have hkey : compare x.1 y.1 = .eq := by
        cases hxy : compare x.1 y.1 with
        | eq => rfl
        | lt =>
          have hlt : ∀ e ∈ y :: ys, compare x.1 e.1 = .lt := by
            intro e he
            rcases List.mem_cons.mp he with rfl | he
            · exact hxy
            · exact Std.TransCmp.lt_trans hxy (hy e he)
          have := h x.1
          rw [lookup_eq_none_of_lt hlt] at this
          simp [lookup] at this
        | gt =>
          have hyx : compare y.1 x.1 = .lt := Std.OrientedCmp.gt_iff_lt.mp hxy
          have hlt : ∀ e ∈ x :: xs, compare y.1 e.1 = .lt := by
            intro e he
            rcases List.mem_cons.mp he with rfl | he
            · exact hyx
            · exact Std.TransCmp.lt_trans hyx (hx e he)
          have := h y.1
          rw [lookup_eq_none_of_lt hlt] at this
          simp [lookup] at this
      have hk : x.1 = y.1 := Std.LawfulEqOrd.eq_of_compare hkey
      have hv : x.2 = y.2 := by simpa [lookup, hkey] using h x.1
      have htail : xs = ys := by
        refine ih hxs hys fun k => ?_
        by_cases hkx : k = x.1
        · rw [hkx, lookup_eq_none_of_lt hx, hk, lookup_eq_none_of_lt hy]
        · have hne : compare k x.1 ≠ .eq := fun e => hkx (Std.LawfulEqOrd.eq_of_compare e)
          simpa [lookup, hne, ← hk] using h k
      rw [Prod.ext hk hv, htail]

/-- Tables that answer every look-up alike are the same table. -/
theorem ext_get? {a b : Table κ ν} (h : ∀ k, a.get? k = b.get? k) : a = b := by
  cases a with | mk a ha => cases b with | mk b hb =>
  have : a = b := entries_eq_of_lookup_eq ha hb h
  subst this
  rfl

end Table

end Nearby
