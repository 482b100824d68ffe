import Mathlib.Algebra.GroupWithZero.Nat
import Nearby.Proofs.Cache.Index

/-!
# Counting by key

Events and entries are compared by counting the advertisements of a key: in what a subscriber hears,
those added (`additionsOf`) and those lost (`lossesOf`), and in the entries all `copies`. No entry
of an orderly cache holds a key twice, and then the copies are in as many entries (`holders`).

A fetch that takes the stead of earlier entries tells the difference: it announces what was not
known and reports as lost what is not there any more.
-/

namespace Nearby.Cache

/-- Tells advertisements apart. -/
abbrev Key := AdId × AdHash

/-! ## Counting -/

/-- How often a key occurs. -/
def copiesIn (key : Key) (ads : List Advertisement) : Nat := ads.countP fun ad => ad.key = key

/-- How often a key is added. -/
def additionsOf (key : Key) (heard : List Advertisement) : Nat :=
  heard.countP fun ad => ad.key = key && !ad.lost

/-- How often a key is lost. -/
def lossesOf (key : Key) (heard : List Advertisement) : Nat :=
  heard.countP fun ad => ad.key = key && ad.lost

/-- The number of entries that hold a key. -/
def holders (c : Cache) (key : Key) : Nat :=
  c.entries.values.countP fun e => e.ads.any fun ad => ad.key = key

/-- How often a key occurs in the entries. -/
def copies (c : Cache) (key : Key) : Nat := (c.entries.values.map fun e => copiesIn key e.ads).sum

@[simp] theorem copiesIn_nil (key : Key) : copiesIn key [] = 0 := rfl

@[simp] theorem copiesIn_append (key : Key) (a b : List Advertisement) :
    copiesIn key (a ++ b) = copiesIn key a + copiesIn key b := List.countP_append

@[simp] theorem additionsOf_append (key : Key) (a b : List Advertisement) :
    additionsOf key (a ++ b) = additionsOf key a + additionsOf key b := List.countP_append

@[simp] theorem lossesOf_append (key : Key) (a b : List Advertisement) :
    lossesOf key (a ++ b) = lossesOf key a + lossesOf key b := List.countP_append

/-- What is told to be lost is no addition. -/
@[simp] theorem additionsOf_map_asLost (key : Key) (ads : List Advertisement) :
    additionsOf key (ads.map Advertisement.asLost) = 0 := by
  simp [additionsOf, Advertisement.asLost]

/-- Each advertisement told to be lost is a loss of its key. -/
@[simp] theorem lossesOf_map_asLost (key : Key) (ads : List Advertisement) :
    lossesOf key (ads.map Advertisement.asLost) = copiesIn key ads := by
  rw [lossesOf, List.countP_map]
  refine List.countP_congr fun ad _ => ?_
  change (decide (ad.asLost.key = key) && true) = true ↔ _
  rw [Bool.and_true]
  exact Iff.rfl

/-- Where nothing is lost, all copies are additions. -/
theorem additionsOf_eq_copiesIn {key : Key} {ads : List Advertisement}
    (h : ∀ ad ∈ ads, ad.lost = false) : additionsOf key ads = copiesIn key ads := by
  refine List.countP_congr fun ad had => ?_
  simp [h ad had]

theorem lossesOf_eq_zero {key : Key} {ads : List Advertisement} (h : ∀ ad ∈ ads, ad.lost = false) :
    lossesOf key ads = 0 := by
  rw [lossesOf, List.countP_eq_zero]
  intro ad had
  simp [h ad had]

/-- A key that is not held twice occurs once or not at all. -/
theorem copiesIn_eq_ite {key : Key} {ads : List Advertisement}
    (h : (ads.map Advertisement.key).Nodup) :
    copiesIn key ads = if ads.any (fun ad => ad.key = key) then 1 else 0 := by
  have hcount : copiesIn key ads = (ads.map Advertisement.key).count key := by
    rw [List.count, List.countP_map]
    refine List.countP_congr fun ad _ => ?_
    simp
  rw [hcount, h.count]
  simp

/-- What a table of entries holds of a key, with an entry placed in it. -/
theorem sum_values_insert {f : Entry → Nat} (t : Table Stamp Entry) (stamp : Stamp) (e : Entry) :
    ((t.insert stamp e).values.map f).sum = f e + ((t.erase stamp).values.map f).sum := by
  rw [Table.values, List.map_map, ((t.perm_insert stamp e).map _).sum_nat, List.map_cons,
    List.sum_cons, Table.values, List.map_map]
  rfl

/-- To take an entry out takes its share from a sum over the entries. -/
theorem sum_values_erase {f : Entry → Nat} {t : Table Stamp Entry} {stamp : Stamp} {e : Entry}
    (h : t.get? stamp = some e) :
    (t.values.map f).sum = f e + ((t.erase stamp).values.map f).sum := by
  rw [Table.values, List.map_map, ((Table.perm_erase h).map _).sum_nat, List.map_cons,
    List.sum_cons, Table.values, List.map_map]
  rfl

/-- **Without doubled keys, the copies are in as many entries.** -/
theorem holders_eq_copies {c : Cache}
    (h : ∀ e ∈ c.entries.values, (e.ads.map Advertisement.key).Nodup) (key : Key) :
    c.holders key = c.copies key := by
  rw [holders, copies]
  generalize c.entries.values = entries at h
  induction entries with
  | nil => rfl
  | cons e rest ih =>
    obtain ⟨he, hrest⟩ := List.forall_mem_cons.mp h
    rw [List.countP_cons, ih hrest, List.map_cons, List.sum_cons, copiesIn_eq_ite he, Nat.add_comm]

/-- The advertisements of a cache are those of its entries. -/
theorem copiesIn_advertisements (c : Cache) (key : Key) :
    copiesIn key c.advertisements = c.copies key := by
  rw [advertisements, copiesIn, List.countP_flatMap]
  rfl

/-! ## Taking out and telling apart -/

/-- What an entry that is taken out held is missing from the cache. -/
theorem copies_takeEntry (c : Cache) (stamp : Stamp) (key : Key) :
    c.copies key =
      copiesIn key (adsOf (c.takeEntry stamp).1) + (c.takeEntry stamp).2.copies key := by
  rw [takeEntry]
  rcases he : c.entries.get? stamp with _ | e
  · simp [adsOf]
  · exact sum_values_erase he

/-- So is what was known of a peer. -/
theorem copies_takePeer (c : Cache) (peer : RadioId) (key : Key) :
    c.copies key = copiesIn key (adsOf (c.takePeer peer).1) + (c.takePeer peer).2.copies key := by
  rw [takePeer]
  rcases c.byPeer.get? peer with _ | stamp
  · simp [adsOf]
  · exact c.copies_takeEntry stamp key

/-- What a fetch takes the stead of. -/
def superseded (c : Cache) (stamp : Stamp) (peer : RadioId) : List Advertisement :=
  adsOf (c.takePeer peer).1 ++ adsOf ((c.takePeer peer).2.takeEntry stamp).1

/-- A fetch tells the losses first, then the additions. -/
theorem changes_fetched (c : Cache) (now : Timestamp) (stamp : Stamp) (peer : RadioId)
    (ads : List Advertisement) :
    (c.fetched now stamp peer ads).changes =
      (losses (c.superseded stamp peer) ads).map Advertisement.asLost ++
        additions (c.superseded stamp peer) ads := rfl

/-- A fetch puts its advertisements in the place of those it supersedes. -/
theorem copies_fetched (c : Cache) (now : Timestamp) (stamp : Stamp) (peer : RadioId)
    (ads : List Advertisement) (key : Key) :
    (c.fetched now stamp peer ads).cache.copies key + copiesIn key (c.superseded stamp peer) =
      c.copies key + copiesIn key ads := by
  have hknown := c.copies_takePeer peer key
  have hfiled := (c.takePeer peer).2.copies_takeEntry stamp key
  have hplaced : (c.fetched now stamp peer ads).cache.copies key =
      copiesIn key ads + ((c.takePeer peer).2.takeEntry stamp).2.copies key := by
    -- nothing is filed under the stamp any more, so nothing is overwritten
    have hfree : ((c.takePeer peer).2.takeEntry stamp).2.entries.get? stamp = none := by
      rw [get?_entries_takeEntry, if_pos rfl]
    rw [copies, entries_fetched, sum_values_insert, Table.erase_of_get?_eq_none hfree]
    rfl
  rw [hplaced, superseded, copiesIn_append]
  omega

/-- Of advertisements with different keys none is left out. -/
theorem firstOfEachKey_eq_self {ads : List Advertisement}
    (h : (ads.map Advertisement.key).Nodup) : firstOfEachKey ads = ads := by
  induction ads with
  | nil => rfl
  | cons ad rest ih =>
    obtain ⟨had, hrest⟩ := List.nodup_cons.mp h
    rw [firstOfEachKey, ih hrest, List.filter_eq_self.mpr]
    intro other hother
    refine bne_iff_ne.mpr fun hsame => had ?_
    exact List.mem_map.mpr ⟨other, hother, hsame⟩

/-- Of the advertisements that others do not have, there are none with a key that they have. -/
theorem copiesIn_filter_not_any (key : Key) (ads others : List Advertisement) :
    copiesIn key (ads.filter fun ad => !others.any fun other => other.key == ad.key) =
      if others.any (fun ad => ad.key = key) then 0 else copiesIn key ads := by
  rw [copiesIn, List.countP_filter]
  by_cases h : others.any fun ad => ad.key = key
  · rw [if_pos h, List.countP_eq_zero]
    obtain ⟨other, hother, hkey⟩ := List.any_eq_true.mp h
    intro ad _ had
    obtain ⟨hsame, hnone⟩ := Bool.and_eq_true_iff.mp had
    rw [Bool.not_eq_true', List.any_eq_false] at hnone
    refine hnone other hother ?_
    rw [beq_iff_eq, of_decide_eq_true hkey, of_decide_eq_true hsame]
  · rw [if_neg h]
    refine List.countP_congr fun ad _ => ?_
    rw [Bool.and_eq_true_iff, and_iff_left_iff_imp]
    intro hsame
    rw [Bool.not_eq_true', List.any_eq_false]
    intro other hother hkey
    refine h (List.any_eq_true.mpr ⟨other, hother, decide_eq_true ?_⟩)
    exact (beq_iff_eq.mp hkey).trans (of_decide_eq_true hsame)

/-- **A fetch tells the difference.** Counted by key, what was known and what is added is what is
fetched and what is lost. -/
theorem copiesIn_add_additions {previous fetched : List Advertisement}
    (hprevious : (previous.map Advertisement.key).Nodup)
    (hfetched : (fetched.map Advertisement.key).Nodup) (key : Key) :
    copiesIn key previous + copiesIn key (additions previous fetched) =
      copiesIn key fetched + copiesIn key (losses previous fetched) := by
  rw [additions, losses, firstOfEachKey_eq_self hprevious, copiesIn_filter_not_any,
    copiesIn_filter_not_any, copiesIn_eq_ite hprevious, copiesIn_eq_ite hfetched]
  by_cases hp : previous.any fun ad => ad.key = key
  · by_cases hf : fetched.any fun ad => ad.key = key
    · simp [hp, hf]
    · simp [hp, hf]
  · by_cases hf : fetched.any fun ad => ad.key = key
    · simp [hp, hf]
    · simp [hp, hf]

end Nearby.Cache
