import Nearby.Radio.Paging

/-!
# A value is what its pages hold

Whoever reads a value asks for a page, goes on behind it and asks for the next one. There are two ways
to tell the end (`Ending`): one reader takes the first empty page for it, another the first page that is
not full. `Reads` says what such a reader gets, without a bound on the number of pages.

As long as a page holds anything at all, every page but the last takes a reader further, and both of
them end behind the last byte with the whole value, after as many pages as its length says
(`pages_reassemble`). The page itself is always one that can be cut out of the value (`page?_eq`).
-/

namespace Nearby.Paging

/-! ## Cutting out a page -/

/-- The bytes of a value between two places, if these lie within it and in order. -/
def between? (value : Bytes) (start stop : Nat) : Option Bytes :=
  if start ≤ stop ∧ stop ≤ value.length then some ((value.take stop).drop start) else none

/-- The page of a value at an offset, cut out of it: none of it from the end on, and before as much as
a page holds or as is left. -/
def page? (value : Bytes) (offset mtu : Nat) : Option Bytes :=
  if value.length ≤ offset then some []
  else between? value offset (offset + min (mtu - 1) (value.length - offset))

variable {value : Bytes} {offset mtu : Nat}

/-- From the end on there is nothing. -/
theorem page_of_le (h : value.length ≤ offset) : page value offset mtu = [] := by
  simp [page, List.drop_eq_nil_of_le h]

@[simp] theorem length_page :
    (page value offset mtu).length = min (mtu - 1) (value.length - offset) := by
  simp [page]

/-- Behind a page comes what is left without as many bytes as a page holds. -/
theorem drop_length_page :
    value.drop (offset + (page value offset mtu).length) = (value.drop offset).drop (mtu - 1) := by
  rw [length_page, List.drop_drop]
  rcases Nat.le_total (mtu - 1) (value.length - offset) with hfull | hshort
  · rw [Nat.min_eq_left hfull]
  · -- both are behind the end
    rw [Nat.min_eq_right hshort, List.drop_eq_nil_of_le (by omega), List.drop_eq_nil_of_le (by omega)]

/-- A page and what is behind it are what there is from its offset on. -/
theorem page_append_drop :
    page value offset mtu ++ value.drop (offset + (page value offset mtu).length) =
      value.drop offset := by
  rw [drop_length_page, page, List.take_append_drop]

/-- **Every page can be cut out of the value**, whatever the offset. -/
theorem page?_eq : page? value offset mtu = some (page value offset mtu) := by
  rw [page?]
  split
  · rename_i h
    rw [page_of_le h]
  · rw [between?, if_pos (by omega), List.drop_take, page, Nat.add_sub_cancel_left]
    congr 1
    rw [← List.length_drop, ← List.take_take, List.take_length]

/-! ## Readers -/

/-- How a reader tells the end of a value. -/
inductive Ending
  /-- By an empty page. -/
  | empty
  /-- By a page that is not full. -/
  | short

/-- True for the page that a reader takes for the last one. -/
def Ending.isLast (mtu : Nat) (page : Bytes) : Ending → Bool
  | empty => page.isEmpty
  | short => page.length < mtu - 1

/-- The number of pages a reader asks for until it knows that there are no more bytes. -/
def Ending.pageCount (mtu length : Nat) : Ending → Nat
  | empty => (length + (mtu - 2)) / (mtu - 1) + 1
  | short => length / (mtu - 1) + 1

/-- A reader that asks for the page at an offset, and for the one behind it unless this was the last,
gets certain pages and stops at an offset. -/
inductive Reads (value : Bytes) (mtu : Nat) (ending : Ending) : Nat → List Bytes → Nat → Prop
  | last {offset : Nat} (h : ending.isLast mtu (page value offset mtu) = true) :
      Reads value mtu ending offset [page value offset mtu]
        (offset + (page value offset mtu).length)
  | more {offset stop : Nat} {pages : List Bytes}
      (h : ending.isLast mtu (page value offset mtu) = false)
      (hrest : Reads value mtu ending (offset + (page value offset mtu).length) pages stop) :
      Reads value mtu ending offset (page value offset mtu :: pages) stop

variable {ending : Ending} {got : List Bytes} {stop : Nat}

/-- A client stops after the last page. -/
theorem reads_of_isLast (h : ending.isLast mtu (page value offset mtu) = true) :
    Reads value mtu ending offset got stop ↔
      got = [page value offset mtu] ∧ stop = offset + (page value offset mtu).length := by
  constructor
  · rintro (_ | ⟨hmore, -⟩)
    · exact ⟨rfl, rfl⟩
    · rw [h] at hmore
      cases hmore
  · rintro ⟨rfl, rfl⟩
    exact .last h

/-- After any other page it asks for the next. -/
theorem reads_of_not_isLast (h : ending.isLast mtu (page value offset mtu) = false) :
    Reads value mtu ending offset got stop ↔
      ∃ rest, got = page value offset mtu :: rest ∧
        Reads value mtu ending (offset + (page value offset mtu).length) rest stop := by
  constructor
  · rintro (hlast | ⟨-, hrest⟩)
    · rw [h] at hlast
      cases hlast
    · exact ⟨_, rfl, hrest⟩
  · rintro ⟨rest, rfl, hrest⟩
    exact .more h hrest

/-! ## What readers get -/

/-- A page that is taken for the last one is the last, and only one is counted for it. -/
theorem of_isLast (hmtu : 2 ≤ mtu) (hoffset : offset ≤ value.length)
    (h : ending.isLast mtu (page value offset mtu) = true) :
    offset + (page value offset mtu).length = value.length ∧
      ending.pageCount mtu (value.length - offset) = 1 := by
  cases ending with
  | empty =>
    have hnone : (page value offset mtu).length = 0 :=
      List.length_eq_zero_iff.mpr (List.isEmpty_iff.mp h)
    rw [length_page] at hnone ⊢
    have hleft : value.length - offset = 0 := by omega
    have hcount : (0 + (mtu - 2)) / (mtu - 1) = 0 := Nat.div_eq_of_lt (by omega)
    rw [hleft, Ending.pageCount, hcount]
    omega
  | short =>
    have hshort : (page value offset mtu).length < mtu - 1 := by simpa [Ending.isLast] using h
    rw [length_page] at hshort ⊢
    have hcount : (value.length - offset) / (mtu - 1) = 0 := Nat.div_eq_of_lt (by omega)
    rw [Ending.pageCount, hcount]
    omega

/-- A full page counts for one. -/
theorem pageCount_add (ending : Ending) (hmtu : 2 ≤ mtu) (length : Nat) :
    ending.pageCount mtu (length + (mtu - 1)) = ending.pageCount mtu length + 1 := by
  have hpos : 0 < mtu - 1 := by omega
  cases ending with
  | empty =>
    rw [Ending.pageCount, Ending.pageCount, Nat.add_right_comm, Nat.add_div_right _ hpos]
  | short => rw [Ending.pageCount, Ending.pageCount, Nat.add_div_right _ hpos]

/-- Any other page takes the reader further, and counts for one. -/
theorem of_not_isLast (hmtu : 2 ≤ mtu) (hoffset : offset ≤ value.length)
    (h : ending.isLast mtu (page value offset mtu) = false) :
    offset < offset + (page value offset mtu).length ∧
      offset + (page value offset mtu).length ≤ value.length ∧
      ending.pageCount mtu (value.length - offset) =
        ending.pageCount mtu (value.length - (offset + (page value offset mtu).length)) + 1 := by
  have hcut : (page value offset mtu).length = min (mtu - 1) (value.length - offset) := length_page
  by_cases hfull : mtu - 1 ≤ value.length - offset
  · have hleft : value.length - offset =
        value.length - (offset + (page value offset mtu).length) + (mtu - 1) := by omega
    refine ⟨by omega, by omega, ?_⟩
    rw [← pageCount_add ending hmtu, ← hleft]
  · -- a page that is not full is not the last one only for a reader that waits for an empty one
    cases ending with
    | short =>
      have hfull' : ¬ (page value offset mtu).length < mtu - 1 := of_decide_eq_false h
      omega
    | empty =>
      have hsome : (page value offset mtu).length ≠ 0 := fun hnone => by
        simp [Ending.isLast, List.length_eq_zero_iff.mp hnone] at h
      refine ⟨by omega, by omega, ?_⟩
      have hnow : (value.length - offset + (mtu - 2)) / (mtu - 1) = 1 :=
        Nat.div_eq_of_lt_le (by omega) (by omega)
      have hthen : (value.length - (offset + (page value offset mtu).length) + (mtu - 2)) /
          (mtu - 1) = 0 := Nat.div_eq_of_lt (by omega)
      rw [Ending.pageCount, Ending.pageCount, hnow, hthen]

/-- From any offset a reader gets what is left, ends behind the last byte, and nothing else can
happen to it. The bytes that are left are the measure. -/
theorem exists_reads (ending : Ending) (hmtu : 2 ≤ mtu) (hoffset : offset ≤ value.length) :
    ∃ got, got.flatten = value.drop offset ∧
      got.length = ending.pageCount mtu (value.length - offset) ∧
      ∀ other stop, Reads value mtu ending offset other stop ↔
        other = got ∧ stop = value.length := by
  induction hleft : value.length - offset using Nat.strongRecOn generalizing offset with
  | ind left ih =>
    subst hleft
    rcases h : ending.isLast mtu (page value offset mtu) with _ | _
    · -- all that is left but this page, by induction on how much that is
      obtain ⟨hfurther, hwithin, hcount⟩ := of_not_isLast hmtu hoffset h
      obtain ⟨rest, hrest, hlength, honly⟩ := ih _ (by omega) hwithin rfl
      refine ⟨page value offset mtu :: rest, ?_, ?_, fun other stop => ?_⟩
      · rw [List.flatten_cons, hrest, page_append_drop]
      · rw [List.length_cons, hlength, hcount]
      · simp only [reads_of_not_isLast h, honly]
        constructor
        · rintro ⟨_, rfl, rfl, rfl⟩
          exact ⟨rfl, rfl⟩
        · rintro ⟨rfl, rfl⟩
          exact ⟨rest, rfl, rfl, rfl⟩
    · obtain ⟨hend, hcount⟩ := of_isLast hmtu hoffset h
      refine ⟨[page value offset mtu], ?_, hcount.symm, fun other stop => ?_⟩
      · have hall : page value offset mtu ++ value.drop _ = value.drop offset := page_append_drop
        rw [hend, List.drop_length, List.append_nil] at hall
        rw [List.flatten_singleton, hall]
      · rw [reads_of_isLast h, hend]

/-- `pagesFrom` lists the pages of a reader that waits for an empty one, if it has fuel for a page
each byte. -/
theorem reads_pagesFrom (hmtu : 2 ≤ mtu) {fuel : Nat} (hoffset : offset ≤ value.length)
    (hfuel : value.length - offset < fuel) :
    Reads value mtu .empty offset (pagesFrom value mtu fuel offset ++ [[]]) value.length := by
  induction fuel generalizing offset with
  | zero => omega
  | succ fuel ih =>
    rw [pagesFrom]
    rcases hpage : page value offset mtu with _ | ⟨byte, bytes⟩
    · have hlast : Ending.empty.isLast mtu (page value offset mtu) = true := by
        simp [Ending.isLast, hpage]
      rw [reads_of_isLast hlast, (of_isLast hmtu hoffset hlast).1, hpage]
      exact ⟨rfl, rfl⟩
    · have hmore : Ending.empty.isLast mtu (page value offset mtu) = false := by
        simp [Ending.isLast, hpage]
      obtain ⟨hfurther, hwithin, -⟩ := of_not_isLast hmtu hoffset hmore
      rw [reads_of_not_isLast hmore]
      rw [hpage] at hfurther hwithin ⊢
      exact ⟨_, rfl, ih hwithin (by omega)⟩

/-- **A value is what its pages hold.** A page is cut out of the value at any offset, is no longer than
the transfer unit allows, and is empty from the end on. Of a reader only one thing can come: it gets
the whole value in a number of pages that the lengths tell, and ends behind the last byte. `pages` lists
what a reader gets before the empty page that it waits for. -/
theorem pages_reassemble (value : Bytes) {mtu : Nat} (hmtu : 2 ≤ mtu) :
    (∀ offset, page? value offset mtu = some (page value offset mtu) ∧
      (page value offset mtu).length ≤ mtu - 1 ∧
      (value.length ≤ offset → page value offset mtu = [])) ∧
    Reads value mtu .empty 0 (pages value mtu ++ [[]]) value.length ∧
    ∀ ending : Ending, ∃ got, got.flatten = value ∧
      got.length = ending.pageCount mtu value.length ∧
      ∀ other stop, Reads value mtu ending 0 other stop ↔ other = got ∧ stop = value.length := by
  refine ⟨fun offset => ⟨page?_eq, ?_, page_of_le⟩, ?_, fun ending => ?_⟩
  · rw [length_page]
    exact Nat.min_le_left ..
  · exact reads_pagesFrom hmtu (Nat.zero_le _) (Nat.lt_succ_self _)
  · exact exists_reads ending hmtu (Nat.zero_le _)

/-- Four bytes fill two pages of two bytes. The reader that waits for a page that is not full has to ask
for a third one as well. -/
theorem pages_reassemble_evenly :
    2 ≤ 3 ∧ Reads [1, 2, 3, 4] 3 .short 0 [[1, 2], [3, 4], []] 4 ∧
      ∃ got, got.flatten = [1, 2, 3, 4] ∧ got.length = 3 ∧
        ∀ other stop, Reads [1, 2, 3, 4] 3 .short 0 other stop ↔ other = got ∧ stop = 4 := by
  have hreads : Reads [1, 2, 3, 4] 3 .short 0 [[1, 2], [3, 4], []] 4 :=
    .more rfl (.more rfl (.last rfl))
  exact ⟨by decide, hreads, (pages_reassemble [1, 2, 3, 4] (by decide : 2 ≤ 3)).2.2 .short⟩

end Nearby.Paging
