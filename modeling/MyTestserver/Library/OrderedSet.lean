import Mathlib.Data.List.Sort

namespace MyTestserver

-- A set that is walked through in order, as std::set is: its elements, each larger than the
-- ones before.
structure OrderedSet (α : Type*) [LinearOrder α] where
  elems : List α
  sorted : elems.Pairwise (· < ·)

namespace OrderedSet

variable {α : Type*} [LinearOrder α]

instance : Membership α (OrderedSet α) where
  mem s a := a ∈ s.elems

instance (s : OrderedSet α) (a : α) : Decidable (a ∈ s) := inferInstanceAs (Decidable (a ∈ s.elems))

theorem mem_def {s : OrderedSet α} {a : α} : a ∈ s ↔ a ∈ s.elems := Iff.rfl

def empty : OrderedSet α := ⟨[], List.Pairwise.nil⟩

theorem sorted_orderedInsert {a : α} {l : List α} (hl : l.Pairwise (· < ·)) (ha : a ∉ l) :
    (l.orderedInsert (· ≤ ·) a).Pairwise (· < ·) := by
  have hle : (l.orderedInsert (· ≤ ·) a).Pairwise (· ≤ ·) :=
    (hl.imp fun hlt => hlt.le).orderedInsert a l
  have hnodup : (l.orderedInsert (· ≤ ·) a).Nodup :=
    (List.perm_orderedInsert (· ≤ ·) a l).nodup_iff.mpr
      (List.nodup_cons.mpr ⟨ha, hl.imp fun hlt => hlt.ne⟩)
  exact (hle.and hnodup).imp fun h => lt_of_le_of_ne h.1 h.2

-- An element that is there already stays as it is.
def insert (s : OrderedSet α) (a : α) : OrderedSet α :=
  if h : a ∈ s.elems then s
  else ⟨s.elems.orderedInsert (· ≤ ·) a, sorted_orderedInsert s.sorted h⟩

def erase (s : OrderedSet α) (a : α) : OrderedSet α :=
  ⟨s.elems.erase a, s.sorted.sublist List.erase_sublist⟩

-- The element at begin().
def first (s : OrderedSet α) : Option α := s.elems.head?

-- What lies before upper_bound(a), in order, and what lies behind.
def upTo (s : OrderedSet α) (a : α) : List α := s.elems.takeWhile (· ≤ a)

def above (s : OrderedSet α) (a : α) : OrderedSet α :=
  ⟨s.elems.dropWhile (· ≤ a), s.sorted.sublist (List.dropWhile_sublist _)⟩

variable (s : OrderedSet α) {a x : α}

@[simp] theorem not_mem_empty : x ∉ (empty : OrderedSet α) := List.not_mem_nil

@[simp] theorem mem_insert : x ∈ s.insert a ↔ x = a ∨ x ∈ s := by
  unfold insert
  split
  · rename_i ha
    exact ⟨Or.inr, fun h => h.elim (fun heq => heq ▸ ha) id⟩
  · exact List.mem_orderedInsert (· ≤ ·)

@[simp] theorem mem_erase : x ∈ s.erase a ↔ x ≠ a ∧ x ∈ s := by
  have hnodup : s.elems.Nodup := s.sorted.imp fun hlt => hlt.ne
  exact hnodup.mem_erase_iff

theorem first_eq_none_iff : s.first = none ↔ ∀ x, x ∉ s := by
  rw [first, List.head?_eq_none_iff, List.eq_nil_iff_forall_not_mem]
  rfl

theorem first_eq_some_iff : s.first = some a ↔ a ∈ s ∧ ∀ x ∈ s, a ≤ x := by
  obtain ⟨elems, sorted⟩ := s
  cases elems with
  | nil => simp [first, mem_def]
  | cons b rest =>
      have hlt : ∀ x ∈ rest, b < x := (List.pairwise_cons.mp sorted).1
      simp only [first, List.head?_cons, Option.some.injEq, mem_def, List.forall_mem_cons]
      constructor
      · rintro rfl
        exact ⟨by simp, le_rfl, fun x hx => (hlt x hx).le⟩
      · rintro ⟨hmem, hle, _⟩
        rcases List.mem_cons.mp hmem with rfl | hrest
        · rfl
        · exact absurd hle (not_le_of_gt (hlt a hrest))

theorem upTo_sorted : (s.upTo a).Pairwise (· < ·) := s.sorted.sublist (List.takeWhile_sublist _)

-- In order, the elements up to `a` are a front part.
theorem mem_upTo : x ∈ s.upTo a ↔ x ∈ s ∧ x ≤ a := by
  obtain ⟨elems, sorted⟩ := s
  simp only [upTo, mem_def]
  induction elems with
  | nil => simp
  | cons b rest ih =>
      obtain ⟨hlt, hrest⟩ := List.pairwise_cons.mp sorted
      by_cases hb : b ≤ a
      · rw [List.takeWhile_cons_of_pos (by simpa using hb), List.mem_cons, ih hrest, List.mem_cons]
        constructor
        · rintro (rfl | ⟨hmem, hle⟩)
          · exact ⟨.inl rfl, hb⟩
          · exact ⟨.inr hmem, hle⟩
        · rintro ⟨rfl | hmem, hle⟩
          · exact .inl rfl
          · exact .inr ⟨hmem, hle⟩
      · rw [List.takeWhile_cons_of_neg (by simpa using hb)]
        refine iff_of_false List.not_mem_nil ?_
        rintro ⟨hmem, hle⟩
        rcases List.mem_cons.mp hmem with rfl | hmem
        · exact hb hle
        · exact hb ((hlt x hmem).le.trans hle)

@[simp] theorem mem_above : x ∈ s.above a ↔ x ∈ s ∧ a < x := by
  obtain ⟨elems, sorted⟩ := s
  simp only [above, mem_def]
  induction elems with
  | nil => simp
  | cons b rest ih =>
      obtain ⟨hlt, hrest⟩ := List.pairwise_cons.mp sorted
      by_cases hb : b ≤ a
      · rw [List.dropWhile_cons_of_pos (by simpa using hb), ih hrest, List.mem_cons]
        constructor
        · rintro ⟨hmem, hx⟩
          exact ⟨.inr hmem, hx⟩
        · rintro ⟨rfl | hmem, hx⟩
          · exact absurd hx (not_lt_of_ge hb)
          · exact ⟨hmem, hx⟩
      · rw [List.dropWhile_cons_of_neg (by simpa using hb)]
        refine ⟨fun hmem => ⟨hmem, ?_⟩, fun h => h.1⟩
        rcases List.mem_cons.mp hmem with rfl | hmem
        · exact not_le.mp hb
        · exact (not_le.mp hb).trans (hlt x hmem)

end OrderedSet

end MyTestserver
