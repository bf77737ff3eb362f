import Mathlib.Data.List.DropRight
import Mathlib.Data.List.Sort

namespace MyTestserver.Ranking

section Descending

variable {α β κ : Type*} [LinearOrder κ]

-- An order of the elements of a list by a key, the largest first. Elements with the same
-- key are in any order.
structure Descending (key : α → κ) (l order : List α) : Prop where
  perm : order.Perm l
  sorted : (order.map key).Pairwise (· ≥ ·)

variable {key : α → κ} {l order order' : List α}

theorem descending_reverse (hl : (l.map key).Pairwise (· ≤ ·)) : Descending key l l.reverse where
  perm := l.reverse_perm
  sorted := by
    rw [List.map_reverse]
    exact List.pairwise_reverse.mpr hl

theorem exists_descending (key : α → κ) (l : List α) : ∃ order, Descending key l order := by
  have htrans : ∀ a b c, decide (key b ≤ key a) = true → decide (key c ≤ key b) = true →
      decide (key c ≤ key a) = true := by
    intro a b c hab hbc
    exact decide_eq_true ((of_decide_eq_true hbc).trans (of_decide_eq_true hab))
  have htotal : ∀ a b, (decide (key b ≤ key a) || decide (key a ≤ key b)) = true := by
    intro a b
    simpa using le_total (key b) (key a)
  have hsorted := List.pairwise_mergeSort htrans htotal l
  exact ⟨_, List.mergeSort_perm _ _, List.pairwise_map.mpr (hsorted.imp of_decide_eq_true)⟩

-- The keys come in one order only.
theorem Descending.map_key_eq (h : Descending key l order) (h' : Descending key l order') :
    order.map key = order'.map key :=
  ((h.perm.trans h'.perm.symm).map key).eq_of_pairwise' h.sorted h'.sorted

theorem Descending.key_getElem (h : Descending key l order) (h' : Descending key l order') {i : ℕ}
    (hi : i < order.length) (hi' : i < order'.length) : key order[i] = key order'[i] := by
  have hkey := congrArg (·[i]?) (h.map_key_eq h')
  simpa [List.getElem?_eq_getElem, hi, hi'] using hkey

-- Two elements with the same key may change places.
theorem Descending.swap (h : Descending key l order) {i j : ℕ} (hi : i < order.length)
    (hj : j < order.length) (hkey : key order[i] = key order[j]) :
    Descending key l ((order.set i order[j]).set j order[i]) where
  perm := (List.set_set_perm hi hj).trans h.perm
  sorted := by
    have hkeep : ∀ i (hi : i < order.length),
        (order.map key).set i (key order[i]) = order.map key := by
      intro i hi
      have hlength : i < (order.map key).length := by rwa [List.length_map]
      have hget : (order.map key)[i] = key order[i] := List.getElem_map key
      rw [← hget, List.set_getElem_self]
    have hsame : ((order.set i order[j]).set j order[i]).map key = order.map key := by
      rw [List.map_set, List.map_set, ← hkey, hkeep i hi, hkey, hkeep j hj]
    rw [hsame]
    exact h.sorted

theorem mem_rtake_iff {b : α} {k : ℕ} :
    b ∈ l.rtake k ↔ ∃ i, ∃ hi : i < l.reverse.length, i < k ∧ l.reverse[i] = b := by
  rw [List.rtake_eq_reverse_take_reverse, List.mem_reverse, List.mem_take_iff_getElem]
  constructor
  · rintro ⟨i, hi, rfl⟩
    exact ⟨i, (Nat.lt_min.mp hi).2, (Nat.lt_min.mp hi).1, rfl⟩
  · rintro ⟨i, hi, hik, rfl⟩
    exact ⟨i, Nat.lt_min.mpr ⟨hik, hi⟩, rfl⟩

variable {f g : α → β} {k : ℕ}

theorem map_rtake_eq_iff (order : List α) :
    ((order.take k).map f).reverse = (l.rtake k).map g ↔
      (order.take k).map f = (l.reverse.take k).map g := by
  rw [List.rtake_eq_reverse_take_reverse, List.map_reverse, List.reverse_inj]

-- Whatever order is chosen, its first elements are the last of an ascending list, as far
-- as they are looked at, exactly when no element with the key of one of these looks
-- different.
theorem take_descending_iff (hl : (l.map key).Pairwise (· ≤ ·)) :
    (∀ order, Descending key l order → ((order.take k).map f).reverse = (l.rtake k).map g) ↔
      ∀ a ∈ l, ∀ b ∈ l.rtake k, key a = key b → f a = g b := by
  have hreverse := descending_reverse hl
  simp only [map_rtake_eq_iff]
  constructor
  · intro hall a ha b hb hkey
    obtain ⟨i, hi, hik, rfl⟩ := mem_rtake_iff.mp hb
    obtain ⟨j, hj, rfl⟩ := List.mem_iff_getElem.mp (List.mem_reverse.mpr ha)
    -- The order in which the two have changed places shows the one where the other was.
    have hswap := hreverse.swap hi hj hkey.symm
    have hbound : i < ((l.reverse.set i l.reverse[j]).set j l.reverse[i]).length := by
      rwa [List.length_set, List.length_set]
    have hmoved : ((l.reverse.set i l.reverse[j]).set j l.reverse[i])[i] = l.reverse[j] := by
      rw [List.getElem_set]
      split
      · rename_i hsame
        subst hsame
        rfl
      · exact List.getElem_set_self _
    have hlength : i <
        ((((l.reverse.set i l.reverse[j]).set j l.reverse[i]).take k).map f).length := by
      rw [List.length_map, List.length_take]
      exact Nat.lt_min.mpr ⟨hik, hbound⟩
    have hplace := List.getElem_of_eq (hall _ hswap) hlength
    rwa [List.getElem_map, List.getElem_map, List.getElem_take, List.getElem_take, hmoved] at hplace
  · intro hties order horder
    refine List.ext_getElem (by simp [horder.perm.length_eq]) fun i hi hi' => ?_
    rw [List.length_map, List.length_take, Nat.lt_min] at hi hi'
    rw [List.getElem_map, List.getElem_map, List.getElem_take, List.getElem_take]
    exact hties _ (horder.perm.mem_iff.mp (List.getElem_mem hi.2)) _
      (mem_rtake_iff.mpr ⟨i, hi'.2, hi'.1, rfl⟩) (horder.key_getElem hreverse hi.2 hi'.2)

end Descending

end MyTestserver.Ranking
