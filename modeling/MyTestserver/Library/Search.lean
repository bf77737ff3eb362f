import Mathlib.Data.List.Infix

namespace MyTestserver.Search

variable {α : Type*} [DecidableEq α]

-- The first position from `pos` on at which the pattern occurs.
def find (text pat : List α) (pos : ℕ) : Option ℕ :=
  (List.range (text.length + 1)).find? fun i => pos ≤ i ∧ pat <+: text.drop i

theorem find_eq_some_iff (text pat : List α) (pos i : ℕ) :
    find text pat pos = some i ↔
      pos ≤ i ∧ i ≤ text.length ∧ pat <+: text.drop i ∧
        ∀ j, pos ≤ j → j < i → ¬pat <+: text.drop j := by
  simp only [find, List.find?_range_eq_some, decide_eq_true_eq, List.mem_range, Nat.lt_succ_iff]
  constructor
  · rintro ⟨⟨hpos, hpat⟩, hle, hfirst⟩
    refine ⟨hpos, hle, hpat, fun j hj hlt hocc => ?_⟩
    simpa [hj, hocc] using hfirst j hlt
  · rintro ⟨hpos, hle, hpat, hfirst⟩
    refine ⟨⟨hpos, hpat⟩, hle, fun j hlt => ?_⟩
    by_cases hj : pos ≤ j
    · simp [hj, hfirst j hj hlt]
    · simp [hj]

theorem find_eq_none_iff (text pat : List α) (pos : ℕ) :
    find text pat pos = none ↔ ∀ i, pos ≤ i → i ≤ text.length → ¬pat <+: text.drop i := by
  simp only [find, List.find?_eq_none, List.mem_range, Nat.lt_succ_iff, decide_eq_true_eq, not_and]
  exact ⟨fun h i hpos hle => h i hle hpos, fun h i hle hpos => h i hpos hle⟩

omit [DecidableEq α] in
theorem prefix_drop_append {text pat : List α} {i : ℕ} (more : List α)
    (hi : i + pat.length ≤ text.length) :
    pat <+: (text ++ more).drop i ↔ pat <+: text.drop i := by
  rw [List.drop_append_of_le_length (by omega)]
  constructor
  · intro h
    exact List.prefix_of_prefix_length_le h (List.prefix_append _ _)
      (by rw [List.length_drop]; omega)
  · intro h
    exact h.trans (List.prefix_append _ _)

theorem find_ne_none_iff (text pat : List α) : find text pat 0 ≠ none ↔ pat <:+: text := by
  rw [Ne, find_eq_none_iff]
  constructor
  · intro h
    simp only [not_forall, not_not] at h
    obtain ⟨i, _, _, hocc⟩ := h
    exact hocc.isInfix.trans (List.drop_suffix i text).isInfix
  · rintro ⟨before, after, rfl⟩ hnone
    refine hnone before.length (Nat.zero_le _) (by simp) ?_
    rw [List.append_assoc, List.drop_left]
    exact List.prefix_append _ _

-- Text in front of all that is looked at only shifts the positions.
theorem find_append_left (before text pat : List α) (pos : ℕ) :
    find (before ++ text) pat (before.length + pos) =
      (find text pat pos).map (before.length + ·) := by
  have hdrop : ∀ i, (before ++ text).drop (before.length + i) = text.drop i := by
    intro i
    rw [← List.drop_drop, List.drop_left]
  cases hfind : find text pat pos with
  | none =>
      rw [find_eq_none_iff] at hfind
      rw [Option.map_none, find_eq_none_iff]
      intro i hpos hle hocc
      obtain ⟨j, rfl⟩ := Nat.exists_eq_add_of_le (Nat.le_of_add_right_le hpos)
      rw [hdrop] at hocc
      rw [List.length_append] at hle
      exact hfind j (by omega) (by omega) hocc
  | some i =>
      obtain ⟨hpos, hle, hocc, hfirst⟩ := (find_eq_some_iff _ _ _ _).mp hfind
      rw [Option.map_some, find_eq_some_iff]
      refine ⟨by omega, by rw [List.length_append]; omega, by rwa [hdrop], fun j hj hlt hocc => ?_⟩
      obtain ⟨k, rfl⟩ := Nat.exists_eq_add_of_le (Nat.le_of_add_right_le hj)
      rw [hdrop] at hocc
      exact hfirst k (by omega) (by omega) hocc

-- Positions where there is no occurrence can be skipped.
theorem find_skip {text pat : List α} {pos pos' : ℕ} (hle : pos ≤ pos')
    (h : ∀ i, pos ≤ i → i < pos' → ¬pat <+: text.drop i) :
    find text pat pos = find text pat pos' := by
  have hiff : ∀ i, find text pat pos = some i ↔ find text pat pos' = some i := by
    intro i
    rw [find_eq_some_iff, find_eq_some_iff]
    constructor
    · rintro ⟨hpos, hlen, hocc, hfirst⟩
      have hskip : pos' ≤ i := Nat.not_lt.mp fun hlt => h i hpos hlt hocc
      exact ⟨hskip, hlen, hocc, fun j hj hlt => hfirst j (by omega) hlt⟩
    · rintro ⟨hpos, hlen, hocc, hfirst⟩
      refine ⟨by omega, hlen, hocc, fun j hj hlt => ?_⟩
      by_cases hjpos : j < pos'
      · exact h j hj hjpos
      · exact hfirst j (by omega) hlt
  exact Option.ext hiff

section Cut

-- A letter that the pattern does not have cuts the text: every occurrence is on one side.

variable {pat a b : List α} {c : α}

omit [DecidableEq α] in
theorem prefix_cut (hc : c ∉ pat) : pat <+: a ++ c :: b ↔ pat <+: a := by
  induction a generalizing pat with
  | nil =>
      cases pat with
      | nil => simp
      | cons x pat =>
          have hne : x ≠ c := fun h => hc (by simp [h])
          simp [List.cons_prefix_cons, hne]
  | cons y a ih =>
      cases pat with
      | nil => simp
      | cons x pat =>
          rw [List.cons_append, List.cons_prefix_cons, List.cons_prefix_cons,
            ih fun h => hc (List.mem_cons_of_mem _ h)]

theorem find_cut_some {i pos : ℕ} (hc : c ∉ pat) (h : find a pat pos = some i) :
    find (a ++ c :: b) pat pos = some i := by
  obtain ⟨hpos, hle, hocc, hfirst⟩ := (find_eq_some_iff _ _ _ _).mp h
  refine (find_eq_some_iff _ _ _ _).mpr ⟨hpos, by rw [List.length_append]; omega, ?_,
    fun j hj hlt hocc => hfirst j hj hlt ?_⟩
  · rwa [List.drop_append_of_le_length hle, prefix_cut hc]
  · rwa [List.drop_append_of_le_length (by omega), prefix_cut hc] at hocc

theorem find_cut_none {pos : ℕ} (hc : c ∉ pat) (h : find a pat pos = none) (hpos : pos ≤ a.length) :
    find (a ++ c :: b) pat pos = (find b pat 0).map (a.length + 1 + ·) := by
  have hnone := (find_eq_none_iff _ _ _).mp h
  have hshift := find_append_left (a ++ [c]) b pat 0
  rw [List.length_append, List.length_singleton, List.append_assoc, List.singleton_append] at hshift
  rw [← hshift]
  refine find_skip (by omega) fun i hi hlt hocc => ?_
  have hle : i ≤ a.length := by omega
  rw [List.drop_append_of_le_length hle, prefix_cut hc] at hocc
  exact hnone i hi hle hocc

end Cut

end MyTestserver.Search
