import Mathlib.Data.List.Basic

namespace MyTestserver.History

variable {α : Type*} {a b e : α} {log : List α}

-- In a log with the latest entry in front, `b` stands after an `a`.
def After (log : List α) (a b : α) : Prop := ∃ late early, log = late ++ a :: early ∧ b ∈ late

theorem not_after_nil : ¬After [] a b := by
  rintro ⟨late, early, hlog, _⟩
  simp at hlog

-- A new entry comes after all that are there.
@[simp] theorem after_cons_iff : After (e :: log) a b ↔ b = e ∧ a ∈ log ∨ After log a b := by
  constructor
  · rintro ⟨late, early, hlog, hb⟩
    cases late with
    | nil => exact absurd hb List.not_mem_nil
    | cons e' late =>
        rw [List.cons_append] at hlog
        obtain ⟨rfl, rfl⟩ := List.cons.inj hlog
        rcases List.mem_cons.mp hb with rfl | hb
        · exact .inl ⟨rfl, by simp⟩
        · exact .inr ⟨late, early, rfl, hb⟩
  · rintro (⟨rfl, ha⟩ | ⟨late, early, rfl, hb⟩)
    · obtain ⟨late, early, rfl⟩ := List.append_of_mem ha
      exact ⟨b :: late, early, rfl, by simp⟩
    · exact ⟨e :: late, early, rfl, List.mem_cons_of_mem _ hb⟩

theorem After.mem_left (h : After log a b) : a ∈ log := by
  obtain ⟨late, early, rfl, _⟩ := h
  simp

instance decidableAfter [DecidableEq α] : (log : List α) → Decidable (After log a b)
  | [] => .isFalse not_after_nil
  | _ :: log =>
      have := decidableAfter log
      decidable_of_iff _ after_cons_iff.symm

end MyTestserver.History
