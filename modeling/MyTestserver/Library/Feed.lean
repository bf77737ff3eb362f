import Mathlib.Data.List.DropRight
import Mathlib.Data.List.Infix

namespace MyTestserver.Feed

variable {α : Type*} {k n : ℕ} {view log : List α}

-- A reader sees the end of the log, with no gap, and at least its last `k` entries as far
-- as there are so many.
structure Recent (k : ℕ) (view log : List α) : Prop where
  least : log.rtake k <:+ view
  suffix : view <:+ log

theorem rtake_suffix (log : List α) (n : ℕ) : log.rtake n <:+ log := List.drop_suffix _ _

theorem length_rtake (log : List α) (n : ℕ) : (log.rtake n).length = min n log.length := by
  rw [List.rtake, List.length_drop]
  omega

-- Following the log as it grows.
theorem Recent.append (h : Recent k view log) (items : List α) :
    Recent k (view ++ items) (log ++ items) := by
  obtain ⟨before, rfl⟩ := h.suffix
  have hview : view ++ items <:+ before ++ view ++ items := by
    rw [List.append_assoc]
    exact List.suffix_append _ _
  refine ⟨List.suffix_of_suffix_length_le (rtake_suffix _ k) hview ?_, hview⟩
  have hlength := h.least.length_le
  rw [length_rtake] at hlength
  rw [length_rtake]
  simp only [List.length_append] at hlength ⊢
  omega

end MyTestserver.Feed
