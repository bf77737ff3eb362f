import Mathlib.Data.List.Basic

namespace MyTestserver.Separation

variable {α : Type*} (p q : α → Prop)

-- Every entry of the first kind is followed by one of the second.
def Cleared (xs : List α) : Prop :=
  ∀ as x bs, xs = as ++ x :: bs → p x → ∃ y ∈ bs, q y

-- Between two entries of the first kind there is one of the second.
def Separated (xs : List α) : Prop :=
  ∀ as x bs y cs, xs = as ++ x :: (bs ++ y :: cs) → p x → p y → ∃ z ∈ bs, q z

variable {p q} {xs : List α} {x : α}

theorem cleared_nil : Cleared p q [] := by
  intro as y bs h
  simp at h

theorem separated_nil : Separated p q [] := by
  intro as y bs z cs h
  simp at h

-- An entry at the end of a list is its last, or in what is before the last.
theorem snoc_eq_append_cons {as bs : List α} {y : α} (h : xs ++ [x] = as ++ y :: bs) :
    (bs = [] ∧ xs = as ∧ x = y) ∨ ∃ bs', bs = bs' ++ [x] ∧ xs = as ++ y :: bs' := by
  rcases List.eq_nil_or_concat bs with rfl | ⟨bs', z, rfl⟩
  · obtain ⟨rfl, hx⟩ := List.append_inj' h rfl
    exact .inl ⟨rfl, rfl, List.singleton_inj.mp hx⟩
  · rw [List.concat_eq_append, ← List.cons_append, ← List.append_assoc] at h
    obtain ⟨rfl, hx⟩ := List.append_inj' h rfl
    obtain rfl := List.singleton_inj.mp hx
    exact .inr ⟨bs', List.concat_eq_append, rfl⟩

theorem Cleared.snoc (h : Cleared p q xs) (hx : ¬p x) : Cleared p q (xs ++ [x]) := by
  intro as y bs heq hy
  rcases snoc_eq_append_cons heq with ⟨rfl, rfl, rfl⟩ | ⟨bs', rfl, rfl⟩
  · exact absurd hy hx
  · obtain ⟨z, hz, hq⟩ := h _ _ _ rfl hy
    exact ⟨z, List.mem_append_left _ hz, hq⟩

theorem cleared_snoc_of_stop (hx : ¬p x) (hq : q x) : Cleared p q (xs ++ [x]) := by
  intro as y bs heq hy
  rcases snoc_eq_append_cons heq with ⟨rfl, rfl, rfl⟩ | ⟨bs', rfl, rfl⟩
  · exact absurd hy hx
  · exact ⟨x, by simp, hq⟩

theorem Separated.snoc (h : Separated p q xs) (hx : p x → Cleared p q xs) :
    Separated p q (xs ++ [x]) := by
  intro as y bs z cs heq hy hz
  rw [← List.cons_append, ← List.append_assoc] at heq
  rcases snoc_eq_append_cons heq with ⟨rfl, rfl, rfl⟩ | ⟨cs', rfl, rfl⟩
  · exact hx hz as y bs rfl hy
  · exact h as y bs z cs' (by simp) hy hz

end MyTestserver.Separation
