import Mathlib.Data.List.Basic

namespace MyTestserver.Transducer

variable {σ α β γ : Type*}

-- A machine that reads its input letter by letter and puts out items as it goes; it may
-- refuse a letter.
abbrev Machine (σ α β : Type*) := σ → α → Option (σ × List β)

def run (machine : Machine σ α β) : σ → List α → Option (σ × List β)
  | s, [] => some (s, [])
  | s, x :: xs =>
      match machine s x with
      | none => none
      | some (t, out) =>
          match run machine t xs with
          | none => none
          | some (u, more) => some (u, out ++ more)

-- The machine gets from one state to the other over the input, with this output.
def Reads (machine : Machine σ α β) (s : σ) (xs : List α) (out : List β) (t : σ) : Prop :=
  run machine s xs = some (t, out)

instance [DecidableEq σ] [DecidableEq β] (machine : Machine σ α β) (s : σ) (xs : List α)
    (out : List β) (t : σ) : Decidable (Reads machine s xs out t) :=
  inferInstanceAs (Decidable (run machine s xs = some (t, out)))

variable {machine : Machine σ α β} {s t u : σ} {x : α} {xs ys : List α} {out more : List β}

theorem Reads.nil : Reads machine s [] [] s := rfl

theorem Reads.cons (h : machine s x = some (t, out)) (h' : Reads machine t xs more u) :
    Reads machine s (x :: xs) (out ++ more) u := by
  have hrest : run machine t xs = some (u, more) := h'
  simp only [Reads, run, h, hrest]

theorem Reads.append (h : Reads machine s xs out t) (h' : Reads machine t ys more u) :
    Reads machine s (xs ++ ys) (out ++ more) u := by
  induction xs generalizing s out with
  | nil =>
      obtain ⟨rfl, rfl⟩ := Prod.mk.inj (Option.some.inj h)
      exact h'
  | cons x xs ih =>
      simp only [Reads, run] at h
      cases hx : machine s x with
      | none => simp [hx] at h
      | some first =>
          obtain ⟨v, o⟩ := first
          cases hrest : run machine v xs with
          | none => simp [hx, hrest] at h
          | some rest =>
              obtain ⟨w, r⟩ := rest
              obtain ⟨rfl, rfl⟩ : w = t ∧ o ++ r = out := by simpa [hx, hrest] using h
              rw [List.cons_append, List.append_assoc]
              exact .cons hx (ih hrest)

-- A code for single letters that the machine reads silently, only noting the letter, is
-- read so for whole strings.
theorem Reads.flatMap (code : γ → List α) (state : List γ → σ) {cs : List γ}
    (h : ∀ done, ∀ c ∈ cs, Reads machine (state done) (code c) [] (state (done ++ [c])))
    (done : List γ) : Reads machine (state done) (cs.flatMap code) [] (state (done ++ cs)) := by
  induction cs generalizing done with
  | nil =>
      rw [List.append_nil]
      exact .nil
  | cons c cs ih =>
      have hrest := ih (fun done d hd => h done d (List.mem_cons_of_mem _ hd)) (done ++ [c])
      rw [List.append_assoc, List.singleton_append] at hrest
      exact (h done c (by simp)).append hrest

end MyTestserver.Transducer
