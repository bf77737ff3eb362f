import Mathlib.Data.Nat.Notation
import Mathlib.Logic.Relation

namespace MyTestserver.Transition

section Path

variable {σ ε : Type*}

-- A finite run: the events of the list happen one after the other, from the
-- first state to the last.
inductive Path (step : σ → ε → σ → Prop) : σ → List ε → σ → Prop
  | nil (s : σ) : Path step s [] s
  | cons {s t u : σ} {e : ε} {es : List ε} :
      step s e t → Path step t es u → Path step s (e :: es) u

-- The system restricted to the steps that meet a condition on the state before
-- the step and on the event.
def restrict (good : σ → ε → Prop) (step : σ → ε → σ → Prop) : σ → ε → σ → Prop :=
  fun s e t => good s e ∧ step s e t

variable {step step' : σ → ε → σ → Prop} {s t u : σ} {e : ε} {es fs : List ε}

theorem Path.append (h : Path step s es t) (h' : Path step t fs u) :
    Path step s (es ++ fs) u := by
  induction h with
  | nil => exact h'
  | cons hs _ ih => exact .cons hs (ih h')

theorem Path.snoc (h : Path step s es t) (hs : step t e u) : Path step s (es ++ [e]) u :=
  h.append (.cons hs (.nil u))

-- A run can be cut between any two of its events.
theorem Path.of_append (h : Path step s (es ++ fs) u) :
    ∃ t, Path step s es t ∧ Path step t fs u := by
  induction es generalizing s with
  | nil => exact ⟨s, .nil s, h⟩
  | cons e es ih =>
      obtain _ | ⟨hs, hrest⟩ := h
      obtain ⟨t, hes, hfs⟩ := ih hrest
      exact ⟨t, .cons hs hes, hfs⟩

theorem Path.mono (hsub : ∀ s e t, step s e t → step' s e t) (h : Path step s es t) :
    Path step' s es t := by
  induction h with
  | nil => exact .nil _
  | cons hs _ ih => exact .cons (hsub _ _ _ hs) ih

theorem Path.unrestrict {good : σ → ε → Prop} (h : Path (restrict good step) s es t) :
    Path step s es t :=
  h.mono fun _ _ _ hs => hs.2

-- What every step keeps, every run keeps.
theorem Path.invariant (inv : σ → Prop) (hstep : ∀ s e t, inv s → step s e t → inv t)
    (h : Path step s es t) (hs : inv s) : inv t := by
  induction h with
  | nil => exact hs
  | cons he _ ih => exact ih (hstep _ _ _ hs he)

-- The same for a property that only some events keep, in a run made of these.
theorem Path.invariant_of_mem (inv : σ → Prop) {ok : ε → Prop}
    (hstep : ∀ s e t, ok e → inv s → step s e t → inv t)
    (h : Path step s es t) (hok : ∀ e ∈ es, ok e) (hs : inv s) : inv t := by
  induction h with
  | nil => exact hs
  | cons he _ ih =>
      exact ih (fun e hm => hok e (List.mem_cons_of_mem _ hm))
        (hstep _ _ _ (hok _ (by simp)) hs he)

-- Where every event uses up some of a measure, or is one of those that may add to it, only
-- these make a run long.
theorem Path.length_le {inv : σ → Prop} {measure : σ → ℕ} {adds : ε → Bool} {c : ℕ}
    (hinv : ∀ s e t, inv s → step s e t → inv t)
    (hstep : ∀ s e t, inv s → step s e t →
      measure t + 1 ≤ measure s + if adds e then c else 0)
    (h : Path step s es t) (hs : inv s) :
    measure t + es.length ≤ measure s + c * es.countP adds := by
  induction h with
  | nil => exact Nat.le_add_right _ _
  | @cons s t u e es he _ ih =>
      have hrest := ih (hinv _ _ _ hs he)
      have hfirst := hstep _ _ _ hs he
      rw [List.length_cons, List.countP_cons, Nat.mul_add]
      by_cases hadds : adds e = true
      · simp only [hadds, if_true] at hfirst ⊢
        omega
      · simp only [hadds, if_false, Bool.false_eq_true] at hfirst ⊢
        omega

end Path

section Play

variable {σ ε : Type*} (ok : σ → ε → Prop) (next : σ → ε → σ)

-- A list of events played from a state, and the check that each was possible when its
-- turn came.
def play (s : σ) : List ε → σ
  | [] => s
  | e :: es => play (next s e) es

def Plays (s : σ) : List ε → Prop
  | [] => True
  | e :: es => ok s e ∧ Plays (next s e) es

instance decidablePlays [∀ s e, Decidable (ok s e)] :
    (s : σ) → (es : List ε) → Decidable (Plays ok next s es)
  | _, [] => .isTrue trivial
  | s, e :: es =>
      have := decidablePlays (next s e) es
      inferInstanceAs (Decidable (ok s e ∧ Plays ok next (next s e) es))

variable {ok next}

theorem path_of_plays {step : σ → ε → σ → Prop} (hstep : ∀ s e, ok s e → step s e (next s e))
    {s : σ} {es : List ε} (h : Plays ok next s es) : Path step s es (play next s es) := by
  induction es generalizing s with
  | nil => exact .nil s
  | cons e es ih => exact .cons (hstep s e h.1) (ih h.2)

-- The same where the step is defined by its guard and by the state after it.
theorem path_of_guards {s : σ} {es : List ε} (h : Plays ok next s es) :
    Path (fun s e t => ok s e ∧ t = next s e) s es (play next s es) :=
  path_of_plays (fun _ _ hok => ⟨hok, rfl⟩) h

theorem play_append (s : σ) (es fs : List ε) :
    play next s (es ++ fs) = play next (play next s es) fs := by
  induction es generalizing s with
  | nil => rfl
  | cons e es ih => exact ih (next s e)

theorem Path.eq_play {step : σ → ε → σ → Prop} (hnext : ∀ s e t, step s e t → t = next s e)
    {s t : σ} {es : List ε} (h : Path step s es t) : t = play next s es := by
  induction h with
  | nil => rfl
  | cons hs _ ih => rw [play, ← hnext _ _ _ hs, ih]

-- The last step of a run, between the states that the events lead to.
theorem Path.of_snoc {step : σ → ε → σ → Prop} (hnext : ∀ s e t, step s e t → t = next s e)
    {s t : σ} {es : List ε} {e : ε} (h : Path step s (es ++ [e]) t) :
    Path step s es (play next s es) ∧ step (play next s es) e (play next s (es ++ [e])) := by
  obtain ⟨u, hfirst, hrest⟩ := h.of_append
  obtain rfl := h.eq_play hnext
  obtain rfl := hfirst.eq_play hnext
  obtain _ | ⟨hstep, _ | _⟩ := hrest
  exact ⟨hfirst, hstep⟩

-- Where the steps that keep a property are known, so are the runs that never lose it.
theorem Path.always_iff {step : σ → ε → σ → Prop} (hnext : ∀ s e t, step s e t → t = next s e)
    (reach : σ → Prop) {inv : σ → Prop} {good : σ → ε → Prop}
    (hreach : ∀ s e t, reach s → step s e t → reach t)
    (hinv : ∀ s e t, reach s → inv s → step s e t → (inv t ↔ good s e))
    {s t : σ} {es : List ε} (h : Path step s es t) (hs : reach s) (hi : inv s) :
    (∀ es₁ es₂ u, es = es₁ ++ es₂ → Path step s es₁ u → inv u) ↔
      Path (restrict good step) s es t := by
  induction h with
  | nil s =>
      refine iff_of_true (fun es₁ es₂ u hes hu => ?_) (.nil s)
      obtain ⟨rfl, _⟩ := List.append_eq_nil_iff.mp hes.symm
      obtain _ | _ := hu
      exact hi
  | @cons s t v e es he _ ih =>
      constructor
      · intro hall
        have ht : inv t := hall [e] es t rfl (.cons he (.nil t))
        refine .cons ⟨(hinv s e t hs hi he).mp ht, he⟩ ?_
        refine (ih (hreach s e t hs he) ht).mp fun es₁ es₂ u hes hu => ?_
        exact hall (e :: es₁) es₂ u (by rw [hes, List.cons_append]) (.cons he hu)
      · intro hgood es₁ es₂ u hes hu
        obtain _ | ⟨⟨hg, he'⟩, hrest⟩ := hgood
        obtain rfl := (hnext _ _ _ he').trans (hnext _ _ _ he).symm
        have ht := (hinv _ _ _ hs hi he).mpr hg
        obtain _ | ⟨he₁, hu⟩ := hu
        · exact hi
        · obtain ⟨rfl, htail⟩ := List.cons.inj hes
          obtain rfl := (hnext _ _ _ he₁).trans (hnext _ _ _ he).symm
          exact (ih (hreach _ _ _ hs he) ht).mpr hrest _ es₂ u htail hu

-- What the events of a run put out, from the state that each finds.
def gather {α : Type*} (next : σ → ε → σ) (out : σ → ε → List α) (s : σ) : List ε → List α
  | [] => []
  | e :: es => out s e ++ gather next out (next s e) es

theorem gather_append {α : Type*} (next : σ → ε → σ) (out : σ → ε → List α) (s : σ)
    (es fs : List ε) :
    gather next out s (es ++ fs) = gather next out s es ++ gather next out (play next s es) fs := by
  induction es generalizing s with
  | nil => rfl
  | cons e es ih =>
      change out s e ++ gather next out (next s e) (es ++ fs) = _
      rw [ih, ← List.append_assoc]
      rfl

theorem exists_of_mem_gather {α : Type*} {next : σ → ε → σ} {out : σ → ε → List α} {s : σ}
    {es : List ε} {x : α} (h : x ∈ gather next out s es) : ∃ e ∈ es, ∃ t, x ∈ out t e := by
  induction es generalizing s with
  | nil => exact absurd h List.not_mem_nil
  | cons e es ih =>
      rcases List.mem_append.mp h with hfirst | hrest
      · exact ⟨e, List.mem_cons_self, s, hfirst⟩
      · obtain ⟨e', he', t, ht⟩ := ih hrest
        exact ⟨e', List.mem_cons_of_mem _ he', t, ht⟩

-- What every step keeps of a state and of what was put out before it, every run keeps.
theorem Path.gather_invariant {α : Type*} {step : σ → ε → σ → Prop} {next : σ → ε → σ}
    {out : σ → ε → List α} (hnext : ∀ s e t, step s e t → t = next s e)
    (inv : σ → List α → Prop)
    (hstep : ∀ s e t done, inv s done → step s e t → inv t (done ++ out s e)) {s t : σ}
    {es : List ε} (h : Path step s es t) {done : List α} (hs : inv s done) :
    inv t (done ++ gather next out s es) := by
  induction h generalizing done with
  | nil => simpa [gather] using hs
  | cons he _ ih =>
      have hrest := ih (hstep _ _ _ _ hs he)
      rwa [hnext _ _ _ he, List.append_assoc] at hrest

end Play

section Relate

variable {σ τ ε δ : Type*}

-- Every step of the first system is matched by a run of the second over the
-- events `act` assigns to it, and the relation holds again afterwards.
theorem Path.simulate {step : σ → ε → σ → Prop} {step' : τ → δ → τ → Prop}
    {rel : σ → τ → Prop} {act : σ → ε → List δ}
    (hstep : ∀ s e t a, rel s a → step s e t → ∃ b, Path step' a (act s e) b ∧ rel t b)
    {s t : σ} {es : List ε} (h : Path step s es t) {a : τ} (hr : rel s a) :
    ∃ ds b, Path step' a ds b ∧ rel t b := by
  induction h generalizing a with
  | nil => exact ⟨[], a, .nil a, hr⟩
  | cons he _ ih =>
      obtain ⟨b, hab, hb⟩ := hstep _ _ _ _ hr he
      obtain ⟨ds, d, hbd, hd⟩ := ih hb
      exact ⟨_, d, hab.append hbd, hd⟩

-- Two runs over the same events stay related when single steps do.
theorem Path.unwinding {step : σ → ε → σ → Prop} {step' : τ → ε → τ → Prop}
    {rel : σ → τ → Prop}
    (hstep : ∀ s e t a b, rel s a → step s e t → step' a e b → rel t b)
    {s t : σ} {es : List ε} (h : Path step s es t) {a b : τ} (h' : Path step' a es b)
    (hr : rel s a) : rel t b := by
  induction h generalizing a with
  | nil =>
      obtain _ | _ := h'
      exact hr
  | cons he _ ih =>
      obtain _ | ⟨he', hrest⟩ := h'
      exact ih hrest (hstep _ _ _ _ _ hr he he')

end Relate

end MyTestserver.Transition
