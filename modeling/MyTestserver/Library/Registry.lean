import Mathlib.Logic.Function.Basic
import MyTestserver.Library.Transition

namespace MyTestserver

open Transition

-- Names held by connections. `holder` is the table of record; `claim` is the name a
-- connection acts under, kept apart from it, and the two need not agree.
@[ext] structure Registry (N C : Type*) where
  holder : N → Option C
  claim : C → Option N
  live : C → Prop

namespace Registry

inductive Action (N C : Type*)
  | connect (c : C)
  | grant (c : C) (n : N)
  | assume (c : C) (n : Option N)
  | release (c : C)
  | disconnect (c : C)

variable {N C : Type*} [DecidableEq N] [DecidableEq C]

-- The connection drops the name it acts under, and whoever holds that name loses it.
def drop (r : Registry N C) (c : C) : Registry N C where
  holder := fun n => if r.claim c = some n then none else r.holder n
  claim := Function.update r.claim c none
  live := r.live

def apply (r : Registry N C) : Action N C → Registry N C
  | .connect c =>
      { r with claim := Function.update r.claim c none, live := Function.update r.live c True }
  | .grant c n =>
      { r with
        holder := Function.update r.holder n (some c)
        claim := Function.update r.claim c (some n) }
  | .assume c n => { r with claim := Function.update r.claim c n }
  | .release c => r.drop c
  | .disconnect c => { r.drop c with live := Function.update r.live c False }

-- Names are granted only while nobody holds them, and only live connections act.
def Enabled (r : Registry N C) : Action N C → Prop
  | .connect c => ¬r.live c
  | .grant c n => r.live c ∧ r.holder n = none
  | .assume c _ | .release c | .disconnect c => r.live c

def Step (r : Registry N C) (a : Action N C) (r' : Registry N C) : Prop :=
  r.Enabled a ∧ r' = r.apply a

-- A connection acts only under a name that it holds.
def Authentic (r : Registry N C) : Prop :=
  ∀ c n, r.claim c = some n → r.holder n = some c

-- A connection holds no name but the one it acts under, and none when it is gone.
def Exclusive (r : Registry N C) : Prop :=
  ∀ c n, r.holder n = some c → r.claim c = some n ∧ r.live c

-- Acting under a name without a grant is harmless when the connection holds it already.
def Honest (r : Registry N C) : Action N C → Prop
  | .assume c (some n) => r.holder n = some c
  | _ => True

-- A connection takes up a name only when it holds no other.
def Faithful (r : Registry N C) : Action N C → Prop
  | .grant c n => ∀ m, r.holder m = some c → m = n
  | .assume c n => ∀ m, r.holder m = some c → some m = n
  | _ => True

-- All names in use have some property, and an action brings in only such names.
def Named (p : N → Prop) (r : Registry N C) : Prop :=
  (∀ n c, r.holder n = some c → p n) ∧ ∀ c n, r.claim c = some n → p n

def Action.Within (p : N → Prop) : Action N C → Prop
  | .grant _ n => p n
  | .assume _ n => ∀ m, n = some m → p m
  | _ => True

-- What takes names away from a connection at its own request.
def Action.Ends (c : C) : Action N C → Prop
  | .release d | .disconnect d => d = c
  | _ => False

-- A connection that neither holds a name nor acts under one.
structure Nobody (r : Registry N C) (c : C) : Prop where
  claim : r.claim c = none
  holder : ∀ n, r.holder n ≠ some c

-- What gives a connection a name.
def Action.Names (c : C) : Action N C → Prop
  | .grant d _ | .assume d _ => d = c
  | _ => False

variable {r r' : Registry N C} {a : Action N C} {c d : C} {n m : N}

section Drop

theorem holder_drop_iff :
    (r.drop d).holder n = some c ↔ r.claim d ≠ some n ∧ r.holder n = some c := by
  simp only [drop]
  split
  · simp [*]
  · simp [*]

theorem claim_drop_iff : (r.drop d).claim c = some n ↔ c ≠ d ∧ r.claim c = some n := by
  by_cases hcd : c = d
  · simp [drop, hcd]
  · simp [drop, hcd]

-- Dropping an authentic claim costs nobody else a name.
theorem Authentic.holder_drop (hauth : r.Authentic) (hne : c ≠ d) (hn : r.holder n = some c) :
    (r.drop d).holder n = some c := by
  refine holder_drop_iff.mpr ⟨fun hclaim => hne ?_, hn⟩
  have hd := hauth d n hclaim
  rw [hn] at hd
  exact Option.some.inj hd

theorem Authentic.drop (hauth : r.Authentic) (d : C) : (r.drop d).Authentic := by
  intro c n hclaim
  obtain ⟨hne, hclaim⟩ := claim_drop_iff.mp hclaim
  exact hauth.holder_drop hne (hauth c n hclaim)

-- After the drop the connection holds nothing, whatever it held before.
theorem Exclusive.holder_drop (hexcl : r.Exclusive) : (r.drop c).holder n ≠ some c := by
  intro hn
  obtain ⟨hclaim, hn⟩ := holder_drop_iff.mp hn
  exact hclaim (hexcl c n hn).1

theorem Exclusive.drop (hexcl : r.Exclusive) (d : C) : (r.drop d).Exclusive := by
  intro c n hn
  have hne : c ≠ d := fun heq => hexcl.holder_drop (heq ▸ hn)
  obtain ⟨_, hn⟩ := holder_drop_iff.mp hn
  obtain ⟨hclaim, hlive⟩ := hexcl c n hn
  exact ⟨claim_drop_iff.mpr ⟨hne, hclaim⟩, hlive⟩

end Drop

-- A name changes hands only when it is granted.
theorem holder_apply (hn : (r.apply a).holder n = some c) :
    r.holder n = some c ∨ a = .grant c n := by
  cases a with
  | grant d m =>
      by_cases hnm : n = m
      · have hcd : d = c := by simpa [apply, hnm] using hn
        exact .inr (by rw [hcd, hnm])
      · exact .inl (by simpa [apply, hnm] using hn)
  | release d => exact .inl (holder_drop_iff.mp hn).2
  | disconnect d => exact .inl (holder_drop_iff.mp hn).2
  | _ => exact .inl hn

section Invariants

theorem Authentic.step (hauth : r.Authentic) (hhonest : r.Honest a) (hstep : r.Step a r') :
    r'.Authentic := by
  obtain ⟨henabled, rfl⟩ := hstep
  cases a with
  | connect d =>
      intro c n hclaim
      by_cases hcd : c = d
      · simp [apply, hcd] at hclaim
      · exact hauth c n (by simpa [apply, hcd] using hclaim)
  | grant d m =>
      intro c n hclaim
      by_cases hcd : c = d
      · have hmn : m = n := by simpa [apply, hcd] using hclaim
        simp [apply, hcd, hmn]
      · have hn := hauth c n (by simpa [apply, hcd] using hclaim)
        have hnm : n ≠ m := by
          rintro rfl
          rw [henabled.2] at hn
          cases hn
        simpa [apply, hnm] using hn
  | assume d m =>
      intro c n hclaim
      by_cases hcd : c = d
      · have hmn : m = some n := by simpa [apply, hcd] using hclaim
        subst hcd hmn
        exact hhonest
      · exact hauth c n (by simpa [apply, hcd] using hclaim)
  | release d => exact hauth.drop d
  | disconnect d => exact hauth.drop d

theorem Exclusive.step (hexcl : r.Exclusive) (hfaith : r.Faithful a) (hstep : r.Step a r') :
    r'.Exclusive := by
  obtain ⟨henabled, rfl⟩ := hstep
  cases a with
  | connect d =>
      intro c n hn
      obtain ⟨hclaim, hlive⟩ := hexcl c n hn
      have hcd : c ≠ d := fun heq => henabled (heq ▸ hlive)
      exact ⟨by simpa [apply, hcd] using hclaim, by simpa [apply, hcd] using hlive⟩
  | grant d m =>
      intro c n hn
      by_cases hnm : n = m
      · have hcd : d = c := by simpa [apply, hnm] using hn
        subst hcd hnm
        exact ⟨by simp [apply], henabled.1⟩
      · have hn : r.holder n = some c := by simpa [apply, hnm] using hn
        have hcd : c ≠ d := fun heq => hnm (hfaith n (heq ▸ hn))
        obtain ⟨hclaim, hlive⟩ := hexcl c n hn
        exact ⟨by simpa [apply, hcd] using hclaim, hlive⟩
  | assume d m =>
      intro c n hn
      obtain ⟨hclaim, hlive⟩ := hexcl c n hn
      by_cases hcd : c = d
      · subst hcd
        exact ⟨by simpa [apply] using (hfaith n hn).symm, hlive⟩
      · exact ⟨by simpa [apply, hcd] using hclaim, hlive⟩
  | release d => exact hexcl.drop d
  | disconnect d =>
      intro c n hn
      obtain ⟨hclaim, hlive⟩ := hexcl.drop d c n hn
      have hcd : c ≠ d := fun heq => hexcl.holder_drop (heq ▸ hn)
      have hlive : r.live c := hlive
      exact ⟨hclaim, by simpa [apply, hcd] using hlive⟩

-- While claims are authentic, a holder keeps its name until it gives it up itself.
theorem Authentic.holder_step (hauth : r.Authentic) (hstep : r.Step a r') (hends : ¬a.Ends c)
    (hn : r.holder n = some c) : r'.holder n = some c := by
  obtain ⟨henabled, rfl⟩ := hstep
  cases a with
  | connect d => exact hn
  | grant d m =>
      have hnm : n ≠ m := by
        rintro rfl
        rw [henabled.2] at hn
        cases hn
      simpa [apply, hnm] using hn
  | assume d m => exact hn
  | release d => exact hauth.holder_drop (fun heq => hends heq.symm) hn
  | disconnect d => exact hauth.holder_drop (fun heq => hends heq.symm) hn

theorem Nobody.drop (h : r.Nobody c) (d : C) : (r.drop d).Nobody c where
  claim := by
    by_cases hcd : c = d
    · simp [Registry.drop, hcd]
    · simpa [Registry.drop, hcd] using h.claim
  holder n hn := h.holder n (holder_drop_iff.mp hn).2

-- Others do not make it somebody.
theorem Nobody.apply (h : r.Nobody c) (hnames : ¬a.Names c) : (r.apply a).Nobody c := by
  cases a with
  | connect d =>
      refine ⟨?_, h.holder⟩
      by_cases hcd : c = d
      · simp [Registry.apply, hcd]
      · simpa [Registry.apply, hcd] using h.claim
  | grant d m =>
      have hcd : c ≠ d := fun heq => hnames heq.symm
      refine ⟨?_, fun n hn => ?_⟩
      · simpa [Registry.apply, hcd] using h.claim
      · rcases holder_apply hn with hold | hgrant
        · exact h.holder n hold
        · cases hgrant
          exact hcd rfl
  | assume d m =>
      have hcd : c ≠ d := fun heq => hnames heq.symm
      refine ⟨?_, h.holder⟩
      simpa [Registry.apply, hcd] using h.claim
  | release d => exact h.drop d
  | disconnect d => exact ⟨(h.drop d).claim, (h.drop d).holder⟩

theorem Named.drop {p : N → Prop} (hnamed : r.Named p) (d : C) : (r.drop d).Named p :=
  ⟨fun n c hn => hnamed.1 n c (holder_drop_iff.mp hn).2,
    fun c n hclaim => hnamed.2 c n (claim_drop_iff.mp hclaim).2⟩

theorem Named.apply {p : N → Prop} (hnamed : r.Named p) (hwithin : a.Within p) :
    (r.apply a).Named p := by
  cases a with
  | connect d =>
      refine ⟨hnamed.1, fun c n hclaim => hnamed.2 c n ?_⟩
      by_cases hcd : c = d
      · simp [Registry.apply, hcd] at hclaim
      · simpa [Registry.apply, hcd] using hclaim
  | grant d m =>
      refine ⟨fun n c hn => ?_, fun c n hclaim => ?_⟩
      · by_cases hnm : n = m
        · exact hnm ▸ hwithin
        · exact hnamed.1 n c (by simpa [Registry.apply, hnm] using hn)
      · by_cases hcd : c = d
        · have hmn : m = n := by simpa [Registry.apply, hcd] using hclaim
          exact hmn ▸ hwithin
        · exact hnamed.2 c n (by simpa [Registry.apply, hcd] using hclaim)
  | assume d m =>
      refine ⟨hnamed.1, fun c n hclaim => ?_⟩
      by_cases hcd : c = d
      · exact hwithin n (by simpa [Registry.apply, hcd] using hclaim)
      · exact hnamed.2 c n (by simpa [Registry.apply, hcd] using hclaim)
  | release d => exact hnamed.drop d
  | disconnect d => exact hnamed.drop d

end Invariants

end Registry

end MyTestserver
