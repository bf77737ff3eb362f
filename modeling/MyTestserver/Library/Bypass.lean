import Mathlib.Data.List.Basic

namespace MyTestserver.Bypass

variable {α : Type*}

-- An item that has been served: whether it went past the queue, and what was waiting then.
structure Taken (α : Type*) where
  item : α
  waiting : List α
  direct : Bool

-- A server with a queue in front of it, and a way around the queue.
structure Lane (α : Type*) where
  waiting : List α
  taken : List (Taken α)

-- What was served and what is to be served, in this order.
def Lane.items (lane : Lane α) : List α := lane.taken.map Taken.item ++ lane.waiting

-- All items that were ever issued and not dropped have the property.
def Lane.All (p : α → Prop) (lane : Lane α) : Prop :=
  (∀ a ∈ lane.waiting, p a) ∧ ∀ entry ∈ lane.taken, p entry.item

theorem Lane.All.imp {p q : α → Prop} {lane : Lane α} (h : lane.All p) (hpq : ∀ a, p a → q a) :
    lane.All q :=
  ⟨fun a ha => hpq a (h.1 a ha), fun entry hentry => hpq _ (h.2 entry hentry)⟩

-- Items are issued one after the other, and `r` orders them by that: a new one comes
-- after all that are there.
inductive Step (r : α → α → Prop) (new : α → Prop) : Lane α → Lane α → Prop
  | direct {waiting : List α} {taken : List (Taken α)} {a : α} :
      new a → Lane.All (r · a) ⟨waiting, taken⟩ →
      Step r new ⟨waiting, taken⟩ ⟨waiting, taken ++ [⟨a, waiting, true⟩]⟩
  | enqueue {waiting : List α} {taken : List (Taken α)} {a : α} :
      new a → Lane.All (r · a) ⟨waiting, taken⟩ →
      Step r new ⟨waiting, taken⟩ ⟨waiting ++ [a], taken⟩
  | run {waiting : List α} {taken : List (Taken α)} {a : α} :
      Step r new ⟨a :: waiting, taken⟩ ⟨waiting, taken ++ [⟨a, waiting, false⟩]⟩
  | drop {waiting : List α} {taken : List (Taken α)} {a : α} :
      Step r new ⟨a :: waiting, taken⟩ ⟨waiting, taken⟩

variable {r : α → α → Prop} {new : α → Prop} {lane lane' : Lane α}

theorem Lane.All.step {p : α → Prop} (h : lane.All p) (hnew : ∀ a, new a → p a)
    (hstep : Step r new lane lane') : lane'.All p := by
  obtain ⟨hwaiting, htaken⟩ := h
  cases hstep with
  | direct ha _ =>
      refine ⟨hwaiting, fun entry hentry => ?_⟩
      rcases List.mem_append.mp hentry with hentry | hentry
      · exact htaken entry hentry
      · obtain rfl := List.mem_singleton.mp hentry
        exact hnew _ ha
  | enqueue ha _ =>
      refine ⟨fun b hb => ?_, htaken⟩
      rcases List.mem_append.mp hb with hb | hb
      · exact hwaiting b hb
      · obtain rfl := List.mem_singleton.mp hb
        exact hnew _ ha
  | run =>
      refine ⟨fun b hb => hwaiting b (List.mem_cons_of_mem _ hb), fun entry hentry => ?_⟩
      rcases List.mem_append.mp hentry with hentry | hentry
      · exact htaken entry hentry
      · obtain rfl := List.mem_singleton.mp hentry
        exact hwaiting _ (by simp)
  | drop => exact ⟨fun b hb => hwaiting b (List.mem_cons_of_mem _ hb), htaken⟩

-- The first of the two is not overtaken by the second, unless the first went past the
-- queue with the second in it.
def Fair (r : α → α → Prop) (first : Taken α) (second : α) : Prop :=
  r first.item second ∨ first.direct = true ∧ second ∈ first.waiting

structure Ordered (r : α → α → Prop) (lane : Lane α) : Prop where
  waiting : lane.waiting.Pairwise r
  taken : lane.taken.Pairwise fun first second => Fair r first second.item
  next : ∀ first ∈ lane.taken, ∀ second ∈ lane.waiting, Fair r first second

theorem ordered_nil : Ordered r ⟨[], []⟩ := ⟨.nil, .nil, by simp⟩

-- Only going past the queue changes the order, and only with respect to what is in it.
theorem Ordered.step (h : Ordered r lane) (hstep : Step r new lane lane') : Ordered r lane' := by
  obtain ⟨hwaiting, htaken, hnext⟩ := h
  cases hstep with
  | direct _ hlast =>
      refine ⟨hwaiting, List.pairwise_append.mpr ⟨htaken, by simp, ?_⟩, ?_⟩
      · intro first hfirst second hsecond
        obtain rfl := List.mem_singleton.mp hsecond
        exact .inl (hlast.2 first hfirst)
      · intro first hfirst second hsecond
        rcases List.mem_append.mp hfirst with hfirst | hfirst
        · exact hnext first hfirst second hsecond
        · obtain rfl := List.mem_singleton.mp hfirst
          exact .inr ⟨rfl, hsecond⟩
  | enqueue _ hlast =>
      refine ⟨List.pairwise_append.mpr ⟨hwaiting, by simp, ?_⟩, htaken, ?_⟩
      · intro b hb c hc
        obtain rfl := List.mem_singleton.mp hc
        exact hlast.1 b hb
      · intro first hfirst second hsecond
        rcases List.mem_append.mp hsecond with hsecond | hsecond
        · exact hnext first hfirst second hsecond
        · obtain rfl := List.mem_singleton.mp hsecond
          exact .inl (hlast.2 first hfirst)
  | run =>
      obtain ⟨hhead, htail⟩ := List.pairwise_cons.mp hwaiting
      refine ⟨htail, List.pairwise_append.mpr ⟨htaken, by simp, ?_⟩, ?_⟩
      · intro first hfirst second hsecond
        obtain rfl := List.mem_singleton.mp hsecond
        exact hnext first hfirst _ (by simp)
      · intro first hfirst second hsecond
        rcases List.mem_append.mp hfirst with hfirst | hfirst
        · exact hnext first hfirst second (List.mem_cons_of_mem _ hsecond)
        · obtain rfl := List.mem_singleton.mp hfirst
          exact .inl (hhead second hsecond)
  | drop =>
      exact ⟨(List.pairwise_cons.mp hwaiting).2, htaken, fun first hfirst second hsecond =>
        hnext first hfirst second (List.mem_cons_of_mem _ hsecond)⟩

section Items

variable {waiting : List α} {taken : List (Taken α)} {a : α}

theorem items_enqueue : Lane.items ⟨waiting ++ [a], taken⟩ = Lane.items ⟨waiting, taken⟩ ++ [a] :=
  (List.append_assoc _ _ _).symm

-- Items that never wait together with each other on both ways keep their order.
theorem filter_items_direct {p : α → Bool} (h : p a = true → ∀ b ∈ waiting, p b = false)
    (rest : List α) :
    (Lane.items ⟨waiting, taken ++ [⟨a, rest, true⟩]⟩).filter p =
      (Lane.items ⟨waiting, taken⟩).filter p ++ [a].filter p := by
  simp only [Lane.items, List.map_append, List.map_cons, List.map_nil, List.filter_append]
  cases ha : p a with
  | false => simp [ha]
  | true =>
      have hwaiting : waiting.filter p = [] := List.filter_eq_nil_iff.mpr fun b hb => by
        simp [h ha b hb]
      simp [hwaiting, ha]

end Items

end MyTestserver.Bypass
