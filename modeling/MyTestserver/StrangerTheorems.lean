import MyTestserver.SessionTheorems

namespace MyTestserver

open SessionManager ChatService ChatServer Transition

namespace Event

-- The connection on which the event happens.
def conn : Event → ConnId
  | .up conn | .request conn _ | .message conn _ _ | .closeFrame conn | .down conn => conn

end Event

namespace Server

variable {υ μ : Type}

section Without

variable (x : ConnId) (s : Server υ μ)

-- The server as it would be if the connection had never been there.
def without : Server υ μ :=
  { s with
    connectionStates := Function.update s.connectionStates x {}
    conns := Function.update s.conns x {}
    trace := s.trace.filter (· ≠ .historySent x) }

variable {conn : ConnId}

section Others

-- What is done to another connection does not mix with what was done to this one.

end Others

section Itself

-- What is done to this connection leaves no trace.

end Itself

section Outcomes

variable {conn : ConnId}

def apart (outcome : Outcome (Server υ μ)) : Outcome (Server υ μ) :=
  (outcome.1, outcome.2.without x)

end Outcomes

end Without

end Server

namespace ChatService

open Server

variable {υ μ : Type} (env : Env υ μ) (x : ConnId) {conn : ConnId} (now : ℕ) (s : Server υ μ)

section Others

end Others

end ChatService

namespace ChatServer

open Server

variable {υ μ : Type} (env : Env υ μ) (x : ConnId) {conn : ConnId} (now : ℕ) (s : Server υ μ)

section Others

end Others

section Itself

end Itself

end ChatServer

namespace Event

variable {υ μ : Type} (env : Env υ μ) (x : ConnId)

-- The event is a registration or a login on the connection.
def introduces : Event → Bool
  | .message conn payload _ =>
      match decode env payload with
      | .ok (.register _ _) | .ok (.login _ _) => decide (conn = x)
      | _ => false
  | _ => false

variable {env x}

theorem introduces_of_asks {e : Event} {request : Request} (h : e.Asks env x request)
    (hrequest : (∃ u p, request = .register u p) ∨ ∃ u p, request = .login u p) :
    e.introduces env x = true := by
  obtain ⟨payload, now, rfl, hdecode⟩ := h
  rcases hrequest with ⟨u, p, rfl⟩ | ⟨u, p, rfl⟩
  · simp only [introduces, hdecode, decide_true]
  · simp only [introduces, hdecode, decide_true]

end Event

namespace Server

variable {υ μ : Type} {env : Env υ μ} {x : ConnId} {s t : Server υ μ} {e : Event} {users : υ}
  {messages : μ} {es : List Event}

-- Nothing in the server goes by the name of the connection, and nothing without a name.
structure Stranger (x : ConnId) (s : Server υ μ) : Prop where
  named : s.registry.Named (· ≠ [])
  nobody : s.registry.Nobody x

theorem Stranger.username (h : Stranger x s) : s.username x = [] := by
  by_contra hname
  have hclaim : s.registry.claim x = some (s.username x) :=
    claim_eq_some_iff.mpr ⟨rfl, hname⟩
  rw [h.nobody.claim] at hclaim
  cases hclaim

theorem Stranger.step (h : Stranger x s) (hasks : e.introduces env x = false) (hs : Step env s e t) :
    Stranger x t := by
  have hempty := holder_empty h.named
  have hnames : ∀ a ∈ s.actions env e, ¬a.Names x := by
    intro a ha
    rcases actions_cases env ha with ⟨conn, -, rfl⟩ | ⟨conn, -, rfl⟩ | ⟨conn, -, rfl⟩ |
      ⟨conn, u, p, hlogin, -, rfl⟩ | ⟨conn, u, p, hlogin, -, rfl⟩
    · exact id
    · exact id
    · exact id
    · rintro rfl
      rw [Event.introduces_of_asks hlogin (.inr ⟨u, p, rfl⟩)] at hasks
      cases hasks
    · rintro rfl
      rw [Event.introduces_of_asks hlogin (.inr ⟨u, p, rfl⟩)] at hasks
      cases hasks
  refine ⟨named_step env hempty h.named (fun _ _ _ _ hname => hname) hs, ?_⟩
  have hpath : Path (restrict (fun _ a => ¬a.Names x) Registry.Step) s.registry _ t.registry :=
    step_refines env hempty hs hnames
  exact hpath.invariant (·.Nobody x) (fun r a r' hr hstep => hstep.2.2 ▸ hr.apply hstep.1) h.nobody

end Server

end MyTestserver
