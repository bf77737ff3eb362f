import Mathlib.Data.List.AList

namespace MyTestserver

-- std::string and the raw byte arrays of the sources.
abbrev Bytes := List UInt8

def ascii (text : String) : Bytes := text.toUTF8.data.toList

-- isdigit and isspace in the C locale.
def isDigit (byte : UInt8) : Bool := 48 ≤ byte && byte ≤ 57

def isSpace (byte : UInt8) : Bool := byte == 32 || (9 ≤ byte && byte ≤ 13)

-- TcpConnectionPtr: connections are told apart by identity, never by content.
abbrev ConnId := ℕ

-- TcpConnection::StateE
inductive StateE
  | kDisconnected
  | kDisconnecting
  | kConnected
  | kConnecting
  deriving DecidableEq

-- What can leave a handler instead of a normal return. `out_of_bounds` is no C++
-- exception: it stands for a read past the end of the data, which is undefined
-- behaviour, and is kept apart so that it can be excluded.
inductive Exception
  | parse_error
  | type_error
  | out_of_range
  | length_error
  | out_of_bounds
  deriving DecidableEq

section Bind

variable {ε α β : Type} {x : Except ε α} {f : α → Except ε β}

theorem bind_eq_ok_iff {b : β} : x >>= f = .ok b ↔ ∃ a, x = .ok a ∧ f a = .ok b := by
  cases x <;> simp [bind, Except.bind]

theorem bind_eq_error_iff {e : ε} :
    x >>= f = .error e ↔ x = .error e ∨ ∃ a, x = .ok a ∧ f a = .error e := by
  cases x <;> simp [bind, Except.bind]

end Bind

-- Code that may throw: how it ends, and the state it leaves behind in either case.
abbrev Outcome (σ : Type*) := Except Exception Unit × σ

namespace Outcome

variable {σ : Type*}

-- Two statements in sequence; the second is skipped when the first throws.
def andThen (result : Outcome σ) (next : σ → Outcome σ) : Outcome σ :=
  match result with
  | (.ok (), s) => next s
  | (.error e, s) => (.error e, s)

@[simp] theorem andThen_ok (s : σ) (next : σ → Outcome σ) :
    andThen (.ok (), s) next = next s := rfl

@[simp] theorem andThen_error (e : Exception) (s : σ) (next : σ → Outcome σ) :
    andThen (.error e, s) next = (.error e, s) := rfl

theorem andThen_assoc (result : Outcome σ) (next later : σ → Outcome σ) :
    (result.andThen next).andThen later = result.andThen fun s => (next s).andThen later := by
  obtain ⟨_ | ⟨⟩, s⟩ := result
  · rfl
  · rfl

theorem andThen_eq_ok {result : Outcome σ} {next : σ → Outcome σ} {t : σ}
    (h : result.andThen next = (.ok (), t)) :
    ∃ s, result = (.ok (), s) ∧ next s = (.ok (), t) := by
  obtain ⟨_ | ⟨⟩, s⟩ := result
  · cases h
  · exact ⟨s, rfl, h⟩

end Outcome

end MyTestserver
