/-
Computations that may warn on the way and fail at the end.

A warning says that some data were out of the ordinary and how they were
taken; it is kept also when a later step fails. The warnings of a sequence
of steps are those of the steps up to the first failure, in order. Main
statement: these computations are a lawful monad.
-/
namespace GameArchive

/-- Warnings of type `ω` in order, and a result or an error of type
`ε`. -/
structure Reported (ω ε α : Type) where
  warnings : List ω
  outcome : Except ε α

namespace Reported

variable {ω ε ε₂ ω₂ α β : Type}

/-- A result without warnings. -/
def succeed (a : α) : Reported ω ε α := ⟨[], .ok a⟩

/-- A failure without warnings. -/
def fail (e : ε) : Reported ω ε α := ⟨[], .error e⟩

/-- Warnings, and nothing else. -/
def warn (ws : List ω) : Reported ω ε Unit := ⟨ws, .ok ()⟩

/-- A computation that does not warn. -/
def ofExcept (x : Except ε α) : Reported ω ε α := ⟨[], x⟩

/-- One computation, then another if the first succeeds. -/
def andThen (x : Reported ω ε α) (f : α → Reported ω ε β) : Reported ω ε β :=
  match x.outcome with
  | .ok a => ⟨x.warnings ++ (f a).warnings, (f a).outcome⟩
  | .error e => ⟨x.warnings, .error e⟩

instance : Monad (Reported ω ε) where
  pure := succeed
  bind := andThen

/-- The same computation within a larger one. -/
def lift (onWarning : ω → ω₂) (onError : ε → ε₂) (x : Reported ω ε α) : Reported ω₂ ε₂ α :=
  ⟨x.warnings.map onWarning, x.outcome.mapError onError⟩

instance : LawfulMonad (Reported ω ε) := LawfulMonad.mk' _
  (fun x => by rcases x with ⟨ws, _ | _⟩ <;> simp [Functor.map, andThen, succeed])
  (fun _ _ => by simp [bind, andThen, pure, succeed])
  (fun x f g => by
    rcases x with ⟨ws, _ | a⟩
    · rfl
    · simp only [bind, andThen]
      cases (f a).outcome <;> simp [List.append_assoc])

end Reported
end GameArchive
