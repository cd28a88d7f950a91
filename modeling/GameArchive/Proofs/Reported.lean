/-
What the success of a sequence of steps says of its steps.
-/
import GameArchive.Reported

namespace GameArchive.Reported

variable {ω ε α β : Type}

theorem ofExcept_ok (a : α) : (ofExcept (.ok a) : Reported ω ε α) = pure a :=
  rfl

/-- After a step that succeeds, its warnings come before those of the next. -/
theorem ok_bind (ws : List ω) (a : α) (f : α → Reported ω ε β) :
    ((⟨ws, .ok a⟩ : Reported ω ε α) >>= f)
      = ⟨ws ++ (f a).warnings, (f a).outcome⟩ := rfl

theorem warn_bind (ws : List ω) (x : Reported ω ε α) :
    (warn ws >>= fun _ => x) = ⟨ws ++ x.warnings, x.outcome⟩ := rfl

theorem warn_pure (ws : List ω) (a : α) :
    (warn ws >>= fun _ => pure a : Reported ω ε α) = ⟨ws, .ok a⟩ := by
  rw [warn_bind]
  show (⟨ws ++ [], .ok a⟩ : Reported ω ε α) = _
  rw [List.append_nil]

/-- A sequence that succeeds has a first step that succeeds, and a second that
does with its result. -/
theorem bind_ok {x : Reported ω ε α} {f : α → Reported ω ε β} {b : β}
    (h : (x >>= f).outcome = .ok b) :
    ∃ a, x.outcome = .ok a ∧ (f a).outcome = .ok b := by
  change (andThen x f).outcome = .ok b at h
  unfold andThen at h
  cases hx : x.outcome with
  | ok a =>
      rw [hx] at h
      exact ⟨a, rfl, h⟩
  | error e =>
      rw [hx] at h
      cases h

/-- A sequence succeeds exactly if both of its steps do. -/
theorem bind_ok_iff {x : Reported ω ε α} {f : α → Reported ω ε β} {b : β} :
    (x >>= f).outcome = .ok b
      ↔ ∃ a, x.outcome = .ok a ∧ (f a).outcome = .ok b := by
  refine ⟨bind_ok, ?_⟩
  rintro ⟨a, ha, hb⟩
  show (andThen x f).outcome = .ok b
  unfold andThen
  rw [ha]
  exact hb

/-- The same of steps without warnings. -/
theorem except_bind_ok {x : Except ε α} {f : α → Except ε β} {b : β}
    (h : (x >>= f) = .ok b) : ∃ a, x = .ok a ∧ f a = .ok b := by
  cases x with
  | ok a => exact ⟨a, rfl, h⟩
  | error e => cases h

/-- A result that is left when the error is forgotten was the result. -/
theorem toOption_eq_some_iff {x : Except ε α} {a : α} :
    x.toOption = some a ↔ x = .ok a := by
  cases x with
  | ok b => simp [Except.toOption]
  | error e => simp [Except.toOption]

/-- Where something is made of a result, there is a result. -/
theorem exists_ok_of_map {x : Except ε α} {f : α → β} {b : β}
    (h : x.toOption.map f = some b) : ∃ a, x = .ok a ∧ f a = b := by
  obtain ⟨a, ha, hb⟩ := Option.map_eq_some_iff.mp h
  exact ⟨a, toOption_eq_some_iff.mp ha, hb⟩

/-- Where something is read from a result, there is a result. -/
theorem exists_ok_of_bind {x : Except ε α} {f : α → Option β} {b : β}
    (h : x.toOption.bind f = some b) : ∃ a, x = .ok a ∧ f a = some b := by
  obtain ⟨a, ha, hb⟩ := Option.bind_eq_some_iff.mp h
  exact ⟨a, toOption_eq_some_iff.mp ha, hb⟩

/-- Other words for the error leave the results alone. -/
theorem mapError_ok_iff {ε₂ : Type} {g : ε → ε₂} {x : Except ε α} {a : α} :
    x.mapError g = .ok a ↔ x = .ok a := by
  cases x with
  | error e => exact iff_of_false nofun nofun
  | ok b =>
      show Except.ok b = Except.ok a ↔ _
      rw [Except.ok.injEq, Except.ok.injEq]

/-- Nothing is left when the error is forgotten only if there was one. -/
theorem toOption_eq_none_iff {x : Except ε α} :
    x.toOption = none ↔ ∀ a, x ≠ .ok a := by
  cases x with
  | ok b => simp [Except.toOption]
  | error e => simp [Except.toOption]

end GameArchive.Reported
