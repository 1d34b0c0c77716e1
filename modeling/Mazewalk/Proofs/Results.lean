/-!
# Results

What is computed may fail, and what is computed from it then fails in the same way.  The lemmas
here say when a composed computation succeeds and when it fails.
-/

namespace Mazewalk

theorem bind_eq_ok_iff {ε α β : Type} {x : Except ε α} {f : α → Except ε β} {b : β} :
    x >>= f = .ok b ↔ ∃ a, x = .ok a ∧ f a = .ok b := by
  cases x <;> simp [bind, Except.bind]

theorem bind_eq_error_iff {ε α β : Type} {x : Except ε α} {f : α → Except ε β} {e : ε} :
    x >>= f = .error e ↔ x = .error e ∨ ∃ a, x = .ok a ∧ f a = .error e := by
  cases x <;> simp [bind, Except.bind]

theorem map_eq_ok_iff {ε α β : Type} {x : Except ε α} {f : α → β} {b : β} :
    x.map f = .ok b ↔ ∃ a, x = .ok a ∧ f a = b := by
  cases x <;> simp [Except.map]

theorem map_eq_error_iff {ε α β : Type} {x : Except ε α} {f : α → β} {e : ε} :
    x.map f = .error e ↔ x = .error e := by
  cases x <;> simp [Except.map]

theorem exists_eq_ok_iff {ε α : Type} {x : Except ε α} :
    (∃ a, x = .ok a) ↔ ∀ e, ¬ x = .error e := by
  cases x <;> simp

theorem mapError_eq_ok_iff {ε ε' α : Type} {x : Except ε α} {f : ε → ε'} {a : α} :
    x.mapError f = .ok a ↔ x = .ok a := by
  cases x with
  | error e => exact ⟨nofun, nofun⟩
  | ok b =>
    show Except.ok b = Except.ok a ↔ _
    rw [Except.ok.injEq, Except.ok.injEq]

theorem mapError_eq_error_iff {ε ε' α : Type} {x : Except ε α} {f : ε → ε'} {e : ε'} :
    x.mapError f = .error e ↔ ∃ d, x = .error d ∧ f d = e := by
  cases x with
  | error d =>
    show Except.error (f d) = Except.error e ↔ _
    simp
  | ok b => exact ⟨nofun, fun ⟨d, h, _⟩ => nomatch h⟩

theorem bind_pure_eq_error_iff {ε α β γ : Type} {x : Except ε α} {f : α → Except ε β}
    {g : α → β → γ} {e : ε} :
    (do let a ← x; let b ← f a; return g a b) = .error e ↔
      x = .error e ∨ ∃ a, x = .ok a ∧ f a = .error e := by
  rw [bind_eq_error_iff]
  refine or_congr_right (exists_congr fun a => and_congr_right fun _ => ?_)
  rw [bind_eq_error_iff, or_iff_left]
  rintro ⟨b, -, h⟩
  cases h

end Mazewalk
