/-!
# Results — what is carried on

A result that is carried on by a function succeeds exactly if the result did, and fails with its error.
-/

namespace PickIndent

variable {ε δ α β γ : Type} {f : α → β} {r : Except ε α}

theorem map_map (g : β → γ) : (r.map f).map g = r.map fun a => g (f a) := by
  cases r <;> rfl

theorem map_eq_ok_iff {b : β} : r.map f = .ok b ↔ ∃ a, r = .ok a ∧ f a = b := by
  cases r <;> simp [Except.map]

theorem map_eq_error_iff {e : ε} : r.map f = .error e ↔ r = .error e := by
  cases r <;> simp [Except.map]

theorem mapError_map (g : ε → δ) : (r.map f).mapError g = (r.mapError g).map f := by
  cases r <;> rfl

theorem mapError_eq_ok_iff {g : ε → δ} {a : α} : r.mapError g = .ok a ↔ r = .ok a := by
  cases r with
  | error e => exact ⟨fun h => (nomatch h), fun h => (nomatch h)⟩
  | ok b =>
    constructor
    · intro h
      cases h
      rfl
    · rintro ⟨⟩
      rfl

end PickIndent
