/-
  Checks that pass together.

  One machine says why a check fails, the other one only that it fails.  `Check.Mirrors R x y`
  relates such checks: both pass, with results related by `R`, or both fail.  Chains of checks are
  related link by link (`Mirrors.bind`).
-/
import WordMachine.Proofs.Rules

namespace WordMachine

/-- `Mirrors R x y` says that the checks `x` and `y` both pass, with results that `R` relates, or
both fail. -/
inductive Check.Mirrors {ε α β : Type} (R : α → β → Prop) : Except ε α → Option β → Prop
  | ok {a : α} {b : β} (h : R a b) : Mirrors R (.ok a) (some b)
  | error (e : ε) : Mirrors R (.error e) none

namespace Check

variable {ε ε' α β γ δ : Type} {R : α → β → Prop} {S : γ → δ → Prop}

theorem Mirrors.bind {x : Except ε α} {y : Option β} {f : α → Except ε γ} {g : β → Option δ}
    (h : Mirrors R x y) (hf : ∀ a b, R a b → Mirrors S (f a) (g b)) :
    Mirrors S (x >>= f) (y >>= g) := by
  cases h with
  | ok h => exact hf _ _ h
  | error e => exact .error e

theorem Mirrors.map {x : Except ε α} {y : Option β} {f : α → γ} {g : β → δ} (h : Mirrors R x y)
    (hf : ∀ a b, R a b → S (f a) (g b)) : Mirrors S (x.map f) (y.map g) := by
  cases h with
  | ok h => exact .ok (hf _ _ h)
  | error e => exact .error e

theorem Mirrors.exists_ok {x : Except ε α} {y : Option β} (h : Mirrors R x y) {b : β}
    (hy : y = some b) : ∃ a, x = .ok a ∧ R a b := by
  cases h with
  | ok h =>
    cases hy
    exact ⟨_, rfl, h⟩
  | error e => cases hy

theorem Mirrors.exists_some {x : Except ε α} {y : Option β} (h : Mirrors R x y) {a : α}
    (hx : x = .ok a) : ∃ b, y = some b ∧ R a b := by
  cases h with
  | ok h =>
    cases hx
    exact ⟨_, rfl, h⟩
  | error e => cases hx

theorem Mirrors.mono {R' : α → β → Prop} {x : Except ε α} {y : Option β} (h : Mirrors R x y)
    (hR : ∀ a b, R a b → R' a b) : Mirrors R' x y := by
  cases h with
  | ok h => exact .ok (hR _ _ h)
  | error e => exact .error e

theorem Mirrors.mapError {x : Except ε α} {y : Option β} (h : Mirrors R x y) (f : ε → ε') :
    Mirrors R (x.mapError f) y := by
  cases h with
  | ok h => exact .ok h
  | error e => exact .error (f e)

theorem Mirrors.ite {p q : Prop} [Decidable p] [Decidable q] {x x' : Except ε α} {y y' : Option β}
    (hpq : p ↔ q) (h : Mirrors R x y) (h' : Mirrors R x' y') :
    Mirrors R (if p then x else x') (if q then y else y') := by
  by_cases hq : q
  · rwa [if_pos (hpq.mpr hq), if_pos hq]
  · rwa [if_neg (mt hpq.mp hq), if_neg hq]

theorem Mirrors.eq_none {x : Except ε α} {y : Option β} (h : Mirrors R x y) {e : ε}
    (hx : x = .error e) : y = none := by
  cases h with
  | ok h => cases hx
  | error e => rfl

/-- What has passed the checks can be used later. -/
theorem Mirrors.passed {x : Except ε α} {y : Option β} (h : Mirrors R x y) :
    Mirrors (fun a b => R a b ∧ x = .ok a) x y := by
  cases h with
  | ok h => exact .ok ⟨h, rfl⟩
  | error e => exact .error e

/-- A check whose error is thrown away. -/
theorem mirrors_toOption (x : Except ε α) : Mirrors Eq x x.toOption := by
  cases x with
  | ok a => exact .ok rfl
  | error e => exact .error e

end Check

end WordMachine
