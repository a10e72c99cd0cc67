import Mathlib.Data.List.Forall2

/-!
# Computations that may fail

When a computation that is put together from others gives a result (`Except.bind_eq_ok_iff`,
`mapM_eq_ok_iff`, …), and with which errors it may fail (`FailsIn`).
-/

namespace CatAndMouse

section

variable {ε ε' α β : Type}

/-! ### Results -/

theorem Except.bind_eq_ok_iff {x : Except ε α} {f : α → Except ε β} {b : β} :
    (x >>= f) = .ok b ↔ ∃ a, x = .ok a ∧ f a = .ok b := by
  cases x with
  | error e => simp [bind, Except.bind]
  | ok a => simp [bind, Except.bind]

theorem Except.map_eq_ok_iff {x : Except ε α} {f : α → β} {b : β} :
    x.map f = .ok b ↔ ∃ a, x = .ok a ∧ f a = b := by
  cases x <;> simp [Except.map]

theorem mapError_eq_ok_iff {x : Except ε α} {f : ε → ε'} {a : α} :
    x.mapError f = .ok a ↔ x = .ok a := by
  cases x <;> simp [Except.mapError]

/-- Running over a list works exactly if it works for each member. -/
theorem mapM_eq_some_iff {f : α → Option β} {as : List α} {bs : List β} :
    as.mapM f = some bs ↔ List.Forall₂ (fun a b => f a = some b) as bs := by
  induction as generalizing bs with
  | nil => cases bs <;> simp
  | cons a as ih =>
    rw [List.mapM_cons, List.forall₂_cons_left_iff]
    simp [Option.bind_eq_some_iff, ih, eq_comm (a := bs)]

/-- Running over a list gives a result exactly if it gives one for each member. -/
theorem exists_mapM_eq_some_iff {f : α → Option β} {as : List α} :
    (∃ bs, as.mapM f = some bs) ↔ ∀ a ∈ as, ∃ b, f a = some b := by
  induction as with
  | nil => simp
  | cons a as ih =>
    rw [List.mapM_cons, List.forall_mem_cons, ← ih]
    cases f a with
    | none => simp
    | some b => cases as.mapM f <;> simp

theorem mapM_eq_ok_iff {f : α → Except ε β} {as : List α} {bs : List β} :
    as.mapM f = .ok bs ↔ List.Forall₂ (fun a b => f a = .ok b) as bs := by
  induction as generalizing bs with
  | nil => cases bs <;> simp [pure, Except.pure]
  | cons a as ih =>
    rw [List.mapM_cons, List.forall₂_cons_left_iff]
    simp [Except.bind_eq_ok_iff, ih, pure, Except.pure, eq_comm (a := bs)]

/-! ### Errors -/

variable {P : ε → Prop} {x : Except ε α}

/-- `FailsIn P x`: if `x` fails its error is in `P`. -/
def FailsIn (P : ε → Prop) (x : Except ε α) : Prop := ∀ e, x = .error e → P e

theorem failsIn_ok (a : α) : FailsIn P (.ok a : Except ε α) := nofun

theorem failsIn_error {e : ε} (h : P e) : FailsIn P (.error e : Except ε α) := by
  rintro _ ⟨⟩
  exact h

theorem FailsIn.bind {f : α → Except ε β} (hx : FailsIn P x)
    (hf : ∀ a, x = .ok a → FailsIn P (f a)) : FailsIn P (x >>= f) := by
  cases hxa : x with
  | error e => exact failsIn_error (hx e hxa)
  | ok a => exact hf a hxa

theorem FailsIn.map {f : α → β} (hx : FailsIn P x) : FailsIn P (x.map f) := by
  cases hxa : x with
  | error e => exact failsIn_error (hx e hxa)
  | ok a => exact failsIn_ok (f a)

theorem FailsIn.mapError {f : ε → ε'} {Q : ε' → Prop} (hx : FailsIn (fun e => Q (f e)) x) :
    FailsIn Q (x.mapError f) := by
  cases hxa : x with
  | error e => exact failsIn_error (hx e hxa)
  | ok a => exact failsIn_ok a

theorem failsIn_mapM {f : α → Except ε β} {as : List α} (h : ∀ a ∈ as, FailsIn P (f a)) :
    FailsIn P (as.mapM f) := by
  induction as with
  | nil => exact failsIn_ok []
  | cons a as ih =>
    rw [List.forall_mem_cons] at h
    rw [List.mapM_cons]
    exact h.1.bind fun b _ => (ih h.2).bind fun bs _ => failsIn_ok (b :: bs)

end

end CatAndMouse
