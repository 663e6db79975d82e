import ProtonChain.Library.Transactions

/-! What the attempts of a run move.

An attempt has an amount that counts only if it goes through. Two accounts that every attempt
moves alike, but for what comes in and what goes out, are moved alike by a run.
-/

set_option autoImplicit false

namespace Transactions

section Flows
variable {S I F : Type} (attempt : S → I → Except F S)

def moved (amount : S → I → Nat) (start : S) : List I → Nat
  | [] => 0
  | input :: rest =>
    (match attempt start input with
      | .ok _ => amount start input
      | .error _ => 0) + moved amount (step attempt start input).2 rest

variable {attempt} {inv : S → Prop}
  (keep : ∀ state input next, inv state → attempt state input = .ok next → inv next)
include keep

/-- The rule for what is held and what is owed. -/
theorem balance {held owed : S → Nat} {comes goes : S → I → Nat}
    (exact : ∀ state input next, inv state → attempt state input = .ok next →
      held next + goes state input + owed state = held state + comes state input + owed next)
    (start : S) (initial : inv start) (inputs : List I) :
    held (Runs.run (step attempt) start inputs).2 + moved attempt goes start inputs + owed start =
      held start + moved attempt comes start inputs +
        owed (Runs.run (step attempt) start inputs).2 := by
  induction inputs generalizing start with
  | nil => rfl
  | cons input rest ih =>
    have kept := step_keeps initial fun next => keep start input next initial
    have later := ih _ kept
    rw [Runs.run_cons, moved, moved]
    cases tried : attempt start input with
    | ok next =>
      rw [step_of_ok tried] at later ⊢
      have now := exact start input next initial tried
      dsimp only at later ⊢
      omega
    | error fault =>
      simp only [step, tried] at later ⊢
      omega

end Flows

end Transactions
