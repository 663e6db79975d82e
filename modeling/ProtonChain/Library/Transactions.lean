import ProtonChain.Library.Runs

/-! Runs of attempts, each of which goes through as a whole or leaves the state alone.

What an attempt does is known only where it succeeds, so a rule asks nothing of the
others.
-/

set_option autoImplicit false

namespace Transactions

section Attempts
variable {S I F : Type} (attempt : S → I → Except F S)

/-- A failed attempt is rolled back. -/
def step (state : S) (input : I) : Except F Unit × S :=
  match attempt state input with
  | .ok next => (.ok (), next)
  | .error fault => (.error fault, state)

def Succeeds (state : S) (input : I) : Prop := ∃ next, attempt state input = .ok next

instance decidableSucceeds (state : S) (input : I) : Decidable (Succeeds attempt state input) :=
  match tried : attempt state input with
  | .ok next => isTrue ⟨next, tried⟩
  | .error _ => isFalse fun ⟨_, succeeded⟩ => by rw [tried] at succeeded; cases succeeded

variable {attempt} {state next : S} {input : I}

theorem step_of_ok (succeeded : attempt state input = .ok next) :
    step attempt state input = (.ok (), next) := by
  simp only [step, succeeded]

theorem step_of_not_succeeds (failed : ¬ Succeeds attempt state input) :
    (step attempt state input).2 = state := by
  cases tried : attempt state input with
  | ok next => exact absurd ⟨next, tried⟩ failed
  | error fault => simp only [step, tried]

theorem succeeds_of_step (answered : (step attempt state input).1 = .ok ()) :
    Succeeds attempt state input := by
  cases tried : attempt state input with
  | ok next => exact ⟨next, tried⟩
  | error fault => simp [step, tried] at answered

theorem step_keeps {inv : S → Prop} (start : inv state)
    (keep : ∀ next, attempt state input = .ok next → inv next) :
    inv (step attempt state input).2 := by
  by_cases succeeds : Succeeds attempt state input
  · obtain ⟨next, succeeded⟩ := succeeds
    rw [step_of_ok succeeded]
    exact keep next succeeded
  · rw [step_of_not_succeeds succeeds]
    exact start

variable {inv side : S → Prop} {enabled guard : S → I → Prop}

/-- An invariant of the attempts holds in every state of a run. -/
theorem visits_of_keeps
    (keep : ∀ state input next, inv state → enabled state input →
      attempt state input = .ok next → inv next)
    {start : S} (initial : inv start) (inputs : List I)
    (allowed : Runs.Meets (step attempt) enabled start inputs) :
    Runs.Visits (step attempt) inv start inputs := by
  induction inputs generalizing start with
  | nil => exact (Runs.visits_nil (step attempt) inv start).mpr initial
  | cons input rest ih =>
    rw [Runs.visits_cons]
    refine ⟨initial, ih (step_keeps initial fun next => ?_) allowed.2⟩
    exact keep start input next initial allowed.1

theorem run_keeps
    (keep : ∀ state input next, inv state → attempt state input = .ok next → inv next)
    {start : S} (initial : inv start) (inputs : List I) :
    inv (Runs.run (step attempt) start inputs).2 := by
  apply Runs.run_keeps (step attempt) _ initial
  intro state input now
  exact step_keeps now fun next => keep state input next now

/-- The rule for a property that a successful attempt keeps exactly under the guard. -/
theorem visits_iff_meets
    (exact : ∀ state input next, side state → inv state → enabled state input →
      attempt state input = .ok next → (inv next ↔ guard state input))
    (keep : ∀ state input next, side state → enabled state input →
      attempt state input = .ok next → side next)
    {start : S} (initial : inv start) (aside : side start) (inputs : List I)
    (allowed : Runs.Meets (step attempt) enabled start inputs) :
    Runs.Visits (step attempt) inv start inputs ↔
      Runs.Meets (step attempt)
        (fun state input => Succeeds attempt state input → guard state input) start inputs := by
  have moved : ∀ state input, side state → inv state → enabled state input →
      (inv (step attempt state input).2 ↔ (Succeeds attempt state input → guard state input)) := by
    intro state input aside now allowed
    by_cases succeeds : Succeeds attempt state input
    · obtain ⟨next, succeeded⟩ := succeeds
      rw [step_of_ok succeeded, exact state input next aside now allowed succeeded]
      exact ⟨fun met _ => met, fun met => met ⟨next, succeeded⟩⟩
    · rw [step_of_not_succeeds succeeds]
      exact ⟨fun _ succeeded => absurd succeeded succeeds, fun _ => now⟩
  have kept : ∀ state input, side state → enabled state input →
      side (step attempt state input).2 := by
    intro state input aside allowed
    exact step_keeps aside fun next => keep state input next aside allowed
  exact Runs.visits_iff_meets (step attempt) moved kept initial aside inputs allowed

end Attempts

end Transactions
