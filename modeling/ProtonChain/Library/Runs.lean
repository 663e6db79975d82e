import Mathlib.Data.List.Basic

/-! Runs of machines that answer each input and move to a new state.

A property of whole runs is matched with a guard on the single steps: where one
step keeps the property exactly under the guard, a run does so exactly if the
guard holds of every input in the state that meets it.
-/

set_option autoImplicit false

namespace Runs

section Machine
variable {S I R : Type} (step : S → I → R × S)

/-- Feed the inputs in order; collect the answers. -/
def run (start : S) : List I → List R × S
  | [] => ([], start)
  | input :: rest =>
    let (answer, next) := step start input
    let (answers, final) := run next rest
    (answer :: answers, final)

@[simp] theorem run_nil (start : S) : run step start [] = ([], start) := rfl

theorem run_cons (start : S) (input : I) (rest : List I) :
    run step start (input :: rest) =
      ((step start input).1 :: (run step (step start input).2 rest).1,
        (run step (step start input).2 rest).2) := rfl

theorem run_append (start : S) (first second : List I) :
    run step start (first ++ second) =
      ((run step start first).1 ++ (run step (run step start first).2 second).1,
        (run step (run step start first).2 second).2) := by
  induction first generalizing start with
  | nil => rfl
  | cons input rest ih => simp only [List.cons_append, run_cons, ih]

theorem run_concat (start : S) (inputs : List I) (last : I) :
    run step start (inputs ++ [last]) =
      ((run step start inputs).1 ++ [(step (run step start inputs).2 last).1],
        (step (run step start inputs).2 last).2) := by
  rw [run_append, run_cons, run_nil]

@[simp] theorem run_length (start : S) (inputs : List I) :
    (run step start inputs).1.length = inputs.length := by
  induction inputs generalizing start with
  | nil => rfl
  | cons input rest ih => simp only [run_cons, List.length_cons, ih]

theorem run_map {J : Type} (rename : J → I) (start : S) (inputs : List J) :
    run step start (inputs.map rename) =
      run (fun state input => step state (rename input)) start inputs := by
  induction inputs generalizing start with
  | nil => rfl
  | cons input rest ih => simp only [List.map_cons, run_cons, ih]

/-- A machine that carries more along runs as the machine it is erased to. -/
theorem run_erase {T Q : Type} (carry : T → I → Q × T) (erase : T → S)
    (agree : ∀ state input, erase (carry state input).2 = (step (erase state) input).2)
    (start : T) (inputs : List I) :
    erase (run carry start inputs).2 = (run step (erase start) inputs).2 := by
  induction inputs generalizing start with
  | nil => rfl
  | cons input rest ih => rw [run_cons, run_cons, ih, agree]

/-- What every step keeps, a run keeps. -/
theorem run_keeps {inv : S → Prop} (keep : ∀ state input, inv state → inv (step state input).2)
    {start : S} (initial : inv start) (inputs : List I) : inv (run step start inputs).2 := by
  induction inputs generalizing start with
  | nil => exact initial
  | cons input rest ih => exact ih (keep start input initial)

/-! ## Guards -/

/-- The guard holds of every input in the state before it. -/
def Meets (guard : S → I → Prop) (start : S) : List I → Prop
  | [] => True
  | input :: rest => guard start input ∧ Meets guard (step start input).2 rest

instance decidableMeets (guard : S → I → Prop) [∀ state, DecidablePred (guard state)]
    (start : S) : ∀ inputs, Decidable (Meets step guard start inputs)
  | [] => inferInstanceAs (Decidable True)
  | input :: rest =>
    have := decidableMeets guard (step start input).2 rest
    inferInstanceAs (Decidable (_ ∧ _))

theorem meets_erase {T Q : Type} (carry : T → I → Q × T) (erase : T → S)
    (agree : ∀ state input, erase (carry state input).2 = (step (erase state) input).2)
    (guard : S → I → Prop) (start : T) (inputs : List I) :
    Meets carry (fun state => guard (erase state)) start inputs ↔
      Meets step guard (erase start) inputs := by
  induction inputs generalizing start with
  | nil => exact Iff.rfl
  | cons input rest ih => rw [Meets, Meets, ih, agree]

variable {step} in
theorem Meets.mono {guard weaker : S → I → Prop}
    (sound : ∀ state input, guard state input → weaker state input) {start : S}
    {inputs : List I} (meets : Meets step guard start inputs) : Meets step weaker start inputs := by
  induction inputs generalizing start with
  | nil => trivial
  | cons input rest ih => exact ⟨sound start input meets.1, ih meets.2⟩

theorem meets_append (guard : S → I → Prop) (start : S) (first second : List I) :
    Meets step guard start (first ++ second) ↔
      Meets step guard start first ∧ Meets step guard (run step start first).2 second := by
  induction first generalizing start with
  | nil => simp [Meets]
  | cons input rest ih => simp only [List.cons_append, Meets, run_cons, ih, and_assoc]

theorem meets_and (guard guard' : S → I → Prop) (start : S) (inputs : List I) :
    Meets step (fun state input => guard state input ∧ guard' state input) start inputs ↔
      Meets step guard start inputs ∧ Meets step guard' start inputs := by
  induction inputs generalizing start with
  | nil => simp [Meets]
  | cons input rest ih => rw [Meets, Meets, Meets, ih, and_and_and_comm]

theorem meets_const (guard : I → Prop) (start : S) (inputs : List I) :
    Meets step (fun _ => guard) start inputs ↔ ∀ input ∈ inputs, guard input := by
  induction inputs generalizing start with
  | nil => simp [Meets]
  | cons input rest ih => rw [Meets, ih, List.forall_mem_cons]

theorem forall_answers_iff_meets (holds : R → Prop) (start : S) (inputs : List I) :
    (∀ answer ∈ (run step start inputs).1, holds answer) ↔
      Meets step (fun state input => holds (step state input).1) start inputs := by
  induction inputs generalizing start with
  | nil => simp [Meets]
  | cons input rest ih => rw [run_cons, List.forall_mem_cons, Meets, ih]

theorem meets_iff_forall (guard : S → I → Prop) (start : S) (inputs : List I) :
    Meets step guard start inputs ↔
      ∀ earlier input later, inputs = earlier ++ input :: later →
        guard (run step start earlier).2 input := by
  constructor
  · rintro meets earlier input later rfl
    exact ((meets_append step guard start earlier _).mp meets).2.1
  · intro all
    induction inputs generalizing start with
    | nil => trivial
    | cons input rest ih =>
      refine ⟨all [] input rest rfl, ih _ fun earlier next later split => ?_⟩
      exact all (input :: earlier) next later (by rw [split, List.cons_append])

/-- The property holds of every state of the run, the first and the last included. -/
def Visits (inv : S → Prop) (start : S) (inputs : List I) : Prop :=
  ∀ earlier later, inputs = earlier ++ later → inv (run step start earlier).2

theorem visits_nil (inv : S → Prop) (start : S) : Visits step inv start [] ↔ inv start := by
  constructor
  · intro visits
    exact visits [] [] rfl
  · intro initial earlier later split
    rw [(List.append_eq_nil_iff.mp split.symm).1]
    exact initial

theorem visits_cons (inv : S → Prop) (start : S) (input : I) (rest : List I) :
    Visits step inv start (input :: rest) ↔
      inv start ∧ Visits step inv (step start input).2 rest := by
  constructor
  · intro visits
    exact ⟨visits [] _ rfl, fun earlier later split =>
      visits (input :: earlier) later (by rw [split, List.cons_append])⟩
  · rintro ⟨initial, visits⟩ earlier later split
    cases earlier with
    | nil => exact initial
    | cons first earlier =>
      obtain ⟨rfl, tail⟩ := List.cons.inj split
      exact visits earlier later tail

/-- The rule for a property of single states. The side property carries what the
guard alone does not say, and is kept by every enabled step. -/
theorem visits_iff_meets {inv side : S → Prop} {enabled guard : S → I → Prop}
    (exact : ∀ state input, side state → inv state → enabled state input →
      (inv (step state input).2 ↔ guard state input))
    (keep : ∀ state input, side state → enabled state input → side (step state input).2)
    {start : S} (initial : inv start) (aside : side start) (inputs : List I)
    (allowed : Meets step enabled start inputs) :
    Visits step inv start inputs ↔ Meets step guard start inputs := by
  induction inputs generalizing start with
  | nil => simp [visits_nil, Meets, initial]
  | cons input rest ih =>
    obtain ⟨now, later⟩ := allowed
    have moved := exact start input aside initial now
    -- the state after the first input is the first of the remaining run
    rw [visits_cons, Meets]
    constructor
    · rintro ⟨-, visits⟩
      have next : inv (step start input).2 := visits [] rest rfl
      exact ⟨moved.mp next, (ih next (keep _ _ aside now) later).mp visits⟩
    · rintro ⟨met, meets⟩
      exact ⟨initial, (ih (moved.mpr met) (keep _ _ aside now) later).mpr meets⟩

/-- The rule where the guard keeps more than the property: a step into a state
with the property was guarded, and a guarded step keeps the stronger one. -/
theorem visits_iff_meets_of_stronger {inv strong : S → Prop} {guard : S → I → Prop}
    (sound : ∀ state, strong state → inv state)
    (keep : ∀ state input, strong state → guard state input → strong (step state input).2)
    (guarded : ∀ state input, strong state → inv (step state input).2 → guard state input)
    {start : S} (initial : strong start) (inputs : List I) :
    Visits step inv start inputs ↔ Meets step guard start inputs := by
  induction inputs generalizing start with
  | nil => simp [visits_nil, Meets, sound start initial]
  | cons input rest ih =>
    rw [visits_cons, Meets]
    constructor
    · rintro ⟨-, visits⟩
      have met := guarded start input initial (visits [] rest rfl)
      exact ⟨met, (ih (keep start input initial met)).mp visits⟩
    · rintro ⟨met, meets⟩
      exact ⟨sound start initial, (ih (keep start input initial met)).mpr meets⟩

/-- The rule for a property that decides its next state alone. -/
theorem visits_iff_meets_of_exact {inv : S → Prop} {guard : S → I → Prop}
    (exact : ∀ state input, inv state → (inv (step state input).2 ↔ guard state input))
    {start : S} (initial : inv start) (inputs : List I) :
    Visits step inv start inputs ↔ Meets step guard start inputs :=
  visits_iff_meets_of_stronger step (fun _ now => now)
    (fun state input now met => (exact state input now).mpr met)
    (fun state input now next => (exact state input now).mp next) initial inputs

/-- Every state of the run is related to every later one. -/
def Persists (rel : S → S → Prop) (start : S) (inputs : List I) : Prop :=
  ∀ earlier between later, inputs = earlier ++ (between ++ later) →
    rel (run step start earlier).2 (run step start (earlier ++ between)).2

section Relation
variable {rel : S → S → Prop} {guard : S → I → Prop} (refl : ∀ state, rel state state)
  (trans : ∀ first second third, rel first second → rel second third → rel first third)
  (exact : ∀ state input, rel state (step state input).2 ↔ guard state input)
include refl trans exact

theorem relates_of_meets (start : S) (inputs : List I) (meets : Meets step guard start inputs) :
    rel start (run step start inputs).2 := by
  induction inputs generalizing start with
  | nil => exact refl start
  | cons input rest ih =>
    exact trans _ _ _ ((exact start input).mpr meets.1) (ih _ meets.2)

theorem persists_iff_meets (start : S) (inputs : List I) :
    Persists step rel start inputs ↔ Meets step guard start inputs := by
  constructor
  · -- one step is a run from the state before it to the state after it
    intro persists
    induction inputs generalizing start with
    | nil => trivial
    | cons input rest ih =>
      refine ⟨(exact start input).mp (persists [] [input] rest rfl), ih _ ?_⟩
      intro earlier between later split
      exact persists (input :: earlier) between later (by rw [split, List.cons_append])
  · intro meets earlier between later split
    rw [split, meets_append, meets_append] at meets
    rw [run_append]
    exact relates_of_meets step refl trans exact _ between meets.2.1

end Relation

end Machine

end Runs
