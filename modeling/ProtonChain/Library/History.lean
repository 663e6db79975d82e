import Mathlib.Data.List.Induction
import ProtonChain.Library.Runs

/-! What has happened in a run before the state it ends in.

An event is something about one input and the state that meets it. Each law adds one
input at the end of a run, so that a property of a state and of the run that led to it
is proved by induction from the last input.
-/

set_option autoImplicit false

namespace Runs

section Machine
variable {S I R : Type} (step : S → I → R × S)

/-- The event is one of the run. -/
def Occurs (event : S → I → Prop) (start : S) (inputs : List I) : Prop :=
  ∃ earlier input later, inputs = earlier ++ input :: later ∧
    event (run step start earlier).2 input

/-- The event is one of the run, and the guard holds of every input after it. -/
def Since (event guard : S → I → Prop) (start : S) (inputs : List I) : Prop :=
  ∃ earlier input later, inputs = earlier ++ input :: later ∧
    event (run step start earlier).2 input ∧
      Meets step guard (step (run step start earlier).2 input).2 later

theorem occurs_concat (event : S → I → Prop) (start : S) (inputs : List I) (last : I) :
    Occurs step event start (inputs ++ [last]) ↔
      Occurs step event start inputs ∨ event (run step start inputs).2 last := by
  constructor
  · rintro ⟨earlier, input, later, split, event⟩
    -- the event is at the last input or before it
    induction later using List.reverseRecOn with
    | nil =>
      obtain ⟨rfl, same⟩ := List.append_inj' split rfl
      obtain rfl := List.singleton_inj.mp same
      exact .inr event
    | append_singleton later final =>
      rw [← List.cons_append, ← List.append_assoc] at split
      exact .inl ⟨earlier, input, later, (List.append_inj' split rfl).1, event⟩
  · rintro (⟨earlier, input, later, rfl, event⟩ | event)
    · exact ⟨earlier, input, later ++ [last], by simp, event⟩
    · exact ⟨inputs, last, [], rfl, event⟩

theorem since_concat (event guard : S → I → Prop) (start : S) (inputs : List I) (last : I) :
    Since step event guard start (inputs ++ [last]) ↔
      event (run step start inputs).2 last ∨
        Since step event guard start inputs ∧ guard (run step start inputs).2 last := by
  constructor
  · rintro ⟨earlier, input, later, split, event, meets⟩
    induction later using List.reverseRecOn with
    | nil =>
      obtain ⟨rfl, same⟩ := List.append_inj' split rfl
      obtain rfl := List.singleton_inj.mp same
      exact .inl event
    | append_singleton later final =>
      rw [← List.cons_append, ← List.append_assoc] at split
      obtain ⟨rfl, same⟩ := List.append_inj' split rfl
      obtain rfl := List.singleton_inj.mp same
      rw [meets_append] at meets
      refine .inr ⟨⟨earlier, input, later, rfl, event, meets.1⟩, ?_⟩
      rw [run_append, run_cons]
      exact meets.2.1
  · rintro (event | ⟨⟨earlier, input, later, rfl, event, meets⟩, met⟩)
    · exact ⟨inputs, last, [], rfl, event, trivial⟩
    · rw [run_append, run_cons] at met
      refine ⟨earlier, input, later ++ [last], by simp, event, ?_⟩
      exact (meets_append step guard _ _ _).mpr ⟨meets, met, trivial⟩

theorem Since.mono {event event' guard : S → I → Prop} {start : S} {inputs : List I}
    (weaker : ∀ state input, event state input → event' state input)
    (since : Since step event guard start inputs) : Since step event' guard start inputs := by
  obtain ⟨earlier, input, later, split, event, meets⟩ := since
  exact ⟨earlier, input, later, split, weaker _ _ event, meets⟩

/-- Two properties of the last event of a kind are properties of one and the same event. -/
theorem Since.and {kind first second : S → I → Prop}
    (isFirst : ∀ state input, first state input → kind state input)
    (isSecond : ∀ state input, second state input → kind state input)
    {start : S} {inputs : List I}
    (one : Since step first (fun state input => ¬ kind state input) start inputs)
    (two : Since step second (fun state input => ¬ kind state input) start inputs) :
    Since step (fun state input => first state input ∧ second state input)
      (fun state input => ¬ kind state input) start inputs := by
  induction inputs using List.reverseRecOn with
  | nil =>
    obtain ⟨earlier, input, later, split, -⟩ := one
    simp at split
  | append_singleton inputs last ih =>
    rw [since_concat] at one two ⊢
    rcases one with one | ⟨one, other⟩
    · rcases two with two | ⟨-, other⟩
      · exact .inl ⟨one, two⟩
      · exact absurd (isFirst _ _ one) other
    · rcases two with two | ⟨two, -⟩
      · exact absurd (isSecond _ _ two) other
      · exact .inr ⟨ih one two, other⟩

/-- What is noted of the inputs of a run, in their order. -/
def notes {A : Type} (note : S → I → Option A) (start : S) : List I → List A
  | [] => []
  | input :: rest => (note start input).toList ++ notes note (step start input).2 rest

theorem notes_append {A : Type} (note : S → I → Option A) (start : S) (first second : List I) :
    notes step note start (first ++ second) =
      notes step note start first ++ notes step note (run step start first).2 second := by
  induction first generalizing start with
  | nil => rfl
  | cons input rest ih => rw [List.cons_append, notes, notes, ih, run_cons, List.append_assoc]

theorem notes_concat {A : Type} (note : S → I → Option A) (start : S) (inputs : List I) (last : I) :
    notes step note start (inputs ++ [last]) =
      notes step note start inputs ++ (note (run step start inputs).2 last).toList := by
  rw [notes_append, notes, notes, List.append_nil]

/-- An event with some key is not followed by another one with the same key. -/
def Once {K : Type} (event : K → S → I → Prop) (start : S) (inputs : List I) : Prop :=
  ∀ key earlier input later, inputs = earlier ++ input :: later →
    event key (run step start earlier).2 input → ¬ Occurs step (event key) start earlier

theorem Once.mono {K : Type} {event wider : K → S → I → Prop} {start : S} {inputs : List I}
    (sound : ∀ key state input, event key state input → wider key state input)
    (once : Once step wider start inputs) : Once step event start inputs := by
  intro key earlier input later split now before
  apply once key earlier input later split (sound _ _ _ now)
  obtain ⟨first, input', rest, split', event⟩ := before
  exact ⟨first, input', rest, split', sound _ _ _ event⟩

theorem once_congr {K : Type} {event other : K → S → I → Prop} {start : S} {inputs : List I}
    (same : ∀ key state input, event key state input ↔ other key state input) :
    Once step event start inputs ↔ Once step other start inputs :=
  ⟨Once.mono step fun key state input => (same key state input).mpr,
    Once.mono step fun key state input => (same key state input).mp⟩

/-- Nothing keeps an accepted input from being accepted again: the checks that it passes look at
no history, and it passes them in every state that may follow. -/
structure Unprotected {K : Type} (accepts passes : K → S → I → Prop) (follows : S → I → S → Prop) :
    Prop where
  once_iff : ∀ start inputs, Once step accepts start inputs ↔ Once step passes start inputs
  again : ∀ key state input next, accepts key state input → follows state input next →
    accepts key next input

/-- A step that can be repeated at once. -/
theorem not_once_of_again {K : Type} {event : K → S → I → Prop} {key : K} {start : S}
    {inputs : List I} {input : I} (now : event key (run step start inputs).2 input)
    (again : event key (step (run step start inputs).2 input).2 input) :
    ¬ Once step event start (inputs ++ [input, input]) := by
  intro once
  apply once key (inputs ++ [input]) input [] (by simp)
  · rw [run_concat]
    exact again
  · exact ⟨inputs, input, [], rfl, now⟩

/-- A property of runs that every further input keeps. -/
theorem history {inv : List I → S → Prop} {start : S} (initial : inv [] start)
    (keep : ∀ inputs last, inv inputs (run step start inputs).2 →
      inv (inputs ++ [last]) (step (run step start inputs).2 last).2)
    (inputs : List I) : inv inputs (run step start inputs).2 := by
  induction inputs using List.reverseRecOn with
  | nil => exact initial
  | append_singleton inputs last ih =>
    rw [run_concat]
    exact keep inputs last ih

end Machine

end Runs
