import Mathlib.Data.List.Basic
import Mathlib.Logic.Function.Basic

/-! Keyed stores with staged writes.

Writes are staged until a commit keeps all of them or a rollback drops them. What a
key holds is decided by the last of its writes that a commit reached.
-/

set_option autoImplicit false

namespace Journal

inductive Event (W : Type) where
  | write (write : W)
  | commit
  | rollback

section Events
variable {W V : Type}

/-- A commit comes before any rollback. -/
def Kept : List (Event W) → Bool
  | [] => false
  | .write _ :: rest => Kept rest
  | .commit :: _ => true
  | .rollback :: _ => false

/-- What the last selected write wrote that was kept. -/
def lastKept (select : W → Option V) : List (Event W) → Option V
  | [] => none
  | .write write :: rest => (lastKept select rest).or (if Kept rest then select write else none)
  | .commit :: rest => lastKept select rest
  | .rollback :: rest => lastKept select rest

/-- The value is that of a kept write, and no selected write after it is kept. -/
def LastKept (select : W → Option V) (events : List (Event W)) (value : V) : Prop :=
  ∃ earlier write later, events = earlier ++ .write write :: later ∧ Kept later = true ∧
    select write = some value ∧
    ∀ between other rest, later = between ++ .write other :: rest → Kept rest = true →
      select other = none

theorem lastKept_cons_of_some {select : W → Option V} {events : List (Event W)} {value : V}
    (found : lastKept select events = some value) (event : Event W) :
    lastKept select (event :: events) = some value := by
  cases event with
  | write write => rw [lastKept, found, Option.some_or]
  | commit => exact found
  | rollback => exact found

theorem lastKept_append_of_some {select : W → Option V} {later : List (Event W)} {value : V}
    (found : lastKept select later = some value) (earlier : List (Event W)) :
    lastKept select (earlier ++ later) = some value := by
  induction earlier with
  | nil => exact found
  | cons event earlier ih => exact lastKept_cons_of_some ih event

theorem lastKept_eq_none_iff {select : W → Option V} {events : List (Event W)} :
    lastKept select events = none ↔
      ∀ earlier write later, events = earlier ++ .write write :: later → Kept later = true →
        select write = none := by
  constructor
  · rintro missing earlier write later rfl kept
    cases selected : select write with
    | none => rfl
    | some value =>
      have found : ∃ value, lastKept select (.write write :: later) = some value := by
        rw [lastKept, if_pos kept, selected]
        cases lastKept select later with
        | none => exact ⟨value, rfl⟩
        | some value' => exact ⟨value', rfl⟩
      obtain ⟨value, found⟩ := found
      rw [lastKept_append_of_some found earlier] at missing
      cases missing
  · intro none
    induction events with
    | nil => rfl
    | cons event rest ih =>
      have later := ih fun earlier write later split =>
        none (event :: earlier) write later (by rw [split, List.cons_append])
      cases event with
      | write write =>
        rw [lastKept, later, Option.none_or]
        split
        next kept => exact none [] write rest rfl kept
        · rfl
      | commit => exact later
      | rollback => exact later

theorem lastKept_eq_some_iff {select : W → Option V} {events : List (Event W)} {value : V} :
    lastKept select events = some value ↔ LastKept select events value := by
  constructor
  · intro found
    induction events with
    | nil => cases found
    | cons event rest ih =>
      have skip : LastKept select rest value → LastKept select (event :: rest) value := by
        rintro ⟨earlier, write, later, rfl, last⟩
        exact ⟨event :: earlier, write, later, rfl, last⟩
      cases event with
      | write write =>
        rw [lastKept] at found
        cases after : lastKept select rest with
        | some other =>
          rw [after, Option.some_or] at found
          exact skip (ih (after.trans found))
        | none =>
          rw [after, Option.none_or] at found
          split at found
          next kept =>
            exact ⟨[], write, rest, rfl, kept, found, lastKept_eq_none_iff.mp after⟩
          · cases found
      | commit => exact skip (ih found)
      | rollback => exact skip (ih found)
  · rintro ⟨earlier, write, later, rfl, kept, selected, last⟩
    apply lastKept_append_of_some
    rw [lastKept, lastKept_eq_none_iff.mpr last, Option.none_or, if_pos kept, selected]

/-- The value comes from one of the writes. -/
theorem mem_of_lastKept {select : W → Option V} {events : List (Event W)} {value : V}
    (found : lastKept select events = some value) :
    ∃ write, .write write ∈ events ∧ select write = some value := by
  obtain ⟨earlier, write, later, rfl, -, selected, -⟩ := lastKept_eq_some_iff.mp found
  exact ⟨write, List.mem_append_right _ List.mem_cons_self, selected⟩

theorem kept_commit (writes : List W) (rest : List (Event W)) :
    Kept (writes.map .write ++ .commit :: rest) = true := by
  induction writes with
  | nil => rfl
  | cons write writes ih => exact ih

theorem lastKept_ne_none {select : W → Option V} {writes : List W} {write : W} {value : V}
    (member : write ∈ writes) (selected : select write = some value) (rest : List (Event W)) :
    lastKept select (writes.map .write ++ .commit :: rest) ≠ none := by
  intro missing
  obtain ⟨earlier, later, rfl⟩ := List.append_of_mem member
  have nothing := lastKept_eq_none_iff.mp missing (earlier.map .write) write
    (later.map .write ++ .commit :: rest) (by simp) (kept_commit later rest)
  rw [selected] at nothing
  cases nothing

/-- A reading that succeeds on every selected value is moved to the end. -/
theorem lastKept_bind {V' : Type} {select : W → Option V} {read : V → Option V'}
    (reads : ∀ write value, select write = some value → ∃ result, read value = some result)
    (events : List (Event W)) :
    lastKept (fun write => (select write).bind read) events =
      (lastKept select events).bind read := by
  induction events with
  | nil => rfl
  | cons event rest ih =>
    cases event with
    | write write =>
      rw [lastKept, lastKept, ih]
      cases found : lastKept select rest with
      | none =>
        rw [Option.bind_none, Option.none_or, Option.none_or]
        split <;> rfl
      | some value =>
        obtain ⟨written, -, selected⟩ := mem_of_lastKept found
        obtain ⟨result, done⟩ := reads written value selected
        rw [Option.some_or, Option.bind_some, done, Option.some_or]
    | commit => exact ih
    | rollback => exact ih

end Events

/-! ## Stores -/

/-- What was committed, and that with the staged writes on top. -/
structure Store (K V : Type) where
  committed : K → Option V
  working : K → Option V

namespace Store

variable {W K V : Type} [DecidableEq K]

def step (entry : W → K × V) (store : Store K V) : Event W → Store K V
  | .write write =>
    { store with
      working := Function.update store.working (entry write).1 (some (entry write).2) }
  | .commit => ⟨store.working, store.working⟩
  | .rollback => ⟨store.committed, store.committed⟩

/-- The value a write has for the key. -/
def entryAt (entry : W → K × V) (key : K) (write : W) : Option V :=
  if (entry write).1 = key then some (entry write).2 else none

theorem update_entry (entry : W → K × V) (contents : K → Option V) (write : W) (key : K) :
    Function.update contents (entry write).1 (some (entry write).2) key =
      (entryAt entry key write).or (contents key) := by
  rw [Function.update_apply, entryAt]
  by_cases own : key = (entry write).1
  · rw [if_pos own, if_pos own.symm, Option.some_or]
  · rw [if_neg own, if_neg (Ne.symm own), Option.none_or]

/-- A key holds what its last kept write wrote, or else what it held at the start. -/
theorem committed_run (entry : W → K × V) (start : Store K V) (events : List (Event W))
    (key : K) :
    (events.foldl (step entry) start).committed key =
      (lastKept (entryAt entry key) events).or
        (if Kept events then start.working key else start.committed key) := by
  induction events generalizing start with
  | nil => rfl
  | cons event rest ih =>
    rw [List.foldl_cons, ih]
    cases event with
    | write write =>
      simp only [lastKept, Kept, step, update_entry]
      by_cases kept : Kept rest = true
      · simp only [kept, if_true, Option.or_assoc]
      · simp only [kept, Bool.false_eq_true, if_false, Option.or_none]
    | commit => simp only [lastKept, Kept, step, ite_self, if_true]
    | rollback => simp only [lastKept, Kept, step, ite_self, Bool.false_eq_true, if_false]

end Store

end Journal
