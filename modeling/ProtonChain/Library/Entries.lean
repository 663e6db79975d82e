import ProtonChain.Library.FiniteMap
import ProtonChain.Library.History

/-! Tables of a machine whose inputs write one entry each.

A write asks nothing of the entry that it writes over. So what an entry shows stays exactly if
every write over it shows the same, and what is found under a key is what was written there last.
-/

set_option autoImplicit false

namespace Entries

section Table
variable {K V W : Type} [DecidableEq K] (view : V → W)

/-- Every entry of the one table is in the other and shows the same. -/
def Keeps (before after : Finmap fun _ : K => V) : Prop :=
  ∀ key value, before.lookup key = some value →
    ∃ next, after.lookup key = some next ∧ view next = view value

variable {view} {before after : Finmap fun _ : K => V}

theorem Keeps.refl (table : Finmap fun _ : K => V) : Keeps view table table :=
  fun _ value found => ⟨value, found, rfl⟩

theorem Keeps.trans {third : Finmap fun _ : K => V} (one : Keeps view before after)
    (two : Keeps view after third) : Keeps view before third := by
  intro key value found
  obtain ⟨next, found, same⟩ := one key value found
  obtain ⟨last, found, same'⟩ := two key next found
  exact ⟨last, found, same'.trans same⟩

theorem keeps_insert_iff {key : K} {written : V} :
    Keeps view before (before.insert key written) ↔
      ∀ old, before.lookup key = some old → view old = view written := by
  constructor
  · intro keeps old found
    obtain ⟨next, found, same⟩ := keeps key old found
    rw [Finmap.lookup_insert] at found
    obtain rfl := Option.some.inj found
    exact same.symm
  · intro same other value found
    rw [FiniteMap.lookup_insert]
    split
    next here =>
      subst here
      exact ⟨written, rfl, (same value found).symm⟩
    next => exact ⟨value, found, rfl⟩

end Table

section Machine
variable {S I R K V W : Type} [DecidableEq K] (step : S → I → R × S)
  (table : S → Finmap fun _ : K => V) (writes : S → I → Option (K × V))

/-- A step does what its write says. -/
def Written : Prop := ∀ state input, table (step state input).2 =
  match writes state input with
  | some (key, value) => (table state).insert key value
  | none => table state

/-- A write over an entry shows what the entry shows. -/
def Agrees (view : V → W) (state : S) (input : I) : Prop :=
  ∀ key value, writes state input = some (key, value) →
    ∀ old, (table state).lookup key = some old → view old = view value

variable {step table writes}

/-- Entries stay what they show, exactly if the writes agree with them. -/
theorem persists_iff (written : Written step table writes) (view : V → W) (start : S)
    (inputs : List I) :
    Runs.Persists step (fun state next => Keeps view (table state) (table next)) start inputs ↔
      Runs.Meets step (Agrees table writes view) start inputs := by
  refine Runs.persists_iff_meets step (fun state => Keeps.refl _)
    (fun _ _ _ one two => one.trans two) (fun state input => ?_) start inputs
  rw [written, Agrees]
  cases wrote : writes state input with
  | none => exact iff_of_true (Keeps.refl _) fun key value given => by cases given
  | some entry =>
    obtain ⟨key, value⟩ := entry
    rw [keeps_insert_iff]
    constructor
    · intro same key' value' given
      obtain ⟨rfl, rfl⟩ := Prod.mk.inj (Option.some.inj given)
      exact same
    · intro agrees
      exact agrees key value rfl

/-- From an empty table on, an entry is the last write under its key. -/
theorem lookup_iff (written : Written step table writes) {start : S} (empty : table start = ∅)
    (inputs : List I) (key : K) (value : V) :
    (table (Runs.run step start inputs).2).lookup key = some value ↔
      Runs.Since step (fun state input => writes state input = some (key, value))
        (fun state input => ∀ other, writes state input ≠ some (key, other)) start inputs := by
  induction inputs using List.reverseRecOn with
  | nil =>
    rw [Runs.run_nil, empty, Finmap.lookup_empty]
    refine iff_of_false (fun found => by cases found) ?_
    rintro ⟨earlier, input, later, split, -⟩
    simp at split
  | append_singleton inputs last ih =>
    rw [Runs.run_concat, Runs.since_concat, written, ← ih]
    cases wrote : writes (Runs.run step start inputs).2 last with
    | none => simp
    | some entry =>
      obtain ⟨other, value'⟩ := entry
      simp only [FiniteMap.lookup_insert, Option.some.injEq, Prod.mk.injEq]
      by_cases same : key = other
      · subst same
        simp
      · simp [same, Ne.symm same]

end Machine

end Entries
