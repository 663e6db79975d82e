import ProtonChain.Sdk.Collections

/-! When the collections of one contract do not disturb each other.

Nothing but the text of the key says where a collection keeps an entry, so two collections that
have a text in common share the entry under it. They stay apart only if neither can read what is
ever written there.
-/

set_option autoImplicit false

namespace ProtonChain.Sdk

open Serialize Deserialize

namespace Collection

/-! ## Places in the store -/

def keyBytes : (collection : Collection) → collection.Key → Option Bytes
  | map K _ => (toVec : K → Option Bytes)
  | set T => (toVec : T → Option Bytes)

def valueBytes : (collection : Collection) → collection.Value → Option Bytes
  | map _ V => (toVec : V → Option Bytes)
  | set _ => fun _ => some [1]

/-- The collection answers for these bytes; a set asks only whether there are any. -/
def reads : Collection → Bytes → Bool
  | map _ V => fun bytes => (fromSlice bytes : Option V).isSome
  | set _ => fun _ => true

def Names (collection : Collection) (bytes : Bytes) : Prop :=
  ∃ key, collection.keyBytes key = some bytes

def Stores (collection : Collection) (bytes : Bytes) : Prop :=
  ∃ value, collection.valueBytes value = some bytes

theorem insert_eq_some {collection : Collection} {key : collection.Key} {value : collection.Value}
    {storage storage' : Storage} : collection.insert key value storage = some storage' ↔
      ∃ name stored, collection.keyBytes key = some name ∧
        collection.valueBytes value = some stored ∧ storageSet name stored storage = storage' := by
  cases collection with
  | map K V =>
    simp only [insert, Map.insert, keyBytes, valueBytes, Option.bind_eq_bind,
      Option.bind_eq_some_iff, Option.pure_def, Option.some.injEq, exists_and_left]
  | set T =>
    simp only [insert, Set.insert, keyBytes, valueBytes, Option.bind_eq_bind,
      Option.bind_eq_some_iff, Option.pure_def, Option.some.injEq, exists_and_left,
      exists_eq_left']

theorem remove_eq_some {collection : Collection} {key : collection.Key}
    {storage storage' : Storage} : collection.remove key storage = some storage' ↔
      ∃ name, collection.keyBytes key = some name ∧ storageRemove name storage = storage' := by
  cases collection <;>
    simp only [remove, Map.remove, Set.remove, keyBytes, Option.bind_eq_bind,
      Option.bind_eq_some_iff, Option.pure_def, Option.some.injEq]

theorem answer_congr {collection : Collection} {key : collection.Key} {storage storage' : Storage}
    (same : ∀ name, collection.keyBytes key = some name →
      (storageGet name storage).filter collection.reads =
        (storageGet name storage').filter collection.reads) :
    collection.answer key storage = collection.answer key storage' := by
  cases collection with
  | map K V =>
    have get_eq := (Map.mk : Map K V).get_congr same
    exact Prod.ext get_eq (congrArg Option.isSome get_eq)
  | set T =>
    cases named : (set T).keyBytes key with
    | none =>
      exact ((Set.mk : Set T).contains_of_refused named storage).trans
        ((Set.mk : Set T).contains_of_refused named storage').symm
    | some name =>
      have whole (bytes : Option Bytes) : bytes.filter (set T).reads = bytes := by
        cases bytes <;> rfl
      have kept := same name named
      rw [whole, whole] at kept
      exact ((Set.mk : Set T).contains_eq named storage).trans
        (kept ▸ ((Set.mk : Set T).contains_eq named storage').symm)

theorem answer_ne {collection : Collection} {key : collection.Key} {storage storage' : Storage}
    {name stored : Bytes} (named : collection.keyBytes key = some name)
    (found : storageGet name storage = some stored) (read : collection.reads stored = true)
    (missing : storageGet name storage' = none) :
    collection.answer key storage ≠ collection.answer key storage' := by
  cases collection with
  | map K V =>
    intro same
    have get_eq := congrArg Prod.fst same
    simp only [answer] at get_eq
    rw [Map.get_of_found _ named found, Map.get_of_missing _ named missing] at get_eq
    simp [reads, get_eq] at read
  | set T =>
    intro same
    simp only [answer] at same
    rw [Set.contains_eq _ named, Set.contains_eq _ named, found, missing] at same
    cases same

end Collection

/-! ## Histories -/

variable {ι : Type}

inductive Op (contract : ι → Collection) where
  | insert (field : ι) (key : (contract field).Key) (value : (contract field).Value)
  | remove (field : ι) (key : (contract field).Key)

namespace Op
variable {contract : ι → Collection}

def field : Op contract → ι
  | insert field _ _ => field
  | remove field _ => field

/-- A panic ends the call with nothing written. -/
def perform (storage : Storage) : Op contract → Storage
  | insert field key value => ((contract field).insert key value storage).getD storage
  | remove field key => ((contract field).remove key storage).getD storage

theorem perform_cases (storage : Storage) (op : Op contract) :
    perform storage op = storage ∨
      ∃ name, (contract op.field).Names name ∧
        ((∃ stored, (contract op.field).Stores stored ∧
            perform storage op = storageSet name stored storage) ∨
          perform storage op = storageRemove name storage) := by
  cases op with
  | insert field key value =>
    cases result : (contract field).insert key value storage with
    | none => exact .inl (by rw [perform, result, Option.getD_none])
    | some storage' =>
      obtain ⟨name, stored, named, written, rfl⟩ := Collection.insert_eq_some.mp result
      refine .inr ⟨name, ⟨key, named⟩, .inl ⟨stored, ⟨value, written⟩, ?_⟩⟩
      rw [perform, result, Option.getD_some]
  | remove field key =>
    cases result : (contract field).remove key storage with
    | none => exact .inl (by rw [perform, result, Option.getD_none])
    | some storage' =>
      obtain ⟨name, named, rfl⟩ := Collection.remove_eq_some.mp result
      refine .inr ⟨name, ⟨key, named⟩, .inr ?_⟩
      rw [perform, result, Option.getD_some]

theorem storageGet_perform (storage : Storage) (op : Op contract) {name : Bytes}
    (foreign : ¬ (contract op.field).Names name) :
    storageGet name (perform storage op) = storageGet name storage := by
  obtain same | ⟨other, named, ⟨stored, -, same⟩ | same⟩ := perform_cases storage op
  · rw [same]
  · have apart : name ≠ other := fun equal => foreign (equal ▸ named)
    rw [same, storageGet, storageSet, Finmap.lookup_insert_of_ne _ apart, storageGet]
  · have apart : name ≠ other := fun equal => foreign (equal ▸ named)
    rw [same, storageGet, storageRemove, Finmap.lookup_erase_ne apart, storageGet]

end Op

section Contract
variable (contract : ι → Collection)

def after (history : List (Op contract)) : Storage := history.foldl Op.perform ∅

/-- No operation on one collection ever changes what another answers. -/
def Independent : Prop :=
  ∀ (history : List (Op contract)) (op : Op contract) (other : ι), other ≠ op.field →
    ∀ key : (contract other).Key,
      (contract other).answer key (op.perform (after contract history)) =
        (contract other).answer key (after contract history)

/-- Some collection can write these bytes under this text. -/
def Written (name stored : Bytes) : Prop :=
  ∃ writer, (contract writer).Names name ∧ (contract writer).Stores stored

variable {contract}

theorem written_perform {storage : Storage}
    (written : ∀ name stored, storageGet name storage = some stored → Written contract name stored)
    (op : Op contract) {name stored : Bytes}
    (found : storageGet name (op.perform storage) = some stored) :
    Written contract name stored := by
  obtain same | ⟨place, named, ⟨value, stores, same⟩ | same⟩ := op.perform_cases storage
  · exact written name stored (same ▸ found)
  · rw [same, storageGet, storageSet, FiniteMap.lookup_insert] at found
    split at found
    next own =>
      obtain rfl := Option.some.inj found
      exact ⟨op.field, own ▸ named, stores⟩
    next => exact written name stored found
  · rw [same, storageGet, storageRemove, FiniteMap.lookup_erase] at found
    split at found
    next => cases found
    next => exact written name stored found

theorem written_after (history : List (Op contract)) :
    ∀ name stored, storageGet name (after contract history) = some stored →
      Written contract name stored := by
  induction history using List.reverseRecOn with
  | nil =>
    intro name stored found
    cases found
  | append_singleton history op ih =>
    intro name stored found
    rw [after, List.foldl_append] at found
    exact written_perform ih op found

/-! ## Shared texts -/

/-- A text of two collections, with bytes under it that one of them reads, lets the other one
remove them. -/
theorem not_independent_of_shared {field other : ι} (apart : field ≠ other) {name stored : Bytes}
    (named : (contract field).Names name) (shared : (contract other).Names name)
    (written : Written contract name stored) (read : (contract other).reads stored = true) :
    ¬ Independent contract := by
  obtain ⟨key, key_eq⟩ := named
  obtain ⟨otherKey, otherKey_eq⟩ := shared
  obtain ⟨writer, ⟨writerKey, writerKey_eq⟩, value, value_eq⟩ := written
  let history : List (Op contract) := [.insert writer writerKey value]
  have inserted : after contract history = storageSet name stored ∅ := by
    have result : (contract writer).insert writerKey value ∅ = some (storageSet name stored ∅) :=
      Collection.insert_eq_some.mpr ⟨name, stored, writerKey_eq, value_eq, rfl⟩
    change ((contract writer).insert writerKey value ∅).getD ∅ = _
    rw [result, Option.getD_some]
  have removed : (Op.remove field key).perform (after contract history) =
      storageRemove name (after contract history) := by
    rw [Op.perform, Collection.remove_eq_some.mpr ⟨name, key_eq, rfl⟩, Option.getD_some]
  intro independent
  have kept := independent history (.remove field key) other apart.symm otherKey
  have found : storageGet name (after contract history) = some stored := by
    rw [inserted, storageGet, storageSet, Finmap.lookup_insert]
  refine Collection.answer_ne otherKey_eq found read ?_ kept.symm
  rw [removed, storageGet, storageRemove, Finmap.lookup_erase]

/-- Apart from shared texts an operation moves no bytes that another collection looks at, and
under shared ones it moves only bytes that the other one does not read. -/
theorem independent_of_unread
    (unread : ∀ field other, field ≠ other → ∀ name, (contract field).Names name →
      (contract other).Names name → ∀ stored, Written contract name stored →
        (contract other).reads stored = false) : Independent contract := by
  intro history op other apart key
  refine Collection.answer_congr fun name named => ?_
  by_cases touched : (contract op.field).Names name
  · -- whatever lies there before and after the operation was written by some collection
    have hidden (bytes : Option Bytes)
        (written : ∀ stored, bytes = some stored → Written contract name stored) :
        bytes.filter (contract other).reads = none := by
      rw [Option.filter_eq_none_iff]
      intro stored found
      rw [unread op.field other apart.symm name touched ⟨key, named⟩ stored (written stored found)]
      decide
    have before := written_after history
    rw [hidden _ fun stored => written_perform before op, hidden _ (before name)]
  · rw [op.storageGet_perform _ touched]

end Contract

section Contract
variable (contract : ι → Collection)

/-- Collections are independent exactly if none reads what can lie under a text it shares with
another. Where every collection reads back something it stores, no two may share a text. -/
theorem collections_independent_iff :
    (Independent contract ↔ ∀ field other, field ≠ other → ∀ name, (contract field).Names name →
      (contract other).Names name → ∀ stored, Written contract name stored →
        (contract other).reads stored = false) ∧
    ((∀ field, ∃ stored, (contract field).Stores stored ∧ (contract field).reads stored = true) →
      (Independent contract ↔ ∀ field other, field ≠ other → ∀ name,
        (contract field).Names name → ¬ (contract other).Names name)) := by
  have exact_iff : Independent contract ↔ ∀ field other, field ≠ other → ∀ name,
      (contract field).Names name → (contract other).Names name → ∀ stored,
        Written contract name stored → (contract other).reads stored = false := by
    refine ⟨fun independent field other apart name named shared stored written => ?_,
      independent_of_unread⟩
    by_contra read
    exact not_independent_of_shared apart named shared written
      (Bool.not_eq_false _ ▸ read) independent
  refine ⟨exact_iff, fun usable => ?_⟩
  rw [exact_iff]
  constructor
  · intro unread field other apart name named shared
    obtain ⟨stored, stores, read⟩ := usable other
    have hidden := unread field other apart name named shared stored ⟨other, shared, stores⟩
    exact Bool.false_ne_true (hidden.symm.trans read)
  · intro distinct field other apart name named shared
    exact absurd shared (distinct field other apart name named)

end Contract

/-! ## One key type -/

inductive SampleField where
  | spent
  | flags
  deriving DecidableEq

/-- A `Set<Hash>` and a `Map<Hash, bool>`. -/
def sample : SampleField → Collection
  | .spent => .set Hash
  | .flags => .map Hash Bool

/-- A spent mark is gone once the flag of the same hash is removed. -/
theorem mark_removed_through_map :
    (Set.mk : Set Hash).contains Hash.zero (after sample [.insert .spent Hash.zero ()]) =
      some true ∧
    (Set.mk : Set Hash).contains Hash.zero
      (after sample [.insert .spent Hash.zero (), .remove .flags Hash.zero]) = some false ∧
    ¬ Independent sample := by
  have marked : (Set.mk : Set Hash).contains Hash.zero
      (after sample [.insert .spent Hash.zero ()]) = some true := by decide
  have lost : (Set.mk : Set Hash).contains Hash.zero
      (after sample [.insert .spent Hash.zero (), .remove .flags Hash.zero]) = some false := by
    decide
  refine ⟨marked, lost, fun independent => ?_⟩
  have kept := independent [.insert .spent Hash.zero ()] (.remove .flags Hash.zero) .spent
    (by decide) Hash.zero
  exact absurd (lost.symm.trans (kept.trans marked)) (by decide)

end ProtonChain.Sdk
