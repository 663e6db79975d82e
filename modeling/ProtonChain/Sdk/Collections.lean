import ProtonChain.Library.FiniteMap
import ProtonChain.Library.Json
import ProtonChain.Types

/-! The storage collections that contracts are written with.

A `Map` or `Set` carries no data of its own: it reads and writes the one store that the host keeps
for the contract, under the JSON text of the key. What a collection answers about a key therefore
depends on the bytes at that text only, whoever wrote them.
-/

set_option autoImplicit false

namespace ProtonChain.Sdk

/-- The store behind `host_storage_read`, `host_storage_write` and `host_storage_delete`. -/
abbrev Storage := HashMap Bytes Bytes

def storageGet (key : Bytes) (storage : Storage) : Option Bytes := storage.lookup key

def storageSet (key value : Bytes) (storage : Storage) : Storage := storage.insert key value

def storageRemove (key : Bytes) (storage : Storage) : Storage := storage.erase key

/-- `serde_json::to_vec`, which may refuse a value. -/
class Serialize (A : Type) where
  toVec : A → Option Bytes

/-- `serde_json::from_slice`. -/
class Deserialize (A : Type) where
  fromSlice : Bytes → Option A

/-- A type whose values have different encodings. -/
class SerializeKey (K : Type) extends Serialize K where
  toVec_inj : ∀ {first second : K} {bytes : Bytes},
    toVec first = some bytes → toVec second = some bytes → first = second

open Serialize Deserialize

/-! ## The two collections -/

structure Map (K V : Type) where

structure Set (T : Type) where

namespace Map
variable {K V : Type} [SerializeKey K]

def get [Deserialize V] (_map : Map K V) (key : K) (storage : Storage) : Option V := do
  let keyBytes ← toVec key
  let valueBytes ← storageGet keyBytes storage
  fromSlice valueBytes

/-- Without a result where an encoding is refused and its `unwrap` panics. -/
def insert [Serialize V] (_map : Map K V) (key : K) (value : V) (storage : Storage) :
    Option Storage := do
  let keyBytes ← toVec key
  let valueBytes ← toVec value
  return storageSet keyBytes valueBytes storage

def remove (_map : Map K V) (key : K) (storage : Storage) : Option Storage := do
  let keyBytes ← toVec key
  return storageRemove keyBytes storage

def containsKey [Deserialize V] (map : Map K V) (key : K) (storage : Storage) : Bool :=
  (map.get key storage).isSome

variable [Deserialize V] {key : K} {storage storage' : Storage} {name : Bytes}

/-- Bytes that are no value give the answer of a missing entry. -/
theorem get_congr (map : Map K V)
    (same : ∀ name, toVec key = some name →
      (storageGet name storage).filter (fun bytes => (fromSlice bytes : Option V).isSome) =
        (storageGet name storage').filter fun bytes => (fromSlice bytes : Option V).isSome) :
    map.get key storage = map.get key storage' := by
  have filtered (bytes : Option Bytes) : bytes.bind (fromSlice : Bytes → Option V) =
      (bytes.filter fun bytes => (fromSlice bytes : Option V).isSome).bind fromSlice := by
    cases bytes with
    | none => rfl
    | some stored =>
      cases read : (fromSlice stored : Option V) <;> simp [Option.filter, read]
  cases named : toVec key with
  | none => simp only [get, named, Option.bind_eq_bind, Option.bind_none]
  | some name =>
    simp only [get, named, Option.bind_eq_bind, Option.bind_some]
    rw [filtered, same name named, ← filtered]

theorem get_of_found (map : Map K V) {stored : Bytes} (named : toVec key = some name)
    (found : storageGet name storage = some stored) :
    map.get key storage = fromSlice stored := by
  simp only [get, named, found, Option.bind_eq_bind, Option.bind_some]

theorem get_of_missing (map : Map K V) (named : toVec key = some name)
    (missing : storageGet name storage = none) : map.get key storage = none := by
  simp only [get, named, missing, Option.bind_eq_bind, Option.bind_some, Option.bind_none]

end Map

namespace Set
variable {T : Type} [SerializeKey T]

def insert (_set : Set T) (value : T) (storage : Storage) : Option Storage := do
  let key ← toVec value
  return storageSet key [1] storage

def contains (_set : Set T) (value : T) (storage : Storage) : Option Bool := do
  let key ← toVec value
  return (storageGet key storage).isSome

def remove (_set : Set T) (value : T) (storage : Storage) : Option Storage := do
  let key ← toVec value
  return storageRemove key storage

theorem contains_eq (set : Set T) {value : T} {name : Bytes} (named : toVec value = some name)
    (storage : Storage) : set.contains value storage = some (storageGet name storage).isSome := by
  simp only [contains, named, Option.bind_eq_bind, Option.bind_some, Option.pure_def]

theorem contains_of_refused (set : Set T) {value : T} (refused : toVec value = none)
    (storage : Storage) : set.contains value storage = none := by
  simp only [contains, refused, Option.bind_eq_bind, Option.bind_none]

end Set

/-! ## Encodings -/

/-- A newtype is encoded as the array it holds. -/
instance : SerializeKey Hash where
  toVec hash := some (Json.array (hash.asBytes.toList.map UInt8.toNat))
  toVec_inj {first second _} named named' := by
    have texts := Json.array_inj (by simp) (Option.some.inj (named.trans named'.symm))
    exact Hash.eq_of_bytes (List.map_injective_iff.mpr (fun _ _ => UInt8.toNat.inj) texts)

instance : Serialize Bool where
  toVec flag := some (if flag then Json.trueText else Json.falseText)

instance : Deserialize Bool where
  fromSlice bytes :=
    let text := Json.trim bytes
    if text = Json.trueText then some true
    else if text = Json.falseText then some false
    else none

/-! ## The collections of one contract -/

inductive Collection : Type 1 where
  | map (K V : Type) [SerializeKey K] [Serialize V] [Deserialize V]
  | set (T : Type) [SerializeKey T]

namespace Collection

def Key : Collection → Type
  | map K _ => K
  | set T => T

/-- What is written under a key; a set writes one mark only. -/
def Value : Collection → Type
  | map _ V => V
  | set _ => Unit

/-- What `get` and `contains_key`, or `contains`, answer. -/
def Answer : Collection → Type
  | map _ V => Option V × Bool
  | set _ => Option Bool

def insert : (collection : Collection) → collection.Key → collection.Value → Storage →
    Option Storage
  | map K V => (Map.mk : Map K V).insert
  | set T => fun value _ => (Set.mk : Set T).insert value

def remove : (collection : Collection) → collection.Key → Storage → Option Storage
  | map K V => (Map.mk : Map K V).remove
  | set T => (Set.mk : Set T).remove

def answer : (collection : Collection) → collection.Key → Storage → collection.Answer
  | map K V => fun key storage =>
    ((Map.mk : Map K V).get key storage, (Map.mk : Map K V).containsKey key storage)
  | set T => (Set.mk : Set T).contains

end Collection

end ProtonChain.Sdk
