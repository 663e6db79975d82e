import ProtonChain.Library.FiniteMap
import ProtonChain.Types

/-! Databases: the trait and the one that lives in memory.

A batch is a list of changes, a value to write or a key to delete each. Calls
return the database with their answer.
-/

set_option autoImplicit false

namespace ProtonChain.Storage

/-- A value to write under a key, or `none` to delete it. -/
abbrev Change := Bytes × Option Bytes

class Database (D : Type) where
  get : D → Bytes → Option Bytes
  put : D → Bytes → Bytes → Except String Unit × D
  delete : D → Bytes → Except String Unit × D
  batchWrite : D → List Change → Except String Unit × D

/-- The contents after a batch: each change in order, so the last one of a key stands. -/
def overlay (contents : Bytes → Option Bytes) (batch : List Change) : Bytes → Option Bytes :=
  batch.foldl (fun contents change => Function.update contents change.1 change.2) contents

theorem overlay_append (contents : Bytes → Option Bytes) (first second : List Change) :
    overlay contents (first ++ second) = overlay (overlay contents first) second :=
  List.foldl_append

theorem overlay_concat (contents : Bytes → Option Bytes) (batch : List Change) (key : Bytes)
    (value : Option Bytes) (other : Bytes) :
    overlay contents (batch ++ [(key, value)]) other =
      if other = key then value else overlay contents batch other := by
  rw [overlay_append]
  exact Function.update_apply _ _ _ _

structure MemoryDB where
  data : HashMap Bytes Bytes

namespace MemoryDB

def new : MemoryDB := ⟨∅⟩

/-- The body of the loop over a batch. -/
def change (data : HashMap Bytes Bytes) : Change → HashMap Bytes Bytes
  | (key, some value) => data.insert key value
  | (key, none) => data.erase key

instance : Database MemoryDB where
  get db key := db.data.lookup key
  put db key value := (.ok (), ⟨db.data.insert key value⟩)
  delete db key := (.ok (), ⟨db.data.erase key⟩)
  batchWrite db batch := (.ok (), ⟨batch.foldl change db.data⟩)

theorem lookup_change (data : HashMap Bytes Bytes) (entry : Change) (key : Bytes) :
    (change data entry).lookup key = Function.update data.lookup entry.1 entry.2 key := by
  rw [Function.update_apply]
  obtain ⟨written, value⟩ := entry
  cases value with
  | none => exact FiniteMap.lookup_erase data written key
  | some value => exact FiniteMap.lookup_insert data written key value

theorem get_batchWrite (db : MemoryDB) (batch : List Change) :
    Database.get (Database.batchWrite db batch).2 = overlay (Database.get db) batch := by
  obtain ⟨data⟩ := db
  change (batch.foldl change data).lookup = overlay data.lookup batch
  induction batch generalizing data with
  | nil => rfl
  | cons entry rest ih =>
    rw [List.foldl_cons, ih (change data entry)]
    exact congrArg (overlay · rest) (funext (lookup_change data entry))

end MemoryDB

end ProtonChain.Storage
