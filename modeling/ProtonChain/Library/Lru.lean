import Mathlib.Data.List.Basic
import Mathlib.Data.List.Nodup

/-! Caches of bounded size that displace the least recently used entry.

The entries are a list, the most recently used first. A write puts its entry in
front and cuts the list to the capacity, so what a cache has lost after many
writes is a suffix of the list that no write has cut.
-/

set_option autoImplicit false

namespace Lru

variable {K V : Type} [DecidableEq K]

/-- No key twice. -/
def Distinct (entries : List (K × V)) : Prop := (entries.map Prod.fst).Nodup

theorem lookup_of_mem {entries : List (K × V)} (distinct : Distinct entries) {key : K} {value : V}
    (member : (key, value) ∈ entries) : entries.lookup key = some value := by
  induction entries with
  | nil => cases member
  | cons entry rest ih =>
    obtain ⟨first, held⟩ := entry
    obtain ⟨fresh, distinct⟩ := List.nodup_cons.mp distinct
    rw [List.lookup_cons]
    rcases List.mem_cons.mp member with same | later
    · obtain ⟨rfl, rfl⟩ := Prod.mk.inj same
      simp
    · have apart : key ≠ first := by
        rintro rfl
        exact fresh (List.mem_map.mpr ⟨_, later, rfl⟩)
      rw [beq_false_of_ne apart]
      exact ih distinct later

theorem mem_of_lookup {entries : List (K × V)} {key : K} {value : V}
    (found : entries.lookup key = some value) : (key, value) ∈ entries := by
  obtain ⟨before, after, split, -⟩ := List.lookup_eq_some_iff.mp found
  rw [split]
  exact List.mem_append_right _ List.mem_cons_self

theorem lookup_eq_none {entries : List (K × V)} {key : K} :
    entries.lookup key = none ↔ key ∉ entries.map Prod.fst := by
  rw [List.lookup_eq_none_iff, List.mem_map]
  constructor
  · rintro apart ⟨entry, member, rfl⟩
    exact absurd (apart entry member) (by simp)
  · intro apart entry member
    refine bne_iff_ne.mpr fun same => apart ⟨entry, member, same.symm⟩

/-! ## Reads and writes -/

def others (entries : List (K × V)) (key : K) : List (K × V) :=
  entries.filter fun entry => entry.1 ≠ key

def touch (entries : List (K × V)) (key : K) (value : V) : List (K × V) :=
  (key, value) :: others entries key

def get (entries : List (K × V)) (key : K) : Option V × List (K × V) :=
  match entries.lookup key with
  | some value => (some value, touch entries key value)
  | none => (none, entries)

def put (capacity : Nat) (entries : List (K × V)) (key : K) (value : V) : List (K × V) :=
  (touch entries key value).take capacity

/-- What a write of the key pushes out: at most one entry of a cache that respects its capacity. -/
def displaced (capacity : Nat) (entries : List (K × V)) (key : K) : List (K × V) :=
  (others entries key).drop (capacity - 1)

section Write
variable {entries : List (K × V)}

/-- No entry is in a cache that was not put there. -/
theorem mem_of_mem_put {capacity : Nat} {key : K} {value : V} {entry : K × V}
    (held : entry ∈ put capacity entries key value) : entry = (key, value) ∨ entry ∈ entries := by
  rcases List.mem_cons.mp (List.mem_of_mem_take held) with new | old
  · exact .inl new
  · exact .inr (List.mem_of_mem_filter old)

theorem mem_of_mem_get {key : K} {entry : K × V} (held : entry ∈ (get entries key).2) :
    entry ∈ entries := by
  rw [get] at held
  split at held
  next value found =>
    rcases List.mem_cons.mp held with rfl | old
    · exact mem_of_lookup found
    · exact List.mem_of_mem_filter old
  · exact held

theorem distinct_others (distinct : Distinct entries) (key : K) : Distinct (others entries key) :=
  distinct.sublist (List.filter_sublist.map _)

theorem not_mem_others (key : K) : key ∉ (others entries key).map Prod.fst := by
  simp [others]

theorem distinct_touch (distinct : Distinct entries) (key : K) (value : V) :
    Distinct (touch entries key value) :=
  List.nodup_cons.mpr ⟨not_mem_others key, distinct_others distinct key⟩

theorem distinct_put (capacity : Nat) (distinct : Distinct entries) (key : K) (value : V) :
    Distinct (put capacity entries key value) :=
  (distinct_touch distinct key value).sublist ((List.take_sublist _ _).map _)

theorem lookup_others (entries : List (K × V)) (key other : K) :
    (others entries key).lookup other = if other = key then none else entries.lookup other := by
  unfold others
  induction entries with
  | nil => simp
  | cons entry rest ih =>
    obtain ⟨first, value⟩ := entry
    by_cases own : first = key
    · subst own
      rw [List.filter_cons_of_neg (by simp), ih, List.lookup_cons]
      split
      · rfl
      next other => rw [beq_false_of_ne other]
    · rw [List.filter_cons_of_pos (by simpa using own), List.lookup_cons, List.lookup_cons, ih]
      cases same : other == first with
      | false => rfl
      | true =>
        have other : other ≠ key := by
          rw [beq_iff_eq.mp same]
          exact own
        rw [if_neg other, if_neg other]

theorem lookup_touch (entries : List (K × V)) (key : K) (value : V) (other : K) :
    (touch entries key value).lookup other =
      if other = key then some value else entries.lookup other := by
  rw [touch, List.lookup_cons, lookup_others]
  split
  next same => rw [beq_iff_eq.mp same, if_pos rfl]
  next apart => rw [if_neg (ne_of_beq_false apart), if_neg (ne_of_beq_false apart)]

theorem lookup_take (distinct : Distinct entries) (count : Nat) (key : K) :
    (entries.take count).lookup key =
      if key ∈ (entries.drop count).map Prod.fst then none else entries.lookup key := by
  have whole : entries.lookup key =
      ((entries.take count).lookup key).or ((entries.drop count).lookup key) := by
    rw [← List.lookup_append, List.take_append_drop]
  split
  next cut =>
    rw [lookup_eq_none]
    intro kept
    have halves :
        ((entries.take count).map Prod.fst ++ (entries.drop count).map Prod.fst).Nodup := by
      rw [← List.map_append, List.take_append_drop]
      exact distinct
    exact List.disjoint_of_nodup_append halves kept cut
  next kept => rw [whole, lookup_eq_none.mpr kept, Option.or_none]

/-- What a write does to each key: its own is there, a displaced one is gone, the
others stay. -/
theorem lookup_put {capacity : Nat} (positive : 1 ≤ capacity) (distinct : Distinct entries)
    (key : K) (value : V) (other : K) :
    (put capacity entries key value).lookup other =
      if other = key then some value
      else if other ∈ (displaced capacity entries key).map Prod.fst then none
      else entries.lookup other := by
  have cut : (touch entries key value).drop capacity = displaced capacity entries key := by
    obtain ⟨count, rfl⟩ := Nat.exists_eq_add_of_le' positive
    rfl
  rw [put, lookup_take (distinct_touch distinct key value), cut, lookup_touch]
  by_cases own : other = key
  · subst own
    have kept : other ∉ (displaced capacity entries other).map Prod.fst := fun member =>
      not_mem_others other ((List.drop_sublist _ _).map _ |>.subset member)
    rw [if_neg kept, if_pos rfl, if_pos rfl]
  · rw [if_neg own, if_neg own]

theorem lookup_displaced (distinct : Distinct entries) {capacity : Nat} {key : K}
    {entry : K × V} (member : entry ∈ displaced capacity entries key) :
    entry.1 ≠ key ∧ entries.lookup entry.1 = some entry.2 := by
  have kept := List.mem_of_mem_drop member
  have other := List.mem_filter.mp kept
  exact ⟨of_decide_eq_true other.2, lookup_of_mem distinct other.1⟩

theorem length_others_lt {key : K} {value : V} (found : entries.lookup key = some value) :
    (others entries key).length < entries.length :=
  List.length_filter_lt_length_iff_exists.mpr ⟨_, mem_of_lookup found, by simp⟩

theorem lookup_get (entries : List (K × V)) (key other : K) :
    (get entries key).2.lookup other = entries.lookup other := by
  rw [get]
  split
  next value found =>
    rw [lookup_touch]
    split
    next same => rw [same, found]
    · rfl
  · rfl

end Write

/-! ## Many writes -/

/-- The writes in order, without a bound on the size. -/
def recent (entries : List (K × V)) (writes : List (K × V)) : List (K × V) :=
  writes.foldl (fun entries write => touch entries write.1 write.2) entries

section Writes

/-- Removing one key before or after a cut leaves the same entries, one fewer. -/
theorem take_others_take {entries : List (K × V)} (distinct : Distinct entries) (key : K)
    (count : Nat) :
    (others (entries.take (count + 1)) key).take count = (others entries key).take count := by
  unfold others
  induction entries generalizing count with
  | nil => simp
  | cons entry rest ih =>
    obtain ⟨fresh, distinct⟩ := List.nodup_cons.mp distinct
    rw [List.take_succ_cons]
    by_cases own : entry.1 = key
    · -- the key is not met again
      have clean : ∀ other ∈ rest, other.1 ≠ key := by
        intro other member same
        exact fresh (own.trans same.symm ▸ List.mem_map_of_mem member)
      have whole : rest.filter (fun entry => entry.1 ≠ key) = rest :=
        List.filter_eq_self.mpr fun other member => by simpa using clean other member
      have part : (rest.take count).filter (fun entry => entry.1 ≠ key) = rest.take count :=
        List.filter_eq_self.mpr fun other member => by
          simpa using clean other (List.mem_of_mem_take member)
      rw [List.filter_cons_of_neg (by simpa using own),
        List.filter_cons_of_neg (by simpa using own), whole, part, List.take_take, Nat.min_self]
    · rw [List.filter_cons_of_pos (by simpa using own),
        List.filter_cons_of_pos (by simpa using own)]
      cases count with
      | zero => rfl
      | succ count => rw [List.take_succ_cons, List.take_succ_cons, ih distinct]

theorem put_take {entries : List (K × V)} (distinct : Distinct entries) (capacity : Nat) (key : K)
    (value : V) :
    put capacity (entries.take capacity) key value = (touch entries key value).take capacity := by
  cases capacity with
  | zero => rfl
  | succ count =>
    rw [put, touch, touch, List.take_succ_cons, List.take_succ_cons,
      take_others_take distinct key count]

/-- A cache holds the most recent entries of a list that was never cut. -/
theorem foldl_put {entries : List (K × V)} (distinct : Distinct entries) (capacity : Nat)
    (writes : List (K × V)) :
    writes.foldl (fun entries write => put capacity entries write.1 write.2)
        (entries.take capacity) = (recent entries writes).take capacity := by
  induction writes generalizing entries with
  | nil => rfl
  | cons write rest ih =>
    rw [List.foldl_cons, put_take distinct]
    exact ih (distinct_touch distinct write.1 write.2)

end Writes

/-! ## A cache as a value -/

structure Cache (K V : Type) where
  capacity : Nat
  entries : List (K × V)
  distinct : Distinct entries
  bounded : entries.length ≤ capacity

namespace Cache

def new (K V : Type) (capacity : Nat) : Cache K V := ⟨capacity, [], List.nodup_nil, Nat.zero_le _⟩

def put (cache : Cache K V) (key : K) (value : V) : Cache K V where
  capacity := cache.capacity
  entries := Lru.put cache.capacity cache.entries key value
  distinct := distinct_put _ cache.distinct key value
  bounded := List.length_take_le _ _

/-- A hit is written again, which keeps the size. -/
def get (cache : Cache K V) (key : K) : Option V × Cache K V :=
  match cache.entries.lookup key with
  | some value => (some value, cache.put key value)
  | none => (none, cache)

theorem get_entries (cache : Cache K V) (key : K) :
    (cache.get key).2.entries = (Lru.get cache.entries key).2 := by
  rw [get, Lru.get]
  cases found : cache.entries.lookup key with
  | none => rfl
  | some value =>
    exact List.take_of_length_le (Nat.le_trans (length_others_lt found) cache.bounded)

theorem get_value (cache : Cache K V) (key : K) :
    (cache.get key).1 = cache.entries.lookup key := by
  rw [get]
  split
  next found => exact found.symm
  next missing => exact missing.symm

theorem get_capacity (cache : Cache K V) (key : K) :
    (cache.get key).2.capacity = cache.capacity := by
  rw [get]
  split <;> rfl

end Cache

end Lru
