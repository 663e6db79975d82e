import Mathlib.Data.Finmap
import Mathlib.Algebra.BigOperators.Group.Finset.Basic
import Mathlib.Algebra.Order.BigOperators.Group.Multiset

/-! Weighted totals of finite maps.

A total adds one natural number for each entry. The laws account for a write or
a removal by the weight the key carried before it, so a ledger proof never
inspects the entries themselves.
-/

set_option autoImplicit false

namespace FiniteMap

variable {K V : Type} [DecidableEq K]

/-- Every finite map is built by inserting fresh keys. -/
theorem insert_induction {motive : (Finmap fun _ : K => V) → Prop} (empty : motive ∅)
    (insert : ∀ map key value, key ∉ map → motive map → motive (map.insert key value))
    (map : Finmap fun _ : K => V) : motive map := by
  induction map using Finmap.induction_on with
  | H list =>
    induction list using AList.insertRec with
    | H0 => exact empty
    | IH key value rest missing ih =>
      rw [← Finmap.insert_toFinmap]
      exact insert _ key value (by simpa using missing) ih

/-! ## One write or removal -/

theorem lookup_insert (map : Finmap fun _ : K => V) (key other : K) (value : V) :
    (map.insert key value).lookup other = if other = key then some value else map.lookup other := by
  by_cases same : other = key
  · subst same; simp
  · simp [same]

theorem mem_insert_of_ne {map : Finmap fun _ : K => V} {key other : K} (value : V)
    (apart : other ≠ key) : other ∈ map.insert key value ↔ other ∈ map := by
  rw [Finmap.mem_insert]
  exact or_iff_right apart

theorem mem_insert_of_mem {map : Finmap fun _ : K => V} {key : K} (value : V)
    (present : key ∈ map) (other : K) : other ∈ map.insert key value ↔ other ∈ map := by
  rw [Finmap.mem_insert]
  constructor
  · rintro (rfl | member)
    · exact present
    · exact member
  · exact .inr

theorem lookup_insert_two (first second other : K) (value value' : V) :
    (((∅ : Finmap fun _ : K => V).insert first value).insert second value').lookup other =
      if other = second then some value' else if other = first then some value else none := by
  rw [lookup_insert, lookup_insert, Finmap.lookup_empty]

theorem lookup_erase (map : Finmap fun _ : K => V) (key other : K) :
    (map.erase key).lookup other = if other = key then none else map.lookup other := by
  by_cases same : other = key
  · subst same; simp
  · simp [same]

theorem forall_lookup_insert {P : K → V → Prop} {map : Finmap fun _ : K => V} {key : K} {value : V}
    (own : P key value) (others : ∀ other value, map.lookup other = some value → P other value) :
    ∀ other value', (map.insert key value).lookup other = some value' → P other value' := by
  intro other value' found
  rw [lookup_insert] at found
  split at found
  next same =>
    subst same
    obtain rfl := Option.some.inj found
    exact own
  next => exact others other value' found

theorem forall_lookup_erase {P : K → V → Prop} {map : Finmap fun _ : K => V} (key : K)
    (all : ∀ other value, map.lookup other = some value → P other value) :
    ∀ other value, (map.erase key).lookup other = some value → P other value := by
  intro other value found
  rw [lookup_erase] at found
  split at found
  · cases found
  · exact all other value found

/-! ## Listings -/

/-- The entries of the map, each once, in some order: what an iterator yields. -/
structure Listing (map : Finmap fun _ : K => V) (order : List (K × V)) : Prop where
  distinct : (order.map Prod.fst).Nodup
  listed : ∀ key value, (key, value) ∈ order ↔ map.lookup key = some value

theorem Listing.mem_keys {map : Finmap fun _ : K => V} {order : List (K × V)}
    (listing : Listing map order) (key : K) : key ∈ order.map Prod.fst ↔ key ∈ map := by
  rw [List.mem_map]
  constructor
  · intro ⟨entry, member, same⟩
    obtain rfl := same
    exact Finmap.mem_of_lookup_eq_some ((listing.listed entry.1 entry.2).mp member)
  · intro present
    obtain ⟨value, found⟩ := Finmap.mem_iff.mp present
    exact ⟨(key, value), (listing.listed key value).mpr found, rfl⟩

theorem Listing.length_eq {map : Finmap fun _ : K => V} {order : List (K × V)}
    (listing : Listing map order) : order.length = map.keys.card := by
  have same : (order.map Prod.fst).toFinset = map.keys := by
    ext key
    rw [List.mem_toFinset, listing.mem_keys, Finmap.mem_keys]
  rw [← same, List.toFinset_card_of_nodup listing.distinct, List.length_map]

theorem Listing.of_perm {map : Finmap fun _ : K => V} {order other : List (K × V)}
    (listing : Listing map order) (perm : other.Perm order) : Listing map other where
  distinct := (perm.map Prod.fst).nodup_iff.mpr listing.distinct
  listed key value := perm.mem_iff.trans (listing.listed key value)

theorem Listing.reverse {map : Finmap fun _ : K => V} {order : List (K × V)}
    (listing : Listing map order) : Listing map order.reverse :=
  listing.of_perm order.reverse_perm

theorem Listing.perm {map : Finmap fun _ : K => V} {order other : List (K × V)}
    (listing : Listing map order) (again : Listing map other) : order.Perm other :=
  (List.perm_ext_iff_of_nodup listing.distinct.of_map again.distinct.of_map).mpr
    fun entry => (listing.listed entry.1 entry.2).trans (again.listed entry.1 entry.2).symm

/-- At most one entry is met in one order only. -/
theorem Listing.eq_of_card_le {map : Finmap fun _ : K => V} {order other : List (K × V)}
    (listing : Listing map order) (again : Listing map other) (few : map.keys.card ≤ 1) :
    order = other := by
  have perm := listing.perm again
  rw [← listing.length_eq] at few
  match order, few, perm with
  | [], _, perm => exact perm.nil_eq
  | [_], _, perm => exact List.singleton_perm.mp perm

theorem Listing.insert {map : Finmap fun _ : K => V} {order : List (K × V)}
    (listing : Listing map order) {key : K} (value : V) (missing : key ∉ map) :
    Listing (map.insert key value) ((key, value) :: order) where
  distinct := List.nodup_cons.mpr ⟨mt (listing.mem_keys key).mp missing, listing.distinct⟩
  listed other found := by
    rw [List.mem_cons, listing.listed, lookup_insert, Prod.mk.injEq]
    by_cases same : other = key
    · subst same
      rw [if_pos rfl, Finmap.lookup_eq_none.mpr missing]
      simp [eq_comm]
    · simp [same]

theorem listing_empty : Listing (∅ : Finmap fun _ : K => V) [] where
  distinct := List.nodup_nil
  listed key value := by simp

theorem listing_exists (map : Finmap fun _ : K => V) : ∃ order, Listing map order := by
  induction map using insert_induction with
  | empty => exact ⟨[], listing_empty⟩
  | insert map key value missing ih =>
    obtain ⟨order, listing⟩ := ih
    exact ⟨(key, value) :: order, listing.insert value missing⟩

/-! ## Totals -/

theorem sum_change {keys : Finset K} {before after : K → Nat} {key : K} (member : key ∈ keys)
    (others : ∀ other ∈ keys, other ≠ key → after other = before other) :
    (∑ other ∈ keys, after other) + before key = (∑ other ∈ keys, before other) + after key := by
  have split (weight : K → Nat) : ∑ other ∈ keys, weight other =
      weight key + ∑ other ∈ keys.erase key, weight other :=
    (Finset.add_sum_erase keys weight member).symm
  have rest : ∑ other ∈ keys.erase key, after other = ∑ other ∈ keys.erase key, before other :=
    Finset.sum_congr rfl fun other listed =>
      others other (Finset.mem_of_mem_erase listed) (Finset.ne_of_mem_erase listed)
  rw [split after, split before, rest]
  omega

section Totals

def total (weight : V → Nat) (map : Finmap fun _ : K => V) : Nat :=
  (map.entries.map fun entry => weight entry.2).sum

/-- The weight stored under one key; a missing key weighs nothing. -/
def weightAt (weight : V → Nat) (map : Finmap fun _ : K => V) (key : K) : Nat :=
  (map.lookup key).elim 0 weight

variable (weight : V → Nat) (map : Finmap fun _ : K => V) (key : K) (value : V)

theorem weightAt_of_lookup {key : K} {value : V} (found : map.lookup key = some value) :
    weightAt weight map key = weight value := by
  simp [weightAt, found]

theorem weightAt_of_missing {key : K} (missing : map.lookup key = none) :
    weightAt weight map key = 0 := by
  simp [weightAt, missing]

theorem weightAt_getD (fallback : V) (weightless : weight fallback = 0) :
    weightAt weight map key = weight ((map.lookup key).getD fallback) := by
  cases found : map.lookup key with
  | none => simp [weightAt, found, weightless]
  | some value => simp [weightAt, found]

theorem erase_of_notMem {key : K} (missing : key ∉ map) : map.erase key = map := by
  apply Finmap.ext_lookup
  intro other
  by_cases same : other = key
  · subst same
    rw [Finmap.lookup_erase, Finmap.lookup_eq_none.mpr missing]
  · rw [Finmap.lookup_erase_ne same]

theorem insert_erase_self : (map.erase key).insert key value = map.insert key value := by
  apply Finmap.ext_lookup
  intro other
  by_cases same : other = key
  · subst same; simp
  · simp [same]

theorem insert_lookup {key : K} {value : V} (found : map.lookup key = some value) :
    map.insert key value = map := by
  apply Finmap.ext_lookup
  intro other
  by_cases same : other = key
  · subst same; simp [found]
  · simp [same]

theorem insert_eq_self_iff : map.insert key value = map ↔ map.lookup key = some value := by
  constructor
  · intro same
    rw [← same, Finmap.lookup_insert]
  · exact insert_lookup map

section Keyed

def keyedTotal (weight : K → V → Nat) (map : Finmap fun _ : K => V) : Nat :=
  (map.entries.map fun entry => weight entry.1 entry.2).sum

variable (weight : K → V → Nat)

theorem keyedTotal_insert_of_notMem {key : K} (missing : key ∉ map) :
    keyedTotal weight (map.insert key value) = weight key value + keyedTotal weight map := by
  rw [keyedTotal, Finmap.entries_insert_of_notMem missing, Multiset.map_cons, Multiset.sum_cons]
  rfl

theorem keyedTotal_erase :
    keyedTotal weight (map.erase key) + weightAt (weight key) map key =
      keyedTotal weight map := by
  cases found : map.lookup key with
  | none =>
    rw [erase_of_notMem map (Finmap.lookup_eq_none.mp found), weightAt_of_missing _ map found]
    rfl
  | some value =>
    -- the map is its own erasure with the entry written back as a fresh one
    have restored : (map.erase key).insert key value = map :=
      (insert_erase_self map key value).trans (insert_lookup map found)
    have split := keyedTotal_insert_of_notMem (map.erase key) value weight
      (Finmap.notMem_erase_self (a := key))
    rw [restored] at split
    rw [weightAt_of_lookup _ map found]
    omega

theorem keyedTotal_insert :
    keyedTotal weight (map.insert key value) + weightAt (weight key) map key =
      keyedTotal weight map + weight key value := by
  have split := keyedTotal_insert_of_notMem (map.erase key) value weight
    (Finmap.notMem_erase_self (a := key))
  rw [insert_erase_self] at split
  have erased := keyedTotal_erase map key weight
  omega

theorem weightAt_le_keyedTotal : weightAt (weight key) map key ≤ keyedTotal weight map :=
  (Nat.le_add_left _ _).trans_eq (keyedTotal_erase map key weight)

end Keyed

theorem total_insert_of_notMem {key : K} (missing : key ∉ map) :
    total weight (map.insert key value) = weight value + total weight map :=
  keyedTotal_insert_of_notMem map value (fun _ => weight) missing

theorem total_erase :
    total weight (map.erase key) + weightAt weight map key = total weight map :=
  keyedTotal_erase map key fun _ => weight

theorem total_insert :
    total weight (map.insert key value) + weightAt weight map key =
      total weight map + weight value :=
  keyedTotal_insert map key value fun _ => weight

theorem keys_insert : (map.insert key value).keys = insert key map.keys := by
  ext other
  simp [Finmap.mem_keys]

theorem card_keys_insert :
    (map.insert key value).keys.card = map.keys.card + if key ∈ map then 0 else 1 := by
  rw [keys_insert]
  split
  next present => rw [Finset.insert_eq_of_mem (Finmap.mem_keys.mpr present), Nat.add_zero]
  next missing => rw [Finset.card_insert_of_notMem (mt Finmap.mem_keys.mp missing)]

theorem total_eq_sum_keys : total weight map = ∑ key ∈ map.keys, weightAt weight map key := by
  induction map using insert_induction with
  | empty => rfl
  | insert map key value missing ih =>
    have fresh : key ∉ map.keys := fun member => missing (Finmap.mem_keys.mp member)
    rw [total_insert_of_notMem weight map value missing, keys_insert, Finset.sum_insert fresh, ih]
    congr 1
    · simp [weightAt]
    · refine Finset.sum_congr rfl fun other member => ?_
      have apart : other ≠ key := fun same => fresh (same ▸ member)
      rw [weightAt, weightAt, Finmap.lookup_insert_of_ne _ apart]

end Totals

/-! ## Applying a map of changes -/

section Changes
variable {C : Type} (apply : C → V → V) (fallback : V)

/-- Change the value under one key; a missing key is read as the fallback. -/
def changeAt (map : Finmap fun _ : K => V) (key : K) (change : C) : Finmap fun _ : K => V :=
  map.insert key (apply change ((map.lookup key).getD fallback))

variable (comm : ∀ first second value, apply first (apply second value) =
  apply second (apply first value))

include comm in
theorem changeAt_comm (map : Finmap fun _ : K => V) (key : K) (change : C) (key' : K)
    (change' : C) :
    changeAt apply fallback (changeAt apply fallback map key change) key' change' =
      changeAt apply fallback (changeAt apply fallback map key' change') key change := by
  by_cases same : key = key'
  · subst same
    simp [changeAt, comm change change']
  · simp only [changeAt, Finmap.lookup_insert_of_ne _ same,
      Finmap.lookup_insert_of_ne _ (Ne.symm same)]
    exact Finmap.insert_insert_of_ne _ same

/-- Apply every entry of a change map. The iteration order is immaterial, which
the fold over an unordered map requires as a proof. -/
def changeAll (changes : Finmap fun _ : K => C) (map : Finmap fun _ : K => V) :
    Finmap fun _ : K => V :=
  changes.foldl (changeAt apply fallback) (changeAt_comm apply fallback comm) map

theorem changeAll_insert_of_notMem (changes : Finmap fun _ : K => C)
    (map : Finmap fun _ : K => V) {key : K} (change : C) (missing : key ∉ changes) :
    changeAll apply fallback comm (changes.insert key change) map =
      changeAll apply fallback comm changes (changeAt apply fallback map key change) := by
  simp only [changeAll, Finmap.foldl, Finmap.entries_insert_of_notMem missing,
    Multiset.foldl_cons]

/-- What one application does: listed keys are changed once, the others kept. -/
theorem lookup_changeAll (changes : Finmap fun _ : K => C) (map : Finmap fun _ : K => V)
    (key : K) :
    (changeAll apply fallback comm changes map).lookup key =
      (changes.lookup key).elim (map.lookup key)
        fun change => some (apply change ((map.lookup key).getD fallback)) := by
  induction changes using insert_induction generalizing map with
  | empty => rfl
  | insert changes listed change missing ih =>
    -- the fresh key is changed first, and no later change meets it again
    rw [changeAll_insert_of_notMem apply fallback comm _ _ _ missing, ih]
    by_cases same : key = listed
    · subst same
      simp [Finmap.lookup_eq_none.mpr missing, changeAt]
    · simp [same, changeAt]

theorem changeAll_comm (first second : Finmap fun _ : K => C) (map : Finmap fun _ : K => V) :
    changeAll apply fallback comm first (changeAll apply fallback comm second map) =
      changeAll apply fallback comm second (changeAll apply fallback comm first map) := by
  apply Finmap.ext_lookup
  intro key
  simp only [lookup_changeAll]
  cases first.lookup key with
  | none => cases second.lookup key <;> rfl
  | some change =>
    cases second.lookup key with
    | none => rfl
    | some change' => simp [comm change change']

end Changes

end FiniteMap
