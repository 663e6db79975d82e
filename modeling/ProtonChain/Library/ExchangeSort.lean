import Mathlib.Data.List.FinRange
import Mathlib.Logic.Equiv.Basic
import Mathlib.Order.Monotone.Defs

/-! Sorting by exchanges, the largest key first.

Every place is compared with all places after it and takes over what has a larger key. An
array is a function of its places, so that an exchange is a transposition of the places and
several arrays that are exchanged alike stay paired.
-/

set_option autoImplicit false

namespace ExchangeSort

variable {n : Nat} {A K : Type} [LinearOrder K] (key : A → K)

/-- The larger of two items comes to the first of two places. -/
def compare (first : Fin n) (items : Fin n → A) (second : Fin n) : Fin n → A :=
  if key (items first) < key (items second) then items ∘ Equiv.swap first second else items

/-- One place against all places after it. -/
def pass (items : Fin n → A) (first : Fin n) : Fin n → A :=
  ((List.finRange n).filter (first < ·)).foldl (compare key first) items

def sort (items : Fin n → A) : Fin n → A := (List.finRange n).foldl (pass key) items

/-! ## The items stay -/

theorem compare_perm (first second : Fin n) (items : Fin n → A) :
    ∃ places : Equiv.Perm (Fin n), compare key first items second = items ∘ places := by
  rw [compare]
  split
  · exact ⟨Equiv.swap first second, rfl⟩
  · exact ⟨Equiv.refl _, rfl⟩

/-- A fold of rearrangements is one. -/
theorem foldl_perm {step : (Fin n → A) → Fin n → Fin n → A}
    (rearranges : ∀ items place, ∃ places : Equiv.Perm (Fin n), step items place = items ∘ places)
    (order : List (Fin n)) (items : Fin n → A) :
    ∃ places : Equiv.Perm (Fin n), order.foldl step items = items ∘ places := by
  induction order generalizing items with
  | nil => exact ⟨Equiv.refl _, rfl⟩
  | cons place order ih =>
    obtain ⟨places, now⟩ := rearranges items place
    obtain ⟨places', later⟩ := ih (step items place)
    refine ⟨places'.trans places, ?_⟩
    rw [List.foldl_cons, later, now]
    rfl

theorem pass_perm (items : Fin n → A) (first : Fin n) :
    ∃ places : Equiv.Perm (Fin n), pass key items first = items ∘ places := by
  apply foldl_perm
  intro items second
  exact compare_perm key first second items

theorem sort_perm (items : Fin n → A) :
    ∃ places : Equiv.Perm (Fin n), sort key items = items ∘ places := by
  apply foldl_perm
  exact pass_perm key

/-! ## The order -/

/-- No place after this one has a larger key. -/
def Leads (items : Fin n → A) (place : Fin n) : Prop :=
  ∀ later, place < later → key (items later) ≤ key (items place)

section Compare
variable {key} {items : Fin n → A} {first second : Fin n}

theorem compare_below {place : Fin n} (apart : place ≠ first)
    (below : key (items place) ≤ key (items first)) :
    key (compare key first items second place) ≤ key (compare key first items second first) := by
  rw [compare]
  split
  next smaller =>
    rw [Function.comp_apply, Function.comp_apply, Equiv.swap_apply_left]
    by_cases own : place = second
    · rw [own, Equiv.swap_apply_right]
      exact smaller.le
    · rw [Equiv.swap_apply_of_ne_of_ne apart own]
      exact below.trans smaller.le
  · exact below

theorem compare_settles :
    key (compare key first items second second) ≤ key (compare key first items second first) := by
  rw [compare]
  split
  next smaller =>
    rw [Function.comp_apply, Function.comp_apply, Equiv.swap_apply_left, Equiv.swap_apply_right]
    exact smaller.le
  next within => exact le_of_not_gt within

theorem compare_leads (later : first < second) {place : Fin n} (before : place < first)
    (leads : Leads key items place) : Leads key (compare key first items second) place := by
  rw [compare]
  split
  · intro other after
    rw [Function.comp_apply, Function.comp_apply,
      Equiv.swap_apply_of_ne_of_ne before.ne (before.trans later).ne]
    apply leads
    rw [Equiv.swap_apply_def]
    split
    · exact before.trans later
    · split
      · exact before
      · exact after
  · exact leads

end Compare

section Pass
variable {key} {items : Fin n → A} {first : Fin n}

theorem foldl_compare_keeps (inv : (Fin n → A) → Prop)
    (keep : ∀ items second, first < second → inv items → inv (compare key first items second))
    {order : List (Fin n)} (after : ∀ second ∈ order, first < second) (start : inv items) :
    inv (order.foldl (compare key first) items) := by
  induction order generalizing items with
  | nil => exact start
  | cons second order ih =>
    apply ih fun other member => after other (List.mem_cons_of_mem _ member)
    exact keep items second (after second List.mem_cons_self) start

theorem foldl_compare_below {order : List (Fin n)} (after : ∀ second ∈ order, first < second)
    {place : Fin n} (member : place ∈ order) :
    key (order.foldl (compare key first) items place) ≤
      key (order.foldl (compare key first) items first) := by
  induction order generalizing items with
  | nil => nomatch member
  | cons second order ih =>
    have rest : ∀ other ∈ order, first < other :=
      fun other member => after other (List.mem_cons_of_mem _ member)
    rcases List.mem_cons.mp member with rfl | member
    · -- met now, and kept below from here on
      rw [List.foldl_cons]
      exact foldl_compare_keeps (fun items => key (items place) ≤ key (items first))
        (fun items second _ => compare_below (after place List.mem_cons_self).ne') rest
        compare_settles
    · exact ih rest member

theorem mem_later {place : Fin n} :
    place ∈ (List.finRange n).filter (first < ·) ↔ first < place := by
  rw [List.mem_filter]
  simp

theorem pass_leads : Leads key (pass key items first) first :=
  fun _ later => foldl_compare_below (fun _ => mem_later.mp) (mem_later.mpr later)

theorem pass_keeps_leads {place : Fin n} (before : place < first) (leads : Leads key items place) :
    Leads key (pass key items first) place :=
  foldl_compare_keeps (Leads key · place) (fun _ _ later => compare_leads later before)
    (fun _ => mem_later.mp) leads

/-- Passes over places in their order let all of them lead. -/
theorem foldl_pass_leads {order : List (Fin n)} (ordered : order.Pairwise (· < ·))
    {place : Fin n} (settled : place ∈ order ∨
      Leads key items place ∧ ∀ first ∈ order, place < first) :
    Leads key (order.foldl (pass key) items) place := by
  induction order generalizing items with
  | nil =>
    rcases settled with member | ⟨leads, -⟩
    · nomatch member
    · exact leads
  | cons first order ih =>
    obtain ⟨before, ordered⟩ := List.pairwise_cons.mp ordered
    apply ih ordered
    rcases settled with member | ⟨leads, ahead⟩
    · rcases List.mem_cons.mp member with rfl | member
      · exact .inr ⟨pass_leads, before⟩
      · exact .inl member
    · have now := ahead first List.mem_cons_self
      exact .inr ⟨pass_keeps_leads now leads, fun other member =>
        ahead other (List.mem_cons_of_mem _ member)⟩

end Pass

/-- The keys do not grow along the places. -/
theorem sort_antitone (items : Fin n → A) : Antitone fun place => key (sort key items place) := by
  intro place place' within
  rcases within.eq_or_lt with rfl | later
  · exact le_rfl
  · exact foldl_pass_leads (List.pairwise_lt_finRange n) (.inl (List.mem_finRange place)) place'
      later

end ExchangeSort
