import Mathlib.Algebra.GroupWithZero.Nat
import Mathlib.Data.List.Basic
import Mathlib.Data.List.Nodup

/-! Ranked lists.

Items are grouped under the keys of a list, in their own order inside a group.
Where the keys descend, so do the items, and the arrival order breaks the ties.
-/

set_option autoImplicit false

namespace Ranking

variable {A K : Type}

/-- On a list that satisfies a test up to some point only, the prefix that passes
is all that passes. -/
theorem takeWhile_eq_filter (test : A → Bool) (items : List A)
    (down : items.Pairwise fun first second => test second = true → test first = true) :
    items.takeWhile test = items.filter test := by
  induction items with
  | nil => rfl
  | cons item rest ih =>
    obtain ⟨later, down⟩ := List.pairwise_cons.mp down
    cases passes : test item
    · have none : rest.filter test = [] := by
        refine List.filter_eq_nil_iff.mpr fun other member passing => ?_
        exact Bool.false_ne_true (passes.symm.trans (later other member passing))
      rw [List.takeWhile_cons_of_neg (by simp [passes]), List.filter_cons_of_neg (by simp [passes]),
        none]
    · rw [List.takeWhile_cons_of_pos passes, List.filter_cons_of_pos passes, ih down]

/-- A relation with a direction decides a property of ordered pairs from the members alone. -/
theorem pairwise_iff {before property : A → A → Prop} {items : List A}
    (asymm : ∀ first second, before first second → ¬ before second first)
    (ordered : items.Pairwise before) :
    items.Pairwise property ↔
      ∀ first ∈ items, ∀ second ∈ items, before first second → property first second := by
  induction items with
  | nil => simp
  | cons item rest ih =>
    obtain ⟨first, ordered⟩ := List.pairwise_cons.mp ordered
    rw [List.pairwise_cons, ih ordered]
    constructor
    · rintro ⟨head, tail⟩ left inLeft right inRight ahead
      rcases List.mem_cons.mp inLeft with rfl | leftRest
      · rcases List.mem_cons.mp inRight with rfl | rightRest
        · exact absurd ahead (asymm _ _ ahead)
        · exact head right rightRest
      · rcases List.mem_cons.mp inRight with rfl | rightRest
        · exact absurd ahead (asymm _ _ (first left leftRest))
        · exact tail left leftRest right rightRest ahead
    · intro all
      refine ⟨fun other member => ?_, fun left inLeft right inRight => ?_⟩
      · exact all item List.mem_cons_self other (List.mem_cons_of_mem _ member) (first other member)
      · exact all left (List.mem_cons_of_mem _ inLeft) right (List.mem_cons_of_mem _ inRight)

section Groups
variable [DecidableEq K] (key : A → K)

/-- The items group by group, in the order of the keys. -/
def byKey (keys : List K) (items : List A) : List A :=
  keys.flatMap fun k => items.filter fun item => key item = k

theorem byKey_cons (k : K) (keys : List K) (items : List A) :
    byKey key (k :: keys) items =
      (items.filter fun item => key item = k) ++ byKey key keys items := List.flatMap_cons

theorem byKey_perm {keys : List K} (distinct : keys.Nodup) (items : List A) :
    (byKey key keys items).Perm (items.filter fun item => key item ∈ keys) := by
  induction keys with
  | nil => simp [byKey]
  | cons k keys ih =>
    obtain ⟨fresh, distinct⟩ := List.nodup_cons.mp distinct
    have split := List.filter_append_perm (fun item => decide (key item = k))
      (items.filter fun item => decide (key item ∈ k :: keys))
    rw [List.filter_filter, List.filter_filter] at split
    -- the listed items are those under the first key and those under the others
    have head : (items.filter fun item => decide (key item = k) && decide (key item ∈ k :: keys)) =
        items.filter fun item => decide (key item = k) := by
      refine List.filter_congr fun item _ => ?_
      by_cases same : key item = k <;> simp [same]
    have tail : (items.filter fun item => !decide (key item = k) &&
        decide (key item ∈ k :: keys)) = items.filter fun item => decide (key item ∈ keys) := by
      refine List.filter_congr fun item _ => ?_
      by_cases same : key item = k
      · simp [same, fresh]
      · simp [same]
    rw [head, tail] at split
    rw [byKey_cons]
    exact ((ih distinct).append_left _).trans split

theorem byKey_pairwise {order : A → A → Prop} {before : K → K → Prop} {keys : List K}
    {items : List A} (ordered : keys.Pairwise before)
    (across : ∀ first ∈ items, ∀ second ∈ items, before (key first) (key second) →
      order first second)
    (within : items.Pairwise fun first second => key first = key second → order first second) :
    (byKey key keys items).Pairwise order := by
  rw [byKey, List.pairwise_flatMap]
  constructor
  · intro k _
    refine (within.filter _).imp_of_mem fun first second tied => ?_
    exact tied ((of_decide_eq_true (List.mem_filter.mp first).2).trans
      (of_decide_eq_true (List.mem_filter.mp second).2).symm)
  · refine ordered.imp fun {k l} ahead first inFirst second inSecond => ?_
    obtain ⟨inFirst, firstKey⟩ := List.mem_filter.mp inFirst
    obtain ⟨inSecond, secondKey⟩ := List.mem_filter.mp inSecond
    refine across first inFirst second inSecond ?_
    rw [of_decide_eq_true firstKey, of_decide_eq_true secondKey]
    exact ahead

theorem mem_byKey {keys : List K} {items : List A} {item : A} :
    item ∈ byKey key keys items ↔ item ∈ items ∧ key item ∈ keys := by
  simp only [byKey, List.mem_flatMap, List.mem_filter, decide_eq_true_eq]
  constructor
  · intro ⟨k, listed, member, same⟩
    exact ⟨member, same ▸ listed⟩
  · intro ⟨member, listed⟩
    exact ⟨key item, listed, member, rfl⟩

theorem length_byKey (keys : List K) (items : List A) :
    (byKey key keys items).length =
      (keys.map fun k => (items.filter fun item => key item = k).length).sum := by
  induction keys with
  | nil => rfl
  | cons k keys ih => rw [byKey_cons, List.length_append, ih, List.map_cons, List.sum_cons]

/-- Groups that are empty may be left out. -/
theorem flatMap_filter {A B : Type} (keep : A → Bool) (f : A → List B) (items : List A)
    (empty : ∀ item ∈ items, keep item = false → f item = []) :
    (items.filter keep).flatMap f = items.flatMap f := by
  induction items with
  | nil => rfl
  | cons item rest ih =>
    have later := ih fun other member => empty other (List.mem_cons_of_mem _ member)
    cases kept : keep item with
    | true => rw [List.filter_cons_of_pos kept, List.flatMap_cons, List.flatMap_cons, later]
    | false =>
      have dropped : ¬ keep item = true := by simp [kept]
      rw [List.filter_cons_of_neg dropped, List.flatMap_cons, later,
        empty item List.mem_cons_self kept, List.nil_append]

/-- Inside its group an item keeps its place. -/
theorem byKey_filter {keys : List K} (distinct : keys.Nodup) (items : List A) (k : K) :
    ((byKey key keys items).filter fun item => key item = k) =
      if k ∈ keys then items.filter fun item => key item = k else [] := by
  induction keys with
  | nil => rfl
  | cons first keys ih =>
    have fresh := (List.nodup_cons.mp distinct).1
    rw [byKey_cons, List.filter_append, ih (List.nodup_cons.mp distinct).2, List.filter_filter]
    by_cases same : k = first
    · subst same
      simp [fresh]
    · have none : (items.filter fun item =>
          decide (key item = k) && decide (key item = first)) = [] := by
        apply List.filter_eq_nil_iff.mpr
        intro item _ both
        simp only [Bool.and_eq_true, decide_eq_true_eq] at both
        exact same (both.1.symm.trans both.2)
      simp [none, same]

end Groups

/-! ## Ranking with arrival numbers -/

section Arrivals
variable (key : A → K) (before : K → K → Prop)

/-- A key that comes before, or the same key and an earlier arrival. -/
def Ahead (first second : A × Nat) : Prop :=
  before (key first.1) (key second.1) ∨ key first.1 = key second.1 ∧ first.2 < second.2

theorem Ahead.asymm (keys_asymm : ∀ k l, before k l → ¬ before l k) (first second : A × Nat)
    (ahead : Ahead key before first second) : ¬ Ahead key before second first := by
  rintro (back | ⟨same, later⟩)
  · rcases ahead with higher | ⟨same, _⟩
    · exact keys_asymm _ _ higher back
    · rw [same] at back
      exact keys_asymm _ _ back back
  · rcases ahead with higher | ⟨_, earlier⟩
    · rw [same] at higher
      exact keys_asymm _ _ higher higher
    · omega

theorem zipIdx_pairwise (items : List A) :
    items.zipIdx.Pairwise fun first second => first.2 < second.2 := by
  have numbers : (items.zipIdx.map Prod.snd).Pairwise (· < ·) := by
    rw [List.zipIdx_map_snd]
    exact List.pairwise_lt_range'
  exact List.pairwise_map.mp numbers

variable [DecidableEq K]

/-- Grouping under ordered keys ranks the arrivals. -/
theorem byKey_ahead {keys : List K} (ordered : keys.Pairwise before) (items : List A) :
    (byKey (fun entry => key entry.1) keys items.zipIdx).Pairwise (Ahead key before) :=
  byKey_pairwise _ ordered (fun _ _ _ _ higher => .inl higher)
    ((zipIdx_pairwise items).imp fun earlier same => .inr ⟨same, earlier⟩)

theorem byKey_forget (keys : List K) (items : List A) :
    (byKey (fun entry => key entry.1) keys items.zipIdx).map Prod.fst = byKey key keys items := by
  unfold byKey
  rw [List.map_flatMap]
  congr 1
  funext k
  have forgotten : items = items.zipIdx.map Prod.fst := (List.zipIdx_map_fst 0 items).symm
  conv_rhs => rw [forgotten, List.filter_map]
  rfl

end Arrivals

end Ranking
