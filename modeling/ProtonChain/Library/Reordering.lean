import ProtonChain.Library.Runs
import Mathlib.Data.List.FinRange
import Mathlib.Data.List.Perm.Basic
import Mathlib.Data.List.Perm.Subperm

/-! The order in which a run takes its items.

Each item has an effect that its own answer determines. If the effects of
distinct items commute and no selection of the other items changes an answer,
every order gives the same answers and the same final state. The converse
recovers both from the agreement of all orders.
-/

set_option autoImplicit false

namespace Runs

section Reordering
variable {S I R : Type} [DecidableEq I] {step : S → I → R × S} {start : S} {items : List I}
variable {out : I → R} {effect : I → S → S}

/-- The effects of distinct items commute. -/
def Commute (effect : I → S → S) (items : List I) : Prop :=
  ∀ first ∈ items, ∀ second ∈ items, first ≠ second → ∀ state,
    effect first (effect second state) = effect second (effect first state)

/-- No selection of the other items, run in the listed order, changes an answer. -/
def Stable (step : S → I → R × S) (start : S) (items : List I) (out : I → R) : Prop :=
  ∀ selection, selection.Sublist items → ∀ item ∈ items, item ∉ selection →
    (step (run step start selection).2 item).1 = out item

theorem foldl_effect_perm (commute : Commute effect items) {first second : List I}
    (perm : first.Perm second) (within : ∀ item ∈ first, item ∈ items) (state : S) :
    first.foldl (fun state item => effect item state) state =
      second.foldl (fun state item => effect item state) state := by
  refine perm.foldl_eq' ?_ state
  intro left leftIn right rightIn current
  by_cases same : left = right
  · rw [same]
  · exact commute right (within right rightIn) left (within left leftIn) (Ne.symm same) current

/-- Answers and final state of a run over distinct items do not depend on its order. -/
theorem run_eq_effects (commute : Commute effect items) (stable : Stable step start items out)
    (determined : ∀ state, ∀ item ∈ items, (step state item).1 = out item →
      (step state item).2 = effect item state)
    (distinct : items.Nodup) (order : List I) (orderDistinct : order.Nodup)
    (within : ∀ item ∈ order, item ∈ items) :
    run step start order =
      (order.map out, order.foldl (fun state item => effect item state) start) := by
  -- Induction on the length: the prefix of an order and its sorted selection are equally long.
  induction count : order.length generalizing order with
  | zero => rw [List.length_eq_zero_iff.mp count]; rfl
  | succ count' ih =>
    rcases List.eq_nil_or_concat order with empty | ⟨earlier, last, split⟩
    · simp [empty] at count
    subst split
    rw [List.concat_eq_append] at *
    have earlierDistinct : earlier.Nodup := (List.nodup_append.mp orderDistinct).1
    have lastNew : last ∉ earlier := by
      intro member
      exact (List.nodup_append.mp orderDistinct).2.2 last member last (by simp) rfl
    have earlierWithin : ∀ item ∈ earlier, item ∈ items :=
      fun item member => within item (by simp [member])
    have earlierCount : earlier.length = count' := by simpa using count
    have prefixRun := ih earlier earlierDistinct earlierWithin earlierCount
    -- the items taken before the last one, put back into the listed order
    let selection := items.filter (· ∈ earlier)
    have selected : selection.Perm earlier := by
      refine (List.perm_ext_iff_of_nodup (distinct.filter _) earlierDistinct).mpr ?_
      intro item
      simpa [selection] using earlierWithin item
    have selectionRun := ih selection (distinct.filter _)
      (fun item member => (List.mem_filter.mp member).1) (selected.length_eq.trans earlierCount)
    have sameState : (run step start selection).2 = (run step start earlier).2 := by
      rw [selectionRun, prefixRun]
      exact foldl_effect_perm commute selected
        (fun item member => (List.mem_filter.mp member).1) start
    have lastIn : last ∈ items := within last (by simp)
    have answer := stable selection List.filter_sublist last lastIn (by simp [selection, lastNew])
    rw [sameState] at answer
    rw [run_concat, answer, determined _ _ lastIn answer, prefixRun]
    simp

/-- Every order gives each item its answer and reaches the same final state. -/
def OrderFree (step : S → I → R × S) (start : S) (items : List I) (out : I → R) (final : S) :
    Prop :=
  ∀ order, order.Perm items → run step start order = (order.map out, final)

theorem orderFree_of_commute (commute : Commute effect items)
    (stable : Stable step start items out)
    (determined : ∀ state, ∀ item ∈ items, (step state item).1 = out item →
      (step state item).2 = effect item state)
    (distinct : items.Nodup) :
    OrderFree step start items out
      (items.foldl (fun state item => effect item state) start) := by
  intro order perm
  have within : ∀ item ∈ order, item ∈ items := fun item member => perm.mem_iff.mp member
  rw [run_eq_effects commute stable determined distinct order (perm.nodup_iff.mpr distinct) within,
    foldl_effect_perm commute perm within]

omit [DecidableEq I] in
/-- Agreement of all orders fixes the answer an item gives after any selection. -/
theorem OrderFree.answer_after {final : S} (free : OrderFree step start items out final)
    (earlier later : List I) (item : I) (order : (earlier ++ item :: later).Perm items) :
    (step (run step start earlier).2 item).1 = out item := by
  have answers := congrArg Prod.fst (free _ order)
  rw [run_append, run_cons, List.map_append, List.map_cons] at answers
  have split := List.append_inj answers (by simp)
  exact (List.cons.inj split.2).1

theorem OrderFree.stable {final : S} (free : OrderFree step start items out final) :
    Stable step start items out := by
  intro selection sub item member apart
  obtain ⟨rest, parts⟩ := sub.exists_perm_append
  have inRest : item ∈ rest := by
    rcases List.mem_append.mp (parts.mem_iff.mp member) with selected | found
    · exact absurd selected apart
    · exact found
  refine free.answer_after selection (rest.erase item) item ?_
  exact ((List.perm_cons_erase inRest).symm.append_left selection).trans parts.symm

/-- Two items swapped at the end of an order lead to one state. -/
theorem OrderFree.swap {final : S} (free : OrderFree step start items out final)
    {first second : I} (firstIn : first ∈ items) (secondIn : second ∈ items)
    (apart : first ≠ second) :
    ∃ state, (step (step state first).2 second).2 = (step (step state second).2 first).2 ∧
      (step state first).1 = out first ∧ (step (step state first).2 second).1 = out second ∧
      (step state second).1 = out second ∧ (step (step state second).2 first).1 = out first := by
  have secondLeft : second ∈ items.erase first :=
    (List.mem_erase_of_ne (Ne.symm apart)).mpr secondIn
  let rest := (items.erase first).erase second
  have parts : items.Perm (first :: second :: rest) :=
    (List.perm_cons_erase firstIn).trans ((List.perm_cons_erase secondLeft).cons first)
  have turned : (rest ++ [first, second]).Perm ([first, second] ++ rest) := List.perm_append_comm
  have forward : (rest ++ [first, second]).Perm items := turned.trans parts.symm
  have backward : (rest ++ [second, first]).Perm items :=
    ((List.Perm.swap first second []).append_left rest).trans forward
  have finalForward := congrArg Prod.snd (free _ forward)
  have finalBackward := congrArg Prod.snd (free _ backward)
  simp only [run_append, run_cons, run_nil] at finalForward finalBackward
  have firstBefore := free.answer_after rest [second] first forward
  have secondBefore := free.answer_after rest [first] second backward
  have secondAfter := free.answer_after (rest ++ [first]) [] second
    (by simpa using forward)
  have firstAfter := free.answer_after (rest ++ [second]) [] first
    (by simpa using backward)
  simp only [run_append, run_cons, run_nil] at firstAfter secondAfter
  exact ⟨(run step start rest).2, finalForward.trans finalBackward.symm, firstBefore, secondAfter,
    secondBefore, firstAfter⟩

end Reordering

/-! ## Orders of the indices of a list -/

/-- An order in which all indices are taken once. -/
structure Schedule (count : Nat) where
  order : List (Fin count)
  complete : order.Perm (List.finRange count)

namespace Schedule
variable {count : Nat} {R : Type} (schedule : Schedule count)

theorem distinct : schedule.order.Nodup :=
  schedule.complete.nodup_iff.mpr (List.nodup_finRange count)

/-- When the schedule takes an index. -/
def position (index : Fin count) : Fin schedule.order.length :=
  ⟨schedule.order.idxOf index,
    List.idxOf_lt_length_iff.mpr (schedule.complete.mem_iff.mpr (List.mem_finRange index))⟩

theorem get_position (index : Fin count) :
    schedule.order.get (schedule.position index) = index :=
  List.getElem_idxOf (schedule.position index).isLt

theorem position_get (place : Fin schedule.order.length) :
    schedule.position (schedule.order.get place) = place :=
  Fin.ext (schedule.distinct.idxOf_getElem place.val place.isLt)

def collect (answers : List R) (answered : answers.length = schedule.order.length) : List R :=
  (List.finRange count).map fun index =>
    answers.get (Fin.cast answered.symm (schedule.position index))

theorem collect_eq_iff (answers : List R) (answered : answers.length = schedule.order.length)
    (out : Fin count → R) :
    schedule.collect answers answered = (List.finRange count).map out ↔
      answers = schedule.order.map out := by
  rw [collect, List.map_inj_left]
  constructor
  · intro same
    apply List.ext_getElem (by simp [answered])
    intro place bound _
    have bound' : place < schedule.order.length := answered ▸ bound
    have entry := same (schedule.order.get ⟨place, bound'⟩) (List.mem_finRange _)
    rw [schedule.position_get] at entry
    simpa using entry
  · intro same index _
    subst same
    have entry := schedule.get_position index
    simp only [List.get_eq_getElem] at entry
    simp [entry]

end Schedule

end Runs
