import ProtonChain.Library.Checked
import ProtonChain.Library.Transactions

/-! A machine of attempts that does what another one does.

The two answer every input alike, with the same fault where one fails, and related states stay
related. Attempts that are written as checks one after the other are compared check by check.
-/

set_option autoImplicit false

namespace Simulation

section Outcomes
variable {S T F : Type} (rel : S → T → Prop)

/-- Both succeed with related states or fail with one fault. -/
def Alike : Except F S → Except F T → Prop
  | .ok state, .ok mirror => rel state mirror
  | .error fault, .error fault' => fault = fault'
  | _, _ => False

variable {rel}

theorem alike_ok {state : S} {mirror : T} (related : rel state mirror) :
    Alike rel (.ok state : Except F S) (.ok mirror) := related

theorem alike_error (fault : F) : Alike rel (.error fault : Except F S) (.error fault) := rfl

end Outcomes

section Checks
variable {S T E : Type} {rel : S → T → Prop}

theorem alike_ensure {holds holds' : Prop} [Decidable holds] [Decidable holds']
    {fault : Checked.Fault E} {next : Unit → Checked.Outcome E S}
    {next' : Unit → Checked.Outcome E T} (same : holds ↔ holds')
    (alike : holds → Alike rel (next ()) (next' ())) :
    Alike rel (Checked.ensure holds fault >>= next) (Checked.ensure holds' fault >>= next') := by
  by_cases now : holds
  · rw [Checked.ensure, Checked.ensure, if_pos now, if_pos (same.mp now)]
    exact alike now
  · rw [Checked.ensure, Checked.ensure, if_neg now, if_neg fun later => now (same.mpr later)]
    exact alike_error fault

theorem alike_add {w : Nat} {first second : BitVec w} {fits : Prop} [Decidable fits]
    {next : BitVec w → Checked.Outcome E S} {next' : Unit → Checked.Outcome E T}
    (same : first.toNat + second.toNat < 2 ^ w ↔ fits)
    (alike : first.toNat + second.toNat < 2 ^ w →
      Alike rel (next (first + second)) (next' ())) :
    Alike rel (Checked.add first second >>= next)
      (Checked.ensure fits Checked.Fault.overflow >>= next') := by
  by_cases now : first.toNat + second.toNat < 2 ^ w
  · rw [Checked.add, Checked.ensure, if_pos now, if_pos (same.mp now)]
    exact alike now
  · rw [Checked.add, Checked.ensure, if_neg now, if_neg fun later => now (same.mpr later)]
    exact alike_error Checked.Fault.overflow

end Checks

section Runs
variable {S T I F : Type} {attempt : S → I → Except F S} {attempt' : T → I → Except F T}
  {rel : S → T → Prop}

theorem step_alike {state : S} {mirror : T} {input : I} (related : rel state mirror)
    (alike : Alike rel (attempt state input) (attempt' mirror input)) :
    (Transactions.step attempt state input).1 = (Transactions.step attempt' mirror input).1 ∧
      rel (Transactions.step attempt state input).2
        (Transactions.step attempt' mirror input).2 := by
  rw [Transactions.step, Transactions.step]
  cases tried : attempt state input with
  | ok next =>
    cases tried' : attempt' mirror input with
    | ok next' =>
      rw [tried, tried'] at alike
      exact ⟨rfl, alike⟩
    | error fault =>
      rw [tried, tried'] at alike
      exact alike.elim
  | error fault =>
    cases tried' : attempt' mirror input with
    | ok next' =>
      rw [tried, tried'] at alike
      exact alike.elim
    | error fault' =>
      rw [tried, tried'] at alike
      exact ⟨congrArg Except.error alike, related⟩

/-- Machines that do alike in related states give the same answers along every run. -/
theorem run_alike
    (alike : ∀ state mirror input, rel state mirror →
      Alike rel (attempt state input) (attempt' mirror input))
    {start : S} {mirror : T} (related : rel start mirror) (inputs : List I) :
    (Runs.run (Transactions.step attempt) start inputs).1 =
        (Runs.run (Transactions.step attempt') mirror inputs).1 ∧
      rel (Runs.run (Transactions.step attempt) start inputs).2
        (Runs.run (Transactions.step attempt') mirror inputs).2 := by
  induction inputs generalizing start mirror with
  | nil => exact ⟨rfl, related⟩
  | cons input rest ih =>
    obtain ⟨answer, next⟩ := step_alike related (alike start mirror input related)
    obtain ⟨answers, last⟩ := ih next
    rw [Runs.run_cons, Runs.run_cons, answer, answers]
    exact ⟨rfl, last⟩

end Runs

end Simulation
