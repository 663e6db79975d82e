import ProtonChain.Contracts.Dex

/-! The reserves of a pair against the deposits made for it.

The host is told to move the tokens in the order of the caller, and the reserves are of
the sorted tokens. The two agree for a caller who names the tokens in order, or gives as
much of one as of the other.
-/

set_option autoImplicit false

namespace ProtonChain.Contracts.ProtonDEX

open Checked

/-- What was transferred in of a token for a pair. -/
def received (deposits : List Deposit) (pairKey : Address × Address) (token : Address) : Nat :=
  (deposits.map fun deposit =>
    if deposit.pairKey = pairKey ∧ deposit.token = token then deposit.amount.toNat else 0).sum

theorem received_cons (deposit : Deposit) (deposits : List Deposit)
    (pairKey : Address × Address) (token : Address) :
    received (deposit :: deposits) pairKey token =
      (if deposit.pairKey = pairKey ∧ deposit.token = token then deposit.amount.toNat else 0) +
        received deposits pairKey token := by
  simp [received]

theorem received_of_absent {deposits : List Deposit} {pairKey : Address × Address}
    (absent : ∀ deposit ∈ deposits, deposit.pairKey ≠ pairKey) (token : Address) :
    received deposits pairKey token = 0 := by
  induction deposits with
  | nil => rfl
  | cons deposit rest ih =>
    obtain ⟨apart, others⟩ := List.forall_mem_cons.mp absent
    rw [received_cons, ih others]
    simp [apart]

section Steps
variable {World : Type} {host : Host World}

def Balanced (state : State World) : Prop :=
  ∀ pairKey pair, state.dex.pairs.lookup pairKey = some pair →
    pair.reserveA.toNat = received state.deposits pairKey pair.tokenA ∧
      pair.reserveB.toNat = received state.deposits pairKey pair.tokenB

/-- A pair is kept under its own two tokens, and deposits are made for pairs only. -/
structure Sound (state : State World) : Prop where
  keyed : ∀ pairKey pair, state.dex.pairs.lookup pairKey = some pair →
    (pair.tokenA, pair.tokenB) = pairKey ∧ pair.tokenA ≠ pair.tokenB
  deposited : ∀ deposit ∈ state.deposits, deposit.pairKey ∈ state.dex.pairs

/-- A deposit names the tokens in their order, or gives as much of both. -/
def InOrder : Input World → Prop
  | .call _ (.addLiquidity tokenA tokenB amountA amountB) =>
    sortPair tokenA tokenB = (tokenA, tokenB) ∨ amountA = amountB
  | _ => True

theorem sortPair_eq (a b : Address) : sortPair a b = (a, b) ∨ sortPair a b = (b, a) := by
  rw [sortPair]
  split
  · exact .inl rfl
  · exact .inr rfl

theorem createPair_ok {tokenA tokenB : Address} {dex next : ProtonDEX}
    (created : createPair tokenA tokenB dex = .ok next) :
    tokenA ≠ tokenB ∧ sortPair tokenA tokenB ∉ dex.pairs ∧ ∃ pair : TradingPair,
      (pair.tokenA, pair.tokenB) = sortPair tokenA tokenB ∧ pair.reserveA = 0 ∧
        pair.reserveB = 0 ∧
        next = { dex with pairs := dex.pairs.insert (sortPair tokenA tokenB) pair } := by
  simp only [createPair, bind_eq_ok, ensure_eq_ok, pure_eq_ok] at created
  obtain ⟨-, apart, -, free, rfl⟩ := created
  exact ⟨apart, free, _, rfl, rfl, rfl, rfl⟩

theorem unwrap_eq_ok {A : Type} {option : Option A} {value : A} :
    unwrap option = .ok value ↔ option = some value := by
  cases option <;> simp [unwrap]

theorem transferIn_ok {pairKey : Address × Address} {token caller : Address} {amount : U128}
    {state next : State World}
    (paid : transferIn host pairKey token caller amount state = .ok next) :
    next.dex = state.dex ∧ next.deposits = ⟨pairKey, token, amount⟩ :: state.deposits := by
  rw [transferIn] at paid
  split at paid
  · obtain rfl := Except.ok.inj paid
    exact ⟨rfl, rfl⟩
  · cases paid

theorem addLiquidity_ok {caller tokenA tokenB : Address} {amountA amountB liquidity : U128}
    {state next : State World}
    (done : addLiquidity host caller tokenA tokenB amountA amountB state =
      .ok (liquidity, next)) :
    ∃ pair after, state.dex.pairs.lookup (sortPair tokenA tokenB) = some pair ∧
      after.tokenA = pair.tokenA ∧ after.tokenB = pair.tokenB ∧
      after.reserveA.toNat = pair.reserveA.toNat + amountA.toNat ∧
      after.reserveB.toNat = pair.reserveB.toNat + amountB.toNat ∧
      next.dex.pairs = state.dex.pairs.insert (sortPair tokenA tokenB) after ∧
      next.deposits = ⟨sortPair tokenA tokenB, tokenB, amountB⟩ ::
        ⟨sortPair tokenA tokenB, tokenA, amountA⟩ :: state.deposits := by
  simp only [addLiquidity, bind_eq_ok, unwrap_eq_ok, add_eq_ok, pure_eq_ok] at done
  obtain ⟨pair, found, between, first, paid, second, minted, -, reserveA, grownA, reserveB,
    grownB, totalLiquidity, -, world, -, same⟩ := done
  obtain ⟨-, rfl⟩ := Prod.mk.inj same
  let after : TradingPair := { pair with
    reserveA := reserveA
    reserveB := reserveB
    totalLiquidity := totalLiquidity }
  refine ⟨pair, after, found, rfl, rfl, grownA, grownB, rfl, ?_⟩
  rw [(transferIn_ok second).2, (transferIn_ok first).2]

variable {state next : State World} {input : Input World}

theorem perform_sound (sound : Sound state) (performed : perform host state input = .ok next) :
    Sound next := by
  cases input with
  | outside world =>
    obtain rfl := Except.ok.inj performed
    exact ⟨sound.keyed, sound.deposited⟩
  | call caller call =>
    cases call with
    | createPair tokenA tokenB =>
      simp only [perform, bind_eq_ok, pure_eq_ok] at performed
      obtain ⟨dex, created, rfl⟩ := performed
      obtain ⟨apart, -, pair, tokens, -, -, rfl⟩ := createPair_ok created
      constructor
      · intro pairKey other held
        simp only [FiniteMap.lookup_insert] at held
        split at held
        next own =>
          obtain rfl := Option.some.inj held
          refine ⟨own ▸ tokens, ?_⟩
          obtain ⟨one, two⟩ := Prod.mk.inj (tokens.trans (Prod.mk.eta).symm)
          rw [one, two]
          rcases sortPair_eq tokenA tokenB with order | order
          · rw [order]
            exact apart
          · rw [order]
            exact apart.symm
        · exact sound.keyed pairKey other held
      · intro deposit member
        exact Finmap.mem_insert.mpr (.inr (sound.deposited deposit member))
    | addLiquidity tokenA tokenB amountA amountB =>
      simp only [perform, bind_eq_ok, pure_eq_ok] at performed
      obtain ⟨⟨liquidity, after⟩, done, rfl⟩ := performed
      obtain ⟨pair, after', found, tokenA', tokenB', -, -, pairs, deposits⟩ :=
        addLiquidity_ok done
      obtain ⟨tokens, apart⟩ := sound.keyed _ _ found
      constructor
      · intro pairKey other held
        simp only [pairs, FiniteMap.lookup_insert] at held
        split at held
        next own =>
          obtain rfl := Option.some.inj held
          rw [tokenA', tokenB', own]
          exact ⟨tokens, apart⟩
        · exact sound.keyed pairKey other held
      · simp only [deposits, pairs, List.forall_mem_cons]
        refine ⟨Finmap.mem_insert.mpr (.inl rfl), Finmap.mem_insert.mpr (.inl rfl), ?_⟩
        intro deposit member
        exact Finmap.mem_insert.mpr (.inr (sound.deposited deposit member))

theorem createPair_balanced {tokenA tokenB : Address} {dex : ProtonDEX} (sound : Sound state)
    (balanced : Balanced state) (created : createPair tokenA tokenB state.dex = .ok dex) :
    Balanced { state with dex := dex } := by
  obtain ⟨-, free, pair, -, emptyA, emptyB, rfl⟩ := createPair_ok created
  intro pairKey other held
  simp only [FiniteMap.lookup_insert] at held
  split at held
  next own =>
    obtain rfl := Option.some.inj held
    have absent : ∀ deposit ∈ state.deposits, deposit.pairKey ≠ pairKey := by
      rintro deposit member rfl
      exact free (own ▸ sound.deposited deposit member)
    rw [received_of_absent absent, received_of_absent absent, emptyA, emptyB]
    exact ⟨rfl, rfl⟩
  · exact balanced pairKey other held

/-- Nothing is deposited for another pair, so only the pair of the deposit decides. -/
theorem balanced_iff_own {pairKey : Address × Address} {tokenA tokenB : Address}
    {amountA amountB : U128} {pair : TradingPair} (balanced : Balanced state)
    (pairs : next.dex.pairs = state.dex.pairs.insert pairKey pair)
    (deposits : next.deposits =
      ⟨pairKey, tokenB, amountB⟩ :: ⟨pairKey, tokenA, amountA⟩ :: state.deposits) :
    Balanced next ↔
      pair.reserveA.toNat = received next.deposits pairKey pair.tokenA ∧
        pair.reserveB.toNat = received next.deposits pairKey pair.tokenB := by
  constructor
  · intro now
    apply now
    rw [pairs, FiniteMap.lookup_insert, if_pos rfl]
  · intro now otherKey other held
    rw [pairs, FiniteMap.lookup_insert] at held
    split at held
    next same =>
      subst same
      obtain rfl := Option.some.inj held
      exact now
    next differ =>
      rw [deposits]
      simp only [received_cons, Ne.symm differ, false_and, if_false, Nat.zero_add]
      exact balanced otherKey other held

theorem addLiquidity_balanced_iff {caller tokenA tokenB : Address}
    {amountA amountB liquidity : U128} (sound : Sound state) (balanced : Balanced state)
    (done : addLiquidity host caller tokenA tokenB amountA amountB state =
      .ok (liquidity, next)) :
    Balanced next ↔ sortPair tokenA tokenB = (tokenA, tokenB) ∨ amountA = amountB := by
  obtain ⟨pair, after, found, tokenA', tokenB', grownA, grownB, pairs, deposits⟩ :=
    addLiquidity_ok done
  obtain ⟨tokens, apart⟩ := sound.keyed _ _ found
  obtain ⟨oldA, oldB⟩ := balanced _ _ found
  rw [balanced_iff_own balanced pairs deposits, tokenA', tokenB', grownA, grownB, oldA, oldB,
    deposits]
  simp only [received_cons, true_and]
  rcases sortPair_eq tokenA tokenB with order | order
  · rw [order] at tokens ⊢
    obtain ⟨one, two⟩ := Prod.mk.inj tokens
    rw [one, two] at apart ⊢
    simp only [if_true, apart, Ne.symm apart, if_false]
    exact iff_of_true ⟨by omega, by omega⟩ (.inl trivial)
  · -- what was moved of one token is booked for the other
    rw [order] at tokens ⊢
    obtain ⟨one, two⟩ := Prod.mk.inj tokens
    rw [one, two] at apart ⊢
    simp only [if_true, apart, Ne.symm apart, if_false, Prod.mk.injEq, false_and, false_or,
      ← BitVec.toNat_inj]
    omega

theorem perform_balanced (sound : Sound state) (balanced : Balanced state)
    (performed : perform host state input = .ok next) : Balanced next ↔ InOrder input := by
  cases input with
  | outside world =>
    obtain rfl := Except.ok.inj performed
    exact iff_of_true balanced trivial
  | call caller call =>
    cases call with
    | createPair tokenA tokenB =>
      simp only [perform, bind_eq_ok, pure_eq_ok] at performed
      obtain ⟨dex, created, rfl⟩ := performed
      exact iff_of_true (createPair_balanced sound balanced created) trivial
    | addLiquidity tokenA tokenB amountA amountB =>
      simp only [perform, bind_eq_ok, pure_eq_ok] at performed
      obtain ⟨⟨liquidity, after⟩, done, rfl⟩ := performed
      exact addLiquidity_balanced_iff sound balanced done

end Steps

/-- From the deployment on, the reserves are what was transferred in for them in every state
of a run exactly if every deposit that goes through names its tokens in order or gives as
much of both. -/
theorem balanced_iff {World : Type} (host : Host World) (fees : U16) (feeRecipient : Address)
    (world : World) (inputs : List (Input World)) :
    Runs.Visits (step host) Balanced ⟨ProtonDEX.new fees feeRecipient, world, []⟩ inputs ↔
      Runs.Meets (step host)
        (fun state input => Transactions.Succeeds (perform host) state input → InOrder input)
        ⟨ProtonDEX.new fees feeRecipient, world, []⟩ inputs := by
  refine @Transactions.visits_iff_meets _ _ _ _ _ Sound (fun _ _ => True) _ ?_ ?_ _ ?_ ?_
    inputs ((Runs.meets_const _ (fun _ => True) _ inputs).mpr fun _ _ => trivial)
  · intro state input next sound balanced _ performed
    exact perform_balanced sound balanced performed
  · intro state input next sound _ performed
    exact perform_sound sound performed
  · exact nofun
  · exact ⟨nofun, nofun⟩

namespace Sample

/-- A host that moves every amount. -/
def host : Host Unit := ⟨Sample.address 8, fun _ _ _ _ _ => some (), fun _ _ _ => some ()⟩

/-- Token 2 is named before token 1. -/
def reversed : List (Input Unit) :=
  [.call (Sample.address 3) (.createPair (Sample.address 1) (Sample.address 2)),
    .call (Sample.address 3) (.addLiquidity (Sample.address 2) (Sample.address 1) 10 20)]

end Sample

/-- 10 of token 2 and 20 of token 1 come in and are booked the other way round. -/
theorem reversed_deposit_is_misbooked :
    ¬ Runs.Visits (step Sample.host) Balanced ⟨ProtonDEX.new 30 (Sample.address 7), (), []⟩
      Sample.reversed := by
  intro visits
  have last := visits Sample.reversed [] (List.append_nil _).symm
    (Sample.address 1, Sample.address 2)
    ⟨Sample.address 1, Sample.address 2, 10, 20, 14, []⟩ (by decide +kernel)
  exact absurd last.1 (by decide +kernel)

end ProtonChain.Contracts.ProtonDEX
