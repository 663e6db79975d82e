import ProtonChain.Consensus.Finality

/-! What a header commits to.

Acceptance compares the Merkle root alone. Every odd level repeats its last
node, so lists that are padded to one sequence share their root, and without
collisions no others do.
-/

set_option autoImplicit false

namespace ProtonChain.Consensus

section Commitment
variable (crates : Crates)

def txHashes (txs : List Transaction) : List Hash := txs.map (Transaction.hash crates)

def pairMessage (left right : Hash) : Bytes := left.asBytes.toList ++ right.asBytes.toList

/-- The strings hashed on the way from a list to its root. -/
def hashedMessages (txs : List Transaction) : List Bytes :=
  txs.map (Transaction.encoded crates) ++
    (Pairing.treeOf (txHashes crates txs)).elim [] fun tree =>
      (tree.joins (MerkleTree.combine crates.sha3)).map fun pair => pairMessage pair.1 pair.2

variable (first second : List Transaction)

/-- The hash is as good as injective on what two lists hash, and none of it
hashes to the root of the empty list. -/
structure CollisionFree : Prop where
  injective : ∀ message ∈ hashedMessages crates first ++ hashedMessages crates second,
    ∀ other ∈ hashedMessages crates first ++ hashedMessages crates second,
      Hash.new crates.sha3 message = Hash.new crates.sha3 other → message = other
  nonzero : ∀ message ∈ hashedMessages crates first ++ hashedMessages crates second,
    Hash.new crates.sha3 message ≠ Hash.zero

/-- Encodings are longer than a pair of hashes, as they are in the layout of the serializer. -/
def LongEncodings : Prop := ∀ tx ∈ first ++ second, 64 < (tx.encoded crates).length

/-- Whatever header is accepted with both lists, they have the same hashes. -/
def Commits : Prop :=
  ∀ (node : HotStuffConsensus) (header : BlockHeader) (firstProofs secondProofs : List ShardProof),
    node.validateBlock crates ⟨header, first, firstProofs⟩ = true →
      node.validateBlock crates ⟨header, second, secondProofs⟩ = true →
        txHashes crates first = txHashes crates second

/-! ## Roots -/

theorem root_eq (leaves : List Hash) : MerkleTree.root crates.sha3 leaves =
    ((Pairing.treeOf leaves).map (Pairing.Tree.fold (MerkleTree.combine crates.sha3))).getD
      Hash.zero := by
  rw [MerkleTree.root, Pairing.reduce_eq_fold]

/-- Lists padded to one sequence have one root, whatever the hash. -/
theorem root_of_padded (leaves other : List Hash)
    (same : Pairing.padded leaves = Pairing.padded other) :
    MerkleTree.root crates.sha3 leaves = MerkleTree.root crates.sha3 other := by
  rw [root_eq, root_eq, (Pairing.treeOf_eq_iff leaves other).mpr same]

section Tree
variable {crates first second} {txs : List Transaction} {tree : Pairing.Tree Hash}

theorem leaf_message (built : Pairing.treeOf (txHashes crates txs) = some tree) {leaf : Hash}
    (member : leaf ∈ tree.leaves) :
    ∃ tx ∈ txs, leaf = Hash.new crates.sha3 (tx.encoded crates) := by
  obtain ⟨tx, listed, same⟩ := List.mem_map.mp (Pairing.treeOf_leaves built leaf member)
  exact ⟨tx, listed, same.symm⟩

theorem encoded_hashed {tx : Transaction} (listed : tx ∈ txs) :
    tx.encoded crates ∈ hashedMessages crates txs :=
  List.mem_append_left _ (List.mem_map_of_mem listed)

theorem join_hashed (built : Pairing.treeOf (txHashes crates txs) = some tree)
    {pair : Hash × Hash} (member : pair ∈ tree.joins (MerkleTree.combine crates.sha3)) :
    pairMessage pair.1 pair.2 ∈ hashedMessages crates txs := by
  rw [hashedMessages, built]
  exact List.mem_append_right _ (List.mem_map.mpr ⟨pair, member, rfl⟩)

theorem fold_message (built : Pairing.treeOf (txHashes crates txs) = some tree) :
    ∃ message ∈ hashedMessages crates txs,
      tree.fold (MerkleTree.combine crates.sha3) = Hash.new crates.sha3 message := by
  cases tree with
  | leaf value =>
    have member : value ∈ (Pairing.Tree.leaf value).leaves := by simp [Pairing.Tree.leaves]
    obtain ⟨tx, listed, same⟩ := leaf_message built member
    exact ⟨_, encoded_hashed listed, same⟩
  | node left right =>
    exact ⟨_, join_hashed built List.mem_cons_self, rfl⟩

theorem pair_eq {pair other : Hash × Hash}
    (same : pairMessage pair.1 pair.2 = pairMessage other.1 other.2) : pair = other := by
  have width : pair.1.asBytes.toList.length = other.1.asBytes.toList.length := by
    rw [List.Vector.toList_length, List.Vector.toList_length]
  obtain ⟨left, right⟩ := List.append_inj same width
  exact Prod.ext (Hash.eq_of_bytes left) (Hash.eq_of_bytes right)

/-- An encoding and a pair of hashes differ in length. -/
theorem leaf_apart {message : Bytes} (long : 64 < message.length) (pair : Hash × Hash) :
    message ≠ pairMessage pair.1 pair.2 := by
  intro same
  rw [same, pairMessage, List.length_append, List.Vector.toList_length,
    List.Vector.toList_length] at long
  exact absurd long (by decide)

end Tree

variable {crates first second} (free : CollisionFree crates first second)
  (long : LongEncodings crates first second)
include free

theorem empty_root_apart {txs : List Transaction} (listed : txs = first ∨ txs = second)
    {tree : Pairing.Tree Hash} (built : Pairing.treeOf (txHashes crates txs) = some tree) :
    tree.fold (MerkleTree.combine crates.sha3) ≠ Hash.zero := by
  obtain ⟨message, hashed, same⟩ := fold_message built
  rw [same]
  refine free.nonzero message ?_
  rcases listed with rfl | rfl
  · exact List.mem_append_left _ hashed
  · exact List.mem_append_right _ hashed

include long

theorem tree_eq_of_fold {tree other : Pairing.Tree Hash}
    (built : Pairing.treeOf (txHashes crates first) = some tree)
    (builtOther : Pairing.treeOf (txHashes crates second) = some other)
    (same : tree.fold (MerkleTree.combine crates.sha3) =
      other.fold (MerkleTree.combine crates.sha3)) : tree = other := by
  -- joins against joins, then the leaves of either tree against the joins of the other
  refine Pairing.Tree.eq_of_fold_eq _ tree other ?_ ?_ ?_ same
  · intro pair member pair' member' collide
    exact pair_eq (free.injective _ (List.mem_append_left _ (join_hashed built member)) _
      (List.mem_append_right _ (join_hashed builtOther member')) collide)
  · intro leaf member pair member' collide
    obtain ⟨tx, listed, value⟩ := leaf_message built member
    have messages := free.injective _ (List.mem_append_left _ (encoded_hashed listed)) _
      (List.mem_append_right _ (join_hashed builtOther member')) (value.symm.trans collide)
    exact leaf_apart (long tx (List.mem_append_left _ listed)) pair messages
  · intro leaf member pair member' collide
    obtain ⟨tx, listed, value⟩ := leaf_message builtOther member
    have messages := free.injective _ (List.mem_append_right _ (encoded_hashed listed)) _
      (List.mem_append_left _ (join_hashed built member')) (value.symm.trans collide)
    exact leaf_apart (long tx (List.mem_append_right _ listed)) pair messages

theorem padded_of_root
    (same : MerkleTree.root crates.sha3 (txHashes crates first) =
      MerkleTree.root crates.sha3 (txHashes crates second)) :
    Pairing.padded (txHashes crates first) = Pairing.padded (txHashes crates second) := by
  rw [root_eq, root_eq] at same
  rw [← Pairing.treeOf_eq_iff]
  cases built : Pairing.treeOf (txHashes crates first) with
  | none =>
    cases builtOther : Pairing.treeOf (txHashes crates second) with
    | none => rfl
    | some other =>
      rw [built, builtOther] at same
      exact absurd same.symm (empty_root_apart free (.inr rfl) builtOther)
  | some tree =>
    cases builtOther : Pairing.treeOf (txHashes crates second) with
    | none =>
      rw [built, builtOther] at same
      exact absurd same (empty_root_apart free (.inl rfl) built)
    | some other =>
      rw [built, builtOther] at same
      rw [tree_eq_of_fold free long built builtOther same]

end Commitment

/-! ## Acceptance -/

/-- A header of height zero with a given root, without a registered validator. -/
def Sample.header (root : Hash) : BlockHeader :=
  { (Sample.block 0 0 Hash.zero).header with merkleRoot := root }

theorem Sample.accepts_root (crates : Crates) (txs : List Transaction)
    (proofs : List ShardProof) (root : Hash)
    (same : MerkleTree.root crates.sha3 (txHashes crates txs) = root) :
    Sample.node.validateBlock crates ⟨Sample.header root, txs, proofs⟩ = true := by
  rw [HotStuffConsensus.validateBlock_iff,
    HotStuffConsensus.accepted_unregistered crates Sample.node _ rfl]
  exact ⟨fun above => absurd above (BitVec.lt_irrefl 0), same⟩

/-- A header commits to one of two lists exactly if their hashes are the same or
are padded to different sequences. -/
theorem commits_iff (crates : Crates) (first second : List Transaction)
    (free : CollisionFree crates first second) (long : LongEncodings crates first second) :
    Commits crates first second ↔
      txHashes crates first = txHashes crates second ∨
        Pairing.padded (txHashes crates first) ≠ Pairing.padded (txHashes crates second) := by
  constructor
  · -- without validators both lists are accepted under the root they share
    intro commits
    by_cases same : Pairing.padded (txHashes crates first) = Pairing.padded (txHashes crates second)
    · have roots := root_of_padded crates _ _ same
      exact .inl (commits Sample.node (Sample.header _) [] []
        (Sample.accepts_root crates first [] _ roots)
        (Sample.accepts_root crates second [] _ rfl))
    · exact .inr same
  · rintro condition node header firstProofs secondProofs firstValid secondValid
    have firstRoot := ((node.validateBlock_iff crates _).mp firstValid).merkle
    have secondRoot := ((node.validateBlock_iff crates _).mp secondValid).merkle
    have padded := padded_of_root free long (firstRoot.trans secondRoot.symm)
    rcases condition with same | differ
    · exact same
    · exact absurd padded differ

/-! ## Three payments -/

namespace Sample

def payment (nonce : U64) : Transaction where
  txType := .transfer
  nonce := nonce
  sender := Sample.address 1
  receiver := none
  value := 1
  gasPrice := 1
  gasLimit := 2
  data := []
  shardId := 0
  timestamp := 0
  signature := []
  stealthAddress := none
  zkProof := none
  encryptedAmount := none

def digest (value : Nat) : List.Vector UInt8 32 :=
  ⟨(List.range 32).map fun index => UInt8.ofNat (value / 256 ^ (31 - index)), by simp⟩

/-- The SHA3-256 digests of the three payments. -/
def payment1 : Nat := 0xc346528f7717e88ff983d1d4a1a8c490ab0271b03e99e11b6f01cc410dfc9ddf
def payment2 : Nat := 0x98c366b9d6ca4243290676572ef115dce30019f40ccf31c55a6a13ed5040a587
def payment3 : Nat := 0x2c2336d013745aecf8621829cf65bd53a5eda830e5eec20322c89179968e900d

/-- The SHA3-256 digests of the pairs of payments that occur below, and of one pair of these. -/
def pair12 : Nat := 0x9badf5d5eaa8dd91829551d13716a13f9c118bce884ea0fd8eafee4f76ecea13
def pair21 : Nat := 0x6096a8d596a835ef9b8b50d97a3dfe3b3702bd98b2333f4031534b7960ae7a6c
def pair33 : Nat := 0x31f083bed0b0697c90aff736229de75422e2de4938717874284858e366d7df31
def pair1233 : Nat := 0x12332f04ad85bce89d2bbf5327c0131a97a1a86c029f028b126f67f9319fce2e

def digests : List (Bytes × Nat) :=
  [(Bincode.transaction (payment 1), payment1), (Bincode.transaction (payment 2), payment2),
    (Bincode.transaction (payment 3), payment3),
    ((digest payment1).toList ++ (digest payment2).toList, pair12),
    ((digest payment2).toList ++ (digest payment1).toList, pair21),
    ((digest payment3).toList ++ (digest payment3).toList, pair33),
    ((digest pair12).toList ++ (digest pair33).toList, pair1233)]

/-- SHA3-256 on the strings listed. -/
def listedSha3 : Sha3 := fun data =>
  match digests.find? fun entry => entry.1 = data with
  | some entry => digest entry.2
  | none => digest 0

def paymentCrates : Crates := { crates with sha3 := listedSha3 }

theorem payment_long (nonces others : List U64) :
    LongEncodings paymentCrates (nonces.map payment) (others.map payment) := by
  intro tx _
  exact Nat.lt_of_lt_of_le (by decide) (Bincode.length_transaction tx)

end Sample

section Messages
variable (crates : Crates) (first second last : Transaction)

theorem hashedMessages_two : hashedMessages crates [first, second] =
    [first.encoded crates, second.encoded crates,
      pairMessage (first.hash crates) (second.hash crates)] := by
  simp [hashedMessages, txHashes, pairMessage, Pairing.treeOf, Pairing.reduce, Pairing.level,
    Pairing.Tree.joins, Pairing.Tree.fold]

theorem hashedMessages_three : hashedMessages crates [first, second, last] =
    [first.encoded crates, second.encoded crates, last.encoded crates,
      pairMessage (MerkleTree.combine crates.sha3 (first.hash crates) (second.hash crates))
        (MerkleTree.combine crates.sha3 (last.hash crates) (last.hash crates)),
      pairMessage (first.hash crates) (second.hash crates),
      pairMessage (last.hash crates) (last.hash crates)] := by
  simp [hashedMessages, txHashes, pairMessage, Pairing.treeOf, Pairing.reduce, Pairing.level,
    Pairing.Tree.joins, Pairing.Tree.fold]

theorem hashedMessages_four : hashedMessages crates [first, second, last, last] =
    [first.encoded crates, second.encoded crates, last.encoded crates, last.encoded crates,
      pairMessage (MerkleTree.combine crates.sha3 (first.hash crates) (second.hash crates))
        (MerkleTree.combine crates.sha3 (last.hash crates) (last.hash crates)),
      pairMessage (first.hash crates) (second.hash crates),
      pairMessage (last.hash crates) (last.hash crates)] := by
  simp [hashedMessages, txHashes, pairMessage, Pairing.treeOf, Pairing.reduce, Pairing.level,
    Pairing.Tree.joins, Pairing.Tree.fold]

end Messages

/-- The order of two payments is committed to. -/
theorem commits_order : Commits Sample.paymentCrates ([1, 2].map Sample.payment)
    ([2, 1].map Sample.payment) := by
  refine (commits_iff Sample.paymentCrates ([1, 2].map Sample.payment)
    ([2, 1].map Sample.payment) ⟨?_, ?_⟩ (Sample.payment_long [1, 2] [2, 1])).mpr (.inr ?_)
  · simp only [List.map_cons, List.map_nil, hashedMessages_two]
    decide +kernel
  · simp only [List.map_cons, List.map_nil, hashedMessages_two]
    decide +kernel
  · simp only [txHashes, List.map_cons, List.map_nil, Pairing.padded_two]
    decide +kernel

/-- The last of three payments can be repeated under the same header. -/
theorem last_payment_repeated :
    CollisionFree Sample.paymentCrates ([1, 2, 3].map Sample.payment)
        ([1, 2, 3, 3].map Sample.payment) ∧
      LongEncodings Sample.paymentCrates ([1, 2, 3].map Sample.payment)
        ([1, 2, 3, 3].map Sample.payment) ∧
      ¬ Commits Sample.paymentCrates ([1, 2, 3].map Sample.payment)
        ([1, 2, 3, 3].map Sample.payment) := by
  refine ⟨⟨?_, ?_⟩, Sample.payment_long [1, 2, 3] [1, 2, 3, 3], fun commits => ?_⟩
  · simp only [List.map_cons, List.map_nil, hashedMessages_three, hashedMessages_four]
    decide +kernel
  · simp only [List.map_cons, List.map_nil, hashedMessages_three, hashedMessages_four]
    decide +kernel
  · have roots := root_of_padded Sample.paymentCrates _ _ (Pairing.padded_three
      ((Sample.payment 1).hash Sample.paymentCrates) ((Sample.payment 2).hash Sample.paymentCrates)
      ((Sample.payment 3).hash Sample.paymentCrates))
    have same := commits Sample.node (Sample.header _) [] []
      (Sample.accepts_root _ _ [] _ roots) (Sample.accepts_root _ _ [] _ rfl)
    exact absurd (congrArg List.length same) (by simp [txHashes])

end ProtonChain.Consensus
