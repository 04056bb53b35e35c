import VaultMesh.Durability

/-!
# Repairs of malformed manifests

The coordinator stores manifests as they come. A repair fills its slots by the
position of a shard, but patches and rewrites them by the index which the shard
claims to have. It leaves its vectors when a shard without a valid copy claims
an index beyond them and the pass gets as far as using it: a peer lends the
shard, or what the anchor and the peers have decodes.
-/

namespace VaultMesh

open Interaction Coding

/-! ## What peers lend -/

section Loans

variable (env : Environment) (sha256Hex : Bytes → String)

/-- What the recorded peers of one shard answer, from a moment on; and the moment afterwards. -/
def lend (ref : ShardRef) (shard : Shard) : ℕ → List ShardLocation → Option Bytes × ℕ
  | tick, [] => (none, tick)
  | tick, .anchor :: locations => lend ref shard tick locations
  | tick, .peer peer :: locations =>
      match env.fetch tick peer ref with
      | .ok bytes =>
          if sha256Hex bytes = shard.sha256 then
            (some bytes, tick + 1)
          else
            lend ref shard (tick + 1) locations
      | .error _ => lend ref shard (tick + 1) locations

/-- The bad shards which peers lend, until `k` are available. -/
def loans (ns : NamespaceId) (blobId : BlobId) (k : ℕ) (bad : List UInt16) :
    List Shard → ℕ → ℕ → List (UInt16 × Bytes)
  | [], _, _ => []
  | shard :: shards, available, tick =>
      if k ≤ available then
        []
      else if shard.index ∉ bad then
        loans ns blobId k bad shards available tick
      else
        match lend env sha256Hex ⟨ns, blobId, shard.index⟩ shard tick shard.locations with
        | (some bytes, later) =>
            (shard.index, bytes) :: loans ns blobId k bad shards (available + 1) later
        | (none, later) => loans ns blobId k bad shards available later

end Loans

/-- The slots with the lent shards in the places of their indices. -/
def patch (slots : List (Option Bytes)) (lent : List (UInt16 × Bytes)) : List (Option Bytes) :=
  lent.foldl (fun slots loan => slots.set loan.1.toNat (some loan.2)) slots

@[simp]
theorem length_patch (slots : List (Option Bytes)) (lent : List (UInt16 × Bytes)) :
    (patch slots lent).length = slots.length := by
  induction lent generalizing slots with
  | nil => rfl
  | cons loan lent ih =>
      change (patch (slots.set loan.1.toNat (some loan.2)) lent).length = _
      rw [ih, List.length_set]

variable {env : Environment} {sha256Hex : Bytes → String} {ns : NamespaceId} {blobId : BlobId}

theorem fetchReplica_lends {ref : ShardRef} {shard : Shard} (locations : List ShardLocation)
    (state : World ShardMap) :
    (fetchReplica sha256Hex ref shard locations).run (world env shardMap) state =
      (.ok (lend env sha256Hex ref shard state.tick locations).1,
        { state with tick := (lend env sha256Hex ref shard state.tick locations).2 }) := by
  induction locations generalizing state with
  | nil => rfl
  | cons location locations ih =>
      cases location with
      | anchor => exact ih state
      | peer peer =>
          let asked : World ShardMap := { state with tick := state.tick + 1 }
          have fetched : (fetchShard peer ref).run (world env shardMap) state =
              (.ok (env.fetch state.tick peer ref), asked) := rfl
          rw [fetchReplica, Program.run_bind_of_ok fetched, lend]
          cases env.fetch state.tick peer ref with
          | error refused => exact ih asked
          | ok bytes =>
              by_cases hash : sha256Hex bytes = shard.sha256
              · simp only [hash, if_true]
                rfl
              · simp only [hash, if_false]
                exact ih asked

theorem index_mem_of_loan {k : ℕ} {bad : List UInt16} {recorded : List Shard} {available tick : ℕ}
    {loan : UInt16 × Bytes}
    (lent : loan ∈ loans env sha256Hex ns blobId k bad recorded available tick) :
    loan.1 ∈ bad := by
  induction recorded generalizing available tick with
  | nil => simp [loans] at lent
  | cons shard recorded ih =>
      rw [loans] at lent
      split at lent
      · simp at lent
      · split at lent
        · exact ih lent
        · next isBad =>
            split at lent
            · rcases List.mem_cons.mp lent with rfl | later
              · exact not_not.mp isBad
              · exact ih later
            · exact ih lent

/-- With `k` shards available nothing is borrowed. -/
theorem loans_of_enough {k : ℕ} {bad : List UInt16} {recorded : List Shard} {available : ℕ}
    (enough : k ≤ available) (tick : ℕ) :
    loans env sha256Hex ns blobId k bad recorded available tick = [] := by
  cases recorded with
  | nil => rfl
  | cons shard recorded => rw [loans, if_pos enough]

namespace RepairShards

/-- Borrowing patches the slots with the loans, or stops at the first loan beyond them. -/
theorem backfill_lends {self : RepairShards} {k : ℕ} {bad : List UInt16} (recorded : List Shard)
    (slots : List (Option Bytes)) (available : ℕ) (state : World ShardMap) :
    ((self.backfill ns blobId k bad recorded slots available).run (world env shardMap) state).1 =
      if ∀ loan ∈ loans env self.sha256Hex ns blobId k bad recorded available state.tick,
          loan.1.toNat < slots.length then
        .ok (patch slots
          (loans env self.sha256Hex ns blobId k bad recorded available state.tick))
      else
        .error (.panicked "index out of bounds") := by
  induction recorded generalizing slots available state with
  | nil => rfl
  | cons shard recorded ih =>
      rw [backfill, loans]
      by_cases enough : k ≤ available
      · rw [if_pos enough, if_pos enough]
        rfl
      · rw [if_neg enough, if_neg enough]
        by_cases good : shard.index ∉ bad
        · rw [if_pos good, if_pos good]
          exact ih slots available state
        · rw [if_neg good, if_neg good,
            Program.run_bind_of_ok (fetchReplica_lends shard.locations state)]
          rcases answer : lend env self.sha256Hex ⟨ns, blobId, shard.index⟩ shard state.tick
            shard.locations with ⟨slot, later⟩
          cases slot with
          | none => exact ih slots available { state with tick := later }
          | some bytes =>
              simp only
              by_cases inside : shard.index.toNat < slots.length
              · have rest := ih (slots.set shard.index.toNat (some bytes)) (available + 1)
                  { state with tick := later }
                rw [List.length_set] at rest
                simp only [inside, if_true, List.forall_mem_cons, true_and]
                exact rest
              · simp only [inside, if_false, List.forall_mem_cons, false_and]
                rfl

/-- A rewrite stops at the first bad shard without a symbol, and ends well if there is none. -/
theorem rewrite_outcome (env : Environment) (self : RepairShards) (bad : List UInt16)
    (fresh : List Bytes) (recorded : List Shard) (state : World ShardMap) :
    ((self.rewrite ns blobId bad fresh recorded).run (world env shardMap) state).1 =
      if ∀ shard ∈ recorded, shard.index ∈ bad → shard.index.toNat < fresh.length then
        .ok (recorded.countP fun shard => decide (shard.index ∈ bad))
      else
        .error (.panicked "index out of bounds") := by
  induction recorded generalizing state with
  | nil => rfl
  | cons shard recorded ih =>
      rw [rewrite]
      by_cases isBad : shard.index ∈ bad
      · rw [if_neg (not_not.mpr isBad), List.countP_cons_of_pos (by simp [isBad])]
        cases symbol : fresh[shard.index.toNat]? with
        | none =>
            have outside := List.getElem?_eq_none_iff.mp symbol
            rw [if_neg]
            · rfl
            · intro inside
              have := inside shard List.mem_cons_self isBad
              omega
        | some bytes =>
            have inside := (List.getElem?_eq_some_iff.mp symbol).1
            let ref : ShardRef := ⟨ns, blobId, shard.index⟩
            have written : (VaultMesh.putShard ref bytes).run (world env shardMap) state =
                (.ok (), state.after shardMap (.putShard ref bytes)) := rfl
            rcases reReplicate_run env self ref bytes shard
              (state.after shardMap (.putShard ref bytes)) with ⟨later, replicated, -, -⟩
            simp only
            rw [Program.run_bind_of_ok written, Program.run_bind_of_ok replicated,
              Program.run_bind_pure, ih later]
            simp only [List.forall_mem_cons, isBad, forall_const, inside, true_and]
            split <;> rfl
      · rw [if_pos isBad, ih state, List.countP_cons_of_neg (by simp [isBad])]
        simp only [List.forall_mem_cons, isBad, false_implies, true_and]

end RepairShards

/-! ## The coder -/

def Panics {α : Type} (result : Except Failure α) : Prop :=
  ∃ message, result = .error (.panicked message)

theorem not_panics_ok {α : Type} (value : α) : ¬Panics (.ok value) := by
  rintro ⟨message, panicked⟩
  cases panicked

theorem not_panics_port {α : Type} (error : PortError) :
    ¬Panics (.error (.port error) : Except Failure α) := by
  rintro ⟨message, panicked⟩
  cases panicked

theorem not_panics_bind {α β : Type} {first : Except Failure α} {next : α → Except Failure β}
    (calm : ¬Panics first) (later : ∀ value, ¬Panics (next value)) : ¬Panics (first >>= next) := by
  cases first with
  | ok value => exact later value
  | error failure =>
      rintro ⟨message, panicked⟩
      rcases Except.error.inj panicked with rfl
      exact calm ⟨message, rfl⟩

namespace ReedSolomonCoder

variable {library : ReedSolomonLibrary} {params : ErasureParams} {slots : List (Option Bytes)}
  {dataLen : ℕ}

theorem not_panics_rsErr {α : Type} (outcome : Except String α) : ¬Panics (rsErr outcome) := by
  cases outcome with
  | ok value => exact not_panics_ok value
  | error text => exact not_panics_port _

theorem not_panics_gather (slots : List (Option Bytes)) : ¬Panics (gather slots) := by
  induction slots with
  | nil => exact not_panics_ok []
  | cons slot slots ih =>
      cases slot with
      | none => exact not_panics_port _
      | some shard => exact not_panics_bind ih fun rest => not_panics_ok _

theorem not_panics_refill (slots : List (Option Bytes)) (k n : ℕ) :
    ¬Panics (refill library slots k n) := by
  unfold refill
  by_cases parity : k < n
  · rw [if_pos parity]
    exact not_panics_bind (not_panics_rsErr _) fun _ => not_panics_rsErr _
  · rw [if_neg parity]
    exact not_panics_ok slots

/-- Decoding any slots under any parameters ends with bytes or an error. -/
theorem not_panics_decode : ¬Panics (decode library slots params dataLen) := by
  unfold decode
  by_cases length : slots.length = params.n.toNat
  · rw [if_neg (not_not.mpr length)]
    by_cases nothing : slots.filterMap id = []
    · rw [if_pos nothing]
      exact not_panics_port _
    · rw [if_neg nothing]
      by_cases few : filled slots < params.k.toNat
      · rw [if_pos few]
        exact not_panics_port _
      · rw [if_neg few]
        refine not_panics_bind (not_panics_refill _ _ _) fun full => ?_
        exact not_panics_bind (not_panics_gather _) fun out => not_panics_ok _
  · rw [if_pos length]
    exact not_panics_port _

/-- The library makes no code without data shards. -/
theorem refill_noData (noData : ∀ m, library.new 0 m ≠ .ok ()) (slots : List (Option Bytes))
    {n : ℕ} (positive : 0 < n) :
    ∃ failure, refill library slots 0 n = .error failure := by
  rw [refill, if_pos positive]
  cases created : library.new 0 (n - 0) with
  | ok made => exact absurd created (noData _)
  | error text => exact ⟨_, rfl⟩

/-- Slots which decode are as many as the parameters say, and the parameters are valid. -/
theorem shape_of_decode (noData : ∀ m, library.new 0 m ≠ .ok ()) {data : Bytes}
    (decoded : decode library slots params dataLen = .ok data) :
    params.Valid ∧ slots.length = params.n.toNat ∧ params.k.toNat ≤ filled slots := by
  have bound := filled_le_length slots
  unfold decode at decoded
  by_cases length : slots.length = params.n.toNat
  · rw [if_neg (not_not.mpr length)] at decoded
    by_cases nothing : slots.filterMap id = []
    · rw [if_pos nothing] at decoded
      cases decoded
    · rw [if_neg nothing] at decoded
      by_cases few : filled slots < params.k.toNat
      · rw [if_pos few] at decoded
        cases decoded
      · rw [if_neg few] at decoded
        refine ⟨⟨?_, by omega⟩, length, by omega⟩
        by_contra zero
        have noBlocks : params.k.toNat = 0 := by omega
        have nonempty : 0 < slots.length := by
          apply List.length_pos_of_ne_nil
          rintro rfl
          exact nothing rfl
        rcases refill_noData noData slots (by omega : 0 < params.n.toNat) with
          ⟨failure, refused⟩
        rw [noBlocks, refused] at decoded
        cases decoded
  · rw [if_pos length] at decoded
    cases decoded

end ReedSolomonCoder

/-! ## A pass -/

section Pass

variable {node : Node} {manifest : Manifest} {state : World ShardMap} {transport : Bool}

/-- What the peers lend to the pass, which has asked the coordinator and read the anchor before. -/
def Node.loans (node : Node) (env : Environment) (transport : Bool) (ns : NamespaceId)
    (blobId : BlobId) (manifest : Manifest) (state : World ShardMap) : List (UInt16 × Bytes) :=
  if transport then
    VaultMesh.loans env node.sha256Hex ns blobId manifest.erasure.k.toNat
      (RepairShards.badIndices node.sha256Hex state.anchor ns blobId manifest.shards)
      manifest.shards (filled (readSlots node manifest ns blobId state.anchor))
      (state.tick + 1 + manifest.shards.length)
  else
    []

/-- What the anchor has and the peers lend decodes. -/
def Node.Decodes (node : Node) (env : Environment) (transport : Bool) (ns : NamespaceId)
    (blobId : BlobId) (manifest : Manifest) (state : World ShardMap) : Prop :=
  ∃ data, ReedSolomonCoder.decode node.library
    (patch (readSlots node manifest ns blobId state.anchor)
      (node.loans env transport ns blobId manifest state))
    manifest.erasure manifest.ciphertextLen.toNat = .ok data

namespace RepairShards

theorem rebuild_of_refused (env : Environment) {slots : List (Option Bytes)} {failure : Failure}
    (refused : ReedSolomonCoder.decode node.library slots manifest.erasure
      manifest.ciphertextLen.toNat = .error failure) (bad : List UInt16)
    (state : World ShardMap) :
    ¬Panics (((node.repair transport).rebuild ns blobId manifest slots bad).run
      (world env shardMap) state).1 := by
  have refusedRun : (Program.done ((node.repair transport).erasure.decode slots manifest.erasure
      manifest.ciphertextLen.toNat) : UseCase Bytes).run (world env shardMap) state =
        (.error failure, state) := Program.run_done_of_eq refused state
  unfold rebuild
  dsimp only
  by_cases enough : manifest.isReconstructable (filled slots) = true
  · rw [if_pos enough, Program.run_bind_of_error refusedRun]
    rintro ⟨message, panicked⟩
    rcases Except.error.inj panicked with rfl
    exact ReedSolomonCoder.not_panics_decode ⟨message, refused⟩
  · rw [if_neg enough]
    exact not_panics_ok _

/-- Slots which decode are encoded again, and every bad shard needs its symbol. -/
theorem rebuild_of_decoded (env : Environment) (noData : ∀ m, node.library.new 0 m ≠ .ok ())
    (fit : manifest.erasure.Valid → node.library.Fit manifest.erasure)
    {slots : List (Option Bytes)} {data : Bytes}
    (decoded : ReedSolomonCoder.decode node.library slots manifest.erasure
      manifest.ciphertextLen.toNat = .ok data) (bad : List UInt16) (state : World ShardMap) :
    Panics (((node.repair transport).rebuild ns blobId manifest slots bad).run
        (world env shardMap) state).1 ↔
      ∃ shard ∈ manifest.shards, shard.index ∈ bad ∧ slots.length ≤ shard.index.toNat := by
  rcases ReedSolomonCoder.shape_of_decode noData decoded with ⟨valid, length, enough⟩
  rcases ReedSolomonCoder.encode_ok manifest.erasure valid (fit valid) data with
    ⟨fresh, encoded, freshLength, -, -⟩
  have decodedRun : (Program.done ((node.repair transport).erasure.decode slots manifest.erasure
      manifest.ciphertextLen.toNat) : UseCase Bytes).run (world env shardMap) state =
        (.ok data, state) := Program.run_done_of_eq decoded state
  have encodedRun : (Program.done ((node.repair transport).erasure.encode data
      manifest.erasure) : UseCase (List Bytes)).run (world env shardMap) state =
        (.ok fresh, state) := Program.run_done_of_eq encoded state
  have reconstructable : manifest.isReconstructable (filled slots) = true := by
    simpa [Manifest.isReconstructable] using enough
  unfold rebuild
  dsimp only
  rw [if_pos reconstructable, Program.run_bind_of_ok decodedRun, Program.run_bind_of_ok encodedRun,
    Program.run_bind_pure, rewrite_outcome, freshLength, ← length]
  by_cases inside : ∀ shard ∈ manifest.shards, shard.index ∈ bad →
      shard.index.toNat < slots.length
  · rw [if_pos inside]
    refine iff_of_false (not_panics_ok _) ?_
    rintro ⟨shard, listed, isBad, outside⟩
    have := inside shard listed isBad
    omega
  · rw [if_neg inside]
    push Not at inside
    exact iff_of_true ⟨_, rfl⟩ inside

theorem exists_bad_iff (node : Node) (manifest : Manifest) (ns : NamespaceId) (blobId : BlobId)
    (shards : ShardMap) :
    (∃ shard ∈ manifest.shards,
      shard.index ∈ badIndices node.sha256Hex shards ns blobId manifest.shards ∧
        manifest.shards.length ≤ shard.index.toNat) ↔
    ∃ index ∈ badIndices node.sha256Hex shards ns blobId manifest.shards,
      manifest.shards.length ≤ index.toNat := by
  constructor
  · rintro ⟨shard, -, isBad, outside⟩
    exact ⟨shard.index, isBad, outside⟩
  · rintro ⟨index, isBad, outside⟩
    rcases List.mem_map.mp isBad with ⟨shard, found, rfl⟩
    exact ⟨shard, (List.mem_filter.mp found).1, isBad, outside⟩

/-- Rebuilding panics exactly if the slots decode and a bad shard is beyond them. -/
theorem rebuild_panics_iff (env : Environment) (noData : ∀ m, node.library.new 0 m ≠ .ok ())
    (fit : manifest.erasure.Valid → node.library.Fit manifest.erasure)
    {slots : List (Option Bytes)} (bad : List UInt16) (state : World ShardMap) :
    Panics (((node.repair transport).rebuild ns blobId manifest slots bad).run
        (world env shardMap) state).1 ↔
      (∃ data, ReedSolomonCoder.decode node.library slots manifest.erasure
        manifest.ciphertextLen.toNat = .ok data) ∧
      ∃ shard ∈ manifest.shards, shard.index ∈ bad ∧ slots.length ≤ shard.index.toNat := by
  cases outcome : ReedSolomonCoder.decode node.library slots manifest.erasure
      manifest.ciphertextLen.toNat with
  | error failure =>
      refine iff_of_false (rebuild_of_refused env outcome bad state) ?_
      rintro ⟨⟨data, decoded⟩, -⟩
      cases decoded
  | ok data =>
      rw [rebuild_of_decoded env noData fit outcome bad state]
      simp

theorem length_readSlots (node : Node) (manifest : Manifest) (ns : NamespaceId) (blobId : BlobId)
    (shards : ShardMap) :
    (readSlots node manifest ns blobId shards).length = manifest.shards.length := by
  rw [readSlots, List.length_map]

/-- With enough shards on the anchor no peer is asked. -/
theorem loans_eq_nil (enough : manifest.erasure.k.toNat ≤
      filled (readSlots node manifest ns blobId state.anchor)) :
    node.loans env transport ns blobId manifest state = [] := by
  unfold Node.loans
  split
  · exact loans_of_enough enough _
  · rfl

/-- A pass with bad shards borrows what is lent and rebuilds, or stops at a loan beyond them. -/
theorem settle_outcome (node : Node) (env : Environment) (transport : Bool) (manifest : Manifest)
    (state : World ShardMap)
    (someBad : badIndices node.sha256Hex state.anchor ns blobId manifest.shards ≠ []) :
    let bad := badIndices node.sha256Hex state.anchor ns blobId manifest.shards
    let slots := readSlots node manifest ns blobId state.anchor
    let lent := node.loans env transport ns blobId manifest state
    let settled := ((node.repair transport).settle ns blobId manifest slots bad).run
      (world env shardMap) { state with tick := state.tick + 1 + manifest.shards.length }
    (∀ loan ∈ lent, loan.1.toNat < manifest.shards.length) ∧
        (∃ later, settled.1 = (((node.repair transport).rebuild ns blobId manifest
          (patch slots lent) bad).run (world env shardMap) later).1) ∨
      (∃ loan ∈ lent, manifest.shards.length ≤ loan.1.toNat) ∧ Panics settled.1 := by
  intro bad slots lent settled
  let classified : World ShardMap := { state with tick := state.tick + 1 + manifest.shards.length }
  have settle_eq : settled = (if manifest.isReconstructable (filled slots) then
      (node.repair transport).rebuild ns blobId manifest slots bad
    else do
      let borrowed ← (node.repair transport).backfillFromPeers ns blobId manifest slots bad
      (node.repair transport).rebuild ns blobId manifest borrowed bad).run
        (world env shardMap) classified := by
    simp only [settled, settle]
    rw [if_neg someBad, healthy_eq_filled]
  by_cases enough : manifest.isReconstructable (filled slots) = true
  · left
    have nothing : lent = [] :=
      loans_eq_nil (by simpa [Manifest.isReconstructable] using enough)
    rw [settle_eq, if_pos enough, nothing]
    exact ⟨by simp, classified, rfl⟩
  · rw [if_neg enough] at settle_eq
    have borrowing : ((node.repair transport).backfillFromPeers ns blobId manifest slots bad).run
        (world env shardMap) classified =
          (if ∀ loan ∈ lent, loan.1.toNat < slots.length then .ok (patch slots lent)
            else .error (.panicked "index out of bounds"),
          (((node.repair transport).backfillFromPeers ns blobId manifest slots bad).run
            (world env shardMap) classified).2) := by
      refine Prod.ext ?_ rfl
      cases transport with
      | false => rfl
      | true => exact backfill_lends manifest.shards slots (filled slots) classified
    have length : slots.length = manifest.shards.length := length_readSlots _ _ _ _ _
    by_cases inside : ∀ loan ∈ lent, loan.1.toNat < manifest.shards.length
    · left
      rw [if_pos (by rw [length]; exact inside)] at borrowing
      rw [settle_eq, Program.run_bind_of_ok borrowing]
      exact ⟨inside, _, rfl⟩
    · right
      rw [if_neg (by rw [length]; exact inside)] at borrowing
      rw [settle_eq, Program.run_bind_of_error borrowing]
      push Not at inside
      exact ⟨inside, _, rfl⟩

end RepairShards

/-- A pass stays within its vectors exactly if every shard without a valid copy claims an index
within them, or peers lend no other one and what the anchor has and the peers lend does not
decode. -/
theorem repair_stays_within_iff (env : Environment)
    (noData : ∀ m, node.library.new 0 m ≠ .ok ())
    (fit : manifest.erasure.Valid → node.library.Fit manifest.erasure)
    (found : state.store.getManifest ns blobId = some manifest) :
    ¬Panics (((node.repair transport).execute ns blobId).run (world env shardMap) state).1 ↔
      (∀ index ∈ RepairShards.badIndices node.sha256Hex state.anchor ns blobId manifest.shards,
        index.toNat < manifest.shards.length) ∨
      (∀ loan ∈ node.loans env transport ns blobId manifest state,
        loan.1.toNat < manifest.shards.length) ∧
        ¬node.Decodes env transport ns blobId manifest state := by
  rw [RepairShards.execute_run transport found]
  by_cases noneBad : RepairShards.badIndices node.sha256Hex state.anchor ns blobId
      manifest.shards = []
  · rw [RepairShards.settle, if_pos noneBad]
    refine iff_of_true (not_panics_ok _) (Or.inl ?_)
    rw [noneBad]
    simp
  rcases RepairShards.settle_outcome node env transport manifest state noneBad with
    ⟨inside, later, same⟩ | ⟨⟨loan, lent, outside⟩, panics⟩
  · rw [same, RepairShards.rebuild_panics_iff env noData fit, length_patch,
      RepairShards.length_readSlots, RepairShards.exists_bad_iff]
    unfold Node.Decodes
    constructor
    · intro calm
      by_cases decodes : ∃ data, ReedSolomonCoder.decode node.library
          (patch (readSlots node manifest ns blobId state.anchor)
            (node.loans env transport ns blobId manifest state))
          manifest.erasure manifest.ciphertextLen.toNat = .ok data
      · left
        intro index isBad
        by_contra beyond
        exact calm ⟨decodes, index, isBad, by omega⟩
      · exact Or.inr ⟨inside, decodes⟩
    · rintro (within | ⟨-, undecodable⟩) ⟨decodes, index, isBad, beyond⟩
      · have := within index isBad
        omega
      · exact undecodable decodes
  · refine iff_of_false (not_not.mpr panics) ?_
    rintro (within | ⟨lentWithin, -⟩)
    · have isBad : loan.1 ∈ RepairShards.badIndices node.sha256Hex state.anchor ns blobId
          manifest.shards := by
        unfold Node.loans at lent
        split at lent
        · exact index_mem_of_loan lent
        · simp at lent
      have := within loan.1 isBad
      omega
    · have := lentWithin loan lent
      omega

end Pass

/-! ## A manifest of two shards -/

/-- The first of two copies claims an index, and both are recorded at a peer as well. -/
def claimingManifest (claimed : UInt16) : Manifest :=
  Manifest.new ⟨"blob-5"⟩ ⟨"ns-1"⟩ ⟨1, 2⟩
    [⟨claimed, sampleDigest [7], 1, [.anchor, .peer "peer-1"]⟩,
      ⟨1, sampleDigest [7], 1, [.anchor, .peer "peer-1"]⟩] 1 ⟨1000⟩

/-- The manifest is stored, and the anchor has these of its shards. -/
def claimingWorld (claimed : UInt16) (present : List UInt16) : World ShardMap where
  store := (sampleStore ⟨10, 10⟩ ⟨1, 0⟩).putManifest (claimingManifest claimed)
  anchor ref := if ref.index ∈ present then some [7] else none
  signed := []
  tick := 0

/-- A mesh whose peers have every shard. -/
def lendingEnvironment : Environment :=
  { sampleEnvironment with fetch := fun _ _ _ => .ok [7] }

theorem replication_noData (m : ℕ) : replication.new 0 m ≠ .ok () := by
  simp [replication]

/-- The first shard is missing, but it claims an index which is there. -/
theorem repair_stays_within_first :
    ¬Panics (((replicatingNode.repair true).execute ⟨"ns-1"⟩ ⟨"blob-5"⟩).run
      (world lendingEnvironment shardMap) (claimingWorld 0 [1])).1 :=
  (repair_stays_within_iff lendingEnvironment replication_noData
    (fun _ => replicatingNode_fit rfl)
    (rfl : (claimingWorld 0 [1]).store.getManifest _ _ = some (claimingManifest 0))).mpr
    (Or.inl (by
      intro index isBad
      rcases List.mem_map.mp isBad with ⟨shard, kept, rfl⟩
      have listed : shard ∈ (claimingManifest 0).shards := List.mem_of_mem_filter kept
      simp only [claimingManifest, Manifest.new, List.mem_cons, List.not_mem_nil,
        or_false] at listed
      rcases listed with rfl | rfl <;> decide))

/-- A missing shard which claims index 7 of two: with a valid copy of the other one the pass
rewrites it, and without one it borrows it. -/
theorem repair_leaves_vectors :
    (claimingWorld 7 []).store.Built ∧
      (((replicatingNode.repair false).execute ⟨"ns-1"⟩ ⟨"blob-5"⟩).run
        (world sampleEnvironment shardMap) (claimingWorld 7 [1])).1 =
          .error (.panicked "index out of bounds") ∧
      (((replicatingNode.repair true).execute ⟨"ns-1"⟩ ⟨"blob-5"⟩).run
        (world lendingEnvironment shardMap) (claimingWorld 7 [])).1 =
          .error (.panicked "index out of bounds") := by
  refine ⟨?_, by decide +kernel, by decide +kernel⟩
  exact .after (.putManifest _) (.after (.createNamespace _) (.after (.registerApp _) .empty))

end VaultMesh
