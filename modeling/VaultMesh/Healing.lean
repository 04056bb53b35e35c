import VaultMesh.RepairSweep

/-!
# Sweeps, repairs and reads side by side

After damage to the anchor, sweeps, repairs of single blobs and reads run at the same time, in
any order of their calls, while no other request changes the store. The invariant is
`Healing`: a shard only ever changes to what the store records, so the answers which all of
them get stay steady, and what one of them has heard to be good, or has written, is good for
the others from then on.
-/

namespace VaultMesh

open Interaction Coding

/-- What goes on while the store stays as it is. -/
inductive Chore where
  | sweep (transport : Bool)
  | repair (transport : Bool) (ns : NamespaceId) (blobId : BlobId)
  | restore (transport : Bool) (ns : NamespaceId) (token : CapabilityToken) (blobId : BlobId)

def Chore.program (node : Node) : Chore → UseCase Unit
  | .sweep transport => (RepairSweep.sweep (node.repair transport)).void
  | .repair transport ns blobId => ((node.repair transport).execute ns blobId).void
  | .restore transport ns token blobId => ((node.get transport).restore ns token blobId).void

/-- A blob of which enough shards are good. -/
def Repairable (node : Node) (state : World ShardMap) (blob : NamespaceId × BlobId) : Prop :=
  ∃ manifest, state.store.getManifest blob.1 blob.2 = some manifest ∧
    AtLeast manifest.erasure.k.toNat
      (fun shard => GoodShard node state ⟨blob.1, blob.2, shard.index⟩) manifest.shards

/-- All shards of the blob are good. -/
def Whole (node : Node) (state : World ShardMap) (blob : NamespaceId × BlobId) : Prop :=
  ∀ index bytes, Symbol node state.store ⟨blob.1, blob.2, index⟩ bytes →
    state.anchor ⟨blob.1, blob.2, index⟩ = some bytes

variable {node : Node} {env : Environment} {first state : World ShardMap} {trace : Trace}
  {index : ℕ} {call : PortCall}

/-! ## The invariant -/

/-- The store is as at first, every shard is as at first or good, and what was heard to be good
or was written is still there. -/
structure Healing (node : Node) (first state : World ShardMap) (trace : Trace) : Prop where
  store : state.store = first.store
  anchor : ∀ ref, state.anchor ref = first.anchor ref ∨ GoodShard node state ref
  steady : ∀ event ∈ trace, Steady node first event.2
  heard : ∀ index ref bytes, (index, ⟨.getShard ref, .ok bytes⟩) ∈ trace →
    Symbol node first.store ref bytes → state.anchor ref = some bytes
  written : ∀ index ref bytes answer, (index, ⟨.putShard ref bytes, answer⟩) ∈ trace →
    Symbol node first.store ref bytes ∧ state.anchor ref = some bytes

theorem healing_start (first : World ShardMap) : Healing node first first [] where
  store := rfl
  anchor _ := Or.inl rfl
  steady := by simp
  heard := by simp
  written := by simp

theorem Healing.allSteady (healing : Healing node first state trace) (index : ℕ) :
    AllSteady node first (pastOf index trace) :=
  fun _ present => healing.steady _ (mem_pastOf.mp present)

/-- A good shard stays as it was. -/
theorem Healing.good (collisionFree : CollisionFree node.sha256Hex)
    (healing : Healing node first state trace) {ref : ShardRef} {bytes : Bytes}
    (symbol : Symbol node first.store ref bytes) (present : first.anchor ref = some bytes) :
    state.anchor ref = some bytes := by
  rcases healing.anchor ref with same | ⟨other, symbolToo, held⟩
  · rw [same, present]
  · rw [healing.store] at symbolToo
    rw [held, symbol.unique collisionFree symbolToo]

/-- What the world answers is steady. -/
theorem Healing.steady_reply (collisionFree : CollisionFree node.sha256Hex)
    (healing : Healing node first state trace) (call : PortCall) :
    Steady node first ⟨call, state.reply env shardMap call⟩ := by
  cases call with
  | getManifest ns blobId =>
      rw [Steady, ← healing.store]
      rfl
  | listNamespaces =>
      refine ⟨_, rfl, ?_⟩
      rw [← healing.store]
      exact env.namespaceOrder_perm _ _
  | listBlobs ns =>
      refine ⟨_, rfl, ?_⟩
      rw [← healing.store]
      exact env.blobOrder_perm _ _
  | getShard ref =>
      refine ⟨?_, ?_⟩
      · change state.anchor.read ref = _ ∨ ∃ bytes, state.anchor.read ref = _
        rw [ShardMap.read]
        split
        · exact Or.inr ⟨_, rfl⟩
        · exact Or.inl rfl
      · intro bytes symbol present
        change state.anchor.read ref = _
        rw [ShardMap.read, healing.good collisionFree symbol present]
  | putShard ref bytes => rfl
  | _ => trivial

theorem Healing.step_reads (collisionFree : CollisionFree node.sha256Hex)
    (healing : Healing node first state trace) (reads : ReadOnly call) :
    Healing node first (state.after shardMap call)
      (trace ++ [(index, ⟨call, state.reply env shardMap call⟩)]) := by
  have sameStore : (state.after shardMap call).store = state.store :=
    MemoryMetadataStore.after_of_readOnly reads state.store
  have sameAnchor : (state.after shardMap call).anchor = state.anchor :=
    AnchorModel.after_of_readOnly reads state.anchor
  refine ⟨sameStore.trans healing.store, ?_, ?_, ?_, ?_⟩
  · intro ref
    rw [sameAnchor, GoodShard, sameStore, sameAnchor]
    exact healing.anchor ref
  · intro event present
    rcases List.mem_append.mp present with before | here
    · exact healing.steady event before
    · rw [List.mem_singleton.mp here]
      exact healing.steady_reply collisionFree call
  · intro other ref bytes present symbol
    rw [sameAnchor]
    rcases mem_trace_append present with before | ⟨-, rfl, told⟩
    · exact healing.heard other ref bytes before symbol
    · have held : state.anchor.read ref = .ok bytes := told.symm
      rw [ShardMap.read] at held
      split at held
      · next found => rw [found, Except.ok.inj held]
      · cases held
  · intro other ref bytes answer present
    rw [sameAnchor]
    rcases mem_trace_append present with before | ⟨-, rfl, -⟩
    · exact healing.written other ref bytes answer before
    · exact reads.elim

theorem Healing.step_writes (collisionFree : CollisionFree node.sha256Hex)
    (healing : Healing node first state trace) {ref : ShardRef} {bytes : Bytes}
    (symbol : Symbol node first.store ref bytes) :
    Healing node first (state.after shardMap (.putShard ref bytes))
      (trace ++ [(index,
        ⟨.putShard ref bytes, state.reply env shardMap (.putShard ref bytes)⟩)]) := by
  have anchor : (state.after shardMap (.putShard ref bytes)).anchor =
      Function.update state.anchor ref (some bytes) := rfl
  have kept : ∀ {other : ShardRef} {held : Bytes}, Symbol node first.store other held →
      state.anchor other = some held →
      (state.after shardMap (.putShard ref bytes)).anchor other = some held := by
    intro other held symbolToo present
    rw [anchor]
    by_cases same : other = ref
    · subst same
      rw [Function.update_self, symbol.unique collisionFree symbolToo]
    · rw [Function.update_of_ne same, present]
  refine ⟨healing.store, ?_, ?_, ?_, ?_⟩
  · intro other
    by_cases same : other = ref
    · subst same
      refine Or.inr ⟨bytes, ?_, ?_⟩
      · rw [← healing.store] at symbol
        exact symbol
      · rw [anchor, Function.update_self]
    · rcases healing.anchor other with unchanged | ⟨held, symbolToo, present⟩
      · left
        rw [anchor, Function.update_of_ne same, unchanged]
      · refine Or.inr ⟨held, symbolToo, ?_⟩
        rw [anchor, Function.update_of_ne same, present]
  · intro event present
    rcases List.mem_append.mp present with before | here
    · exact healing.steady event before
    · rw [List.mem_singleton.mp here]
      exact healing.steady_reply collisionFree _
  · intro other asked held present symbolToo
    rcases mem_trace_append present with before | ⟨-, impossible, -⟩
    · exact kept symbolToo (healing.heard other asked held before symbolToo)
    · cases impossible
  · intro other asked held answer present
    rcases mem_trace_append present with before | ⟨-, same, -⟩
    · rcases healing.written other asked held answer before with ⟨symbolToo, there⟩
      exact ⟨symbolToo, kept symbolToo there⟩
    · cases same
      refine ⟨symbol, ?_⟩
      rw [anchor, Function.update_self]

theorem Healing.step (collisionFree : CollisionFree node.sha256Hex)
    (healing : Healing node first state trace)
    (permitted : Tending node first (pastOf index trace) call) :
    Healing node first (state.after shardMap call)
      (trace ++ [(index, ⟨call, state.reply env shardMap call⟩)]) := by
  have tended := permitted (healing.allSteady index)
  cases call with
  | putShard ref bytes => exact healing.step_writes collisionFree tended
  | _ => exact healing.step_reads collisionFree tended

/-- A shard is good exactly if a repair finds it so. -/
theorem goodShard_iff (collisionFree : CollisionFree node.sha256Hex)
    (recorded : Recorded node state.store) {ns : NamespaceId} {blobId : BlobId}
    {manifest : Manifest} (stored : state.store.getManifest ns blobId = some manifest)
    {shard : Shard} (listed : shard ∈ manifest.shards) :
    GoodShard node state ⟨ns, blobId, shard.index⟩ ↔
      ∃ bytes, state.anchor ⟨ns, blobId, shard.index⟩ = some bytes ∧
        node.sha256Hex bytes = shard.sha256 := by
  rcases recorded ns blobId manifest stored with ⟨ciphertext, word, holds⟩
  constructor
  · rintro ⟨bytes, symbol, present⟩
    exact ⟨bytes, present, (symbol.recorded stored holds listed rfl).symm⟩
  · rintro ⟨bytes, present, hash⟩
    rcases (holds.encodes.records.mem holds.few listed).2 with ⟨other, symbol, recordedHash⟩
    rcases collisionFree (hash.trans recordedHash) with rfl
    exact ⟨bytes, Symbol.of_holds stored holds symbol, present⟩

/-! ## The run -/

theorem restore_tending (transport : Bool) (ns : NamespaceId) (token : CapabilityToken)
    (blobId : BlobId) :
    ((node.get transport).restore ns token blobId).Obeys (Tending node first) []
      fun _ _ => True :=
  ((node.get transport).restore_obeys permits_readOnly ns token blobId []).mono
    (fun _ call reads => permits_tending _ call reads) fun _ _ _ => trivial

theorem Chore.program_obeys (collisionFree : CollisionFree node.sha256Hex)
    (recorded : Recorded node first.store) (chore : Chore) :
    (chore.program node).Obeys (Tending node first) [] fun _ _ => True := by
  have voided : ∀ {α : Type} {program : UseCase α} {post : List PortExchange →
      Except Failure α → Prop}, program.Obeys (Tending node first) [] post →
      program.void.Obeys (Tending node first) [] fun _ _ => True :=
    fun obeys => obeys.bind (fun _ _ _ => trivial) fun _ _ _ => trivial
  cases chore with
  | sweep transport => exact voided (RepairSweep.sweep_steady collisionFree recorded transport [])
  | repair transport ns blobId =>
      exact voided (RepairShards.execute_steady collisionFree recorded transport ns blobId [])
  | restore transport ns token blobId => exact voided (restore_tending transport ns token blobId)

theorem healing_exec (collisionFree : CollisionFree node.sha256Hex)
    (recorded : Recorded node first.store) (env : Environment) (chores : List Chore)
    (schedule : List ℕ) :
    Healing node first
      (System.exec (world env shardMap) (System.start first (chores.map (Chore.program node)))
        schedule).state
      (System.exec (world env shardMap) (System.start first (chores.map (Chore.program node)))
        schedule).trace := by
  have obedient : System.Obedient (fun _ => Tending node first)
      (System.start first (chores.map (Chore.program node)) :
        System ports Failure (World ShardMap)) := by
    refine System.obedient_start ?_
    intro index program found
    rw [List.getElem?_map] at found
    rcases Option.map_eq_some_iff.mp found with ⟨chore, -, rfl⟩
    exact chore.program_obeys collisionFree recorded
  refine (obedient.exec (healing_start first) ?_ schedule).2
  rintro state trace index call - healing permitted
  exact healing.step collisionFree permitted

/-! ## What a sweep leaves -/

/-- What was seen is good from then on. -/
theorem Healing.whole (collisionFree : CollisionFree node.sha256Hex)
    (healing : Healing node first state trace) {ns : NamespaceId} {blobId : BlobId}
    {manifest : Manifest} (stored : first.store.getManifest ns blobId = some manifest)
    (seen : ∀ shard ∈ manifest.shards,
      RepairShards.Seen node.sha256Hex ns blobId (pastOf index trace) shard) :
    Whole node state (ns, blobId) := by
  intro place bytes symbol
  rw [healing.store] at symbol
  rcases symbol with ⟨other, ciphertext, word, storedToo, holds, found⟩
  rcases Option.some.inj (stored.symm.trans storedToo) with rfl
  have symbol : Symbol node first.store ⟨ns, blobId, place⟩ bytes :=
    Symbol.of_holds stored holds found
  rcases holds.exists_shard found with ⟨shard, listed, rfl, hash⟩
  rcases seen shard listed with ⟨heard, read, same⟩ | ⟨written, put⟩
  · rcases collisionFree (same.trans hash) with rfl
    exact healing.heard index _ heard (mem_pastOf.mp read) symbol
  · rcases healing.written index _ written _ (mem_pastOf.mp put) with ⟨symbolToo, there⟩
    rw [there, symbol.unique collisionFree symbolToo]

/-- What a sweep counts, when it has ended at this state: the blobs which it calls unrepairable
had lost too much before it began, and all others are whole. -/
structure Healed (node : Node) (first last : World ShardMap) (counts : SweepCounts) : Prop where
  checked : counts.checked = first.store.blobs.length
  honest : ∃ lost : List (NamespaceId × BlobId), lost.Subperm first.store.blobs ∧
    counts.unrepairable = lost.length ∧ (∀ blob ∈ lost, ¬Repairable node first blob) ∧
    ∀ blob ∈ first.store.blobs, blob ∉ lost → Whole node last blob

theorem Healing.healed (collisionFree : CollisionFree node.sha256Hex)
    (healing : Healing node first state trace) {visits : List Visit}
    (cared : RepairSweep.Cared node first (pastOf index trace) visits)
    (places : (visits.map fun visit => (visit.ns, visit.blobId)).Perm first.store.blobs) :
    Healed node first state ((⟨0, 0, 0⟩ : SweepCounts).plus visits) := by
  let lost := visits.filter fun visit => visit.report.unrepairable
  refine ⟨?_, lost.map fun visit => (visit.ns, visit.blobId), ?_, ?_, ?_, ?_⟩
  · rw [← places.length_eq, List.length_map, SweepCounts.plus, Nat.zero_add]
  · exact (List.filter_sublist.map _).subperm.trans places.subperm
  · simp [SweepCounts.plus, lost, List.countP_eq_length_filter]
  · intro blob isLost
    rcases List.mem_map.mp isLost with ⟨visit, inside, rfl⟩
    rcases List.mem_filter.mp inside with ⟨listed, unrepairable⟩
    rintro ⟨manifest, stored, enough⟩
    rcases cared visit listed with ⟨other, storedToo, cares⟩
    rcases Option.some.inj (stored.symm.trans storedToo) with rfl
    rw [cares.enough enough] at unrepairable
    cases unrepairable
  · intro blob listed notLost
    rcases List.mem_map.mp (places.mem_iff.mpr listed) with ⟨visit, visited, rfl⟩
    rcases cared visit visited with ⟨manifest, stored, cares⟩
    have repairable : visit.report.unrepairable = false := by
      rw [← Bool.not_eq_true]
      intro unrepairable
      exact notLost (List.mem_map_of_mem (List.mem_filter.mpr ⟨visited, unrepairable⟩))
    exact healing.whole collisionFree stored (cares.seen repairable)

/-- What requests have stored is recorded, also when the anchor was damaged since. -/
theorem recorded_of_requests {A : Type} {origin : World A} (fresh : Function.Injective env.uuid)
    (none : ∀ ns blobId, origin.store.getManifest ns blobId = none)
    (supported : ∀ app contract, origin.store.getContract app = some contract →
      node.Supports contract)
    (anchors : AnchorModel A) (requests : List Request) (schedule : List ℕ)
    (sameStore : first.store = (System.exec (world env anchors)
      (System.start origin (requests.map (Request.program node))) schedule).state.store) :
    Recorded node first.store := by
  rcases ledger_exec fresh none anchors node requests schedule with ⟨obedient, ledger⟩
  intro ns blobId manifest stored
  rw [sameStore] at stored
  rcases ledger.holds_of_stored obedient.lawful supported stored with ⟨ciphertext, word, -, holds⟩
  exact ⟨ciphertext.bytes, word, holds⟩

/-- In every order of the calls of sweeps, repairs and reads, after any damage to the anchor,
good shards stay good and only good ones are written; a sweep which ends has listed as
unrepairable only blobs of which too little was left, and has left all others whole. -/
theorem sweeps_heal {A : Type} {origin : World A} (collisionFree : CollisionFree node.sha256Hex)
    (fresh : Function.Injective env.uuid)
    (none : ∀ ns blobId, origin.store.getManifest ns blobId = none)
    (supported : ∀ app contract, origin.store.getContract app = some contract →
      node.Supports contract)
    (anchors : AnchorModel A) (requests : List Request) (earlier : List ℕ)
    (sameStore : first.store = (System.exec (world env anchors)
      (System.start origin (requests.map (Request.program node))) earlier).state.store)
    (later : Environment) (chores : List Chore) (schedule : List ℕ)
    {last : System ports Failure (World ShardMap)}
    (ran : System.exec (world later shardMap)
      (System.start first (chores.map (Chore.program node))) schedule = last) :
    last.state.store = first.store ∧
    (∀ ref, GoodShard node first ref → last.state.anchor ref = first.anchor ref) ∧
    (∀ ref, last.state.anchor ref ≠ first.anchor ref → GoodShard node last.state ref) ∧
    ∀ index transport result, chores[index]? = some (.sweep transport) →
      last.Ended index result →
        ∃ counts time, (RepairSweep.sweep (node.repair transport)).Reaches
            (pastOf index last.trace) (.done (.ok (some (counts, time)))) ∧
          Healed node first last.state counts := by
  have recorded := recorded_of_requests fresh none supported anchors requests earlier sameStore
  have healing := healing_exec collisionFree recorded later chores schedule
  rw [ran] at healing
  refine ⟨healing.store, ?_, ?_, ?_⟩
  · rintro ref ⟨bytes, symbol, present⟩
    rw [healing.good collisionFree symbol present, present]
  · intro ref changed
    exact (healing.anchor ref).resolve_left changed
  · intro index transport result listed ended
    have program : (chores.map (Chore.program node))[index]? =
        some (RepairSweep.sweep (node.repair transport)).void := by
      rw [List.getElem?_map, listed]
      rfl
    rcases System.exec_reaches_void program schedule with ⟨rest, found, reaches⟩
    rw [ran] at found reaches
    cases rest with
    | call request next => cases Option.some.inj (found.symm.trans ended)
    | done outcome =>
        have obeys := (RepairSweep.sweep_steady collisionFree recorded transport []).reaches reaches
        rcases obeys (healing.allSteady index) with ⟨visits, time, rfl, places, cared⟩
        exact ⟨_, time, reaches, healing.healed collisionFree cared places⟩

def mapStored : World ShardMap :=
  (System.exec (world sampleEnvironment shardMap)
    (System.start ⟨sampleStore ⟨10, 10⟩ ⟨1, 0⟩, fun _ => none, [], 0⟩
      ([samplePut 7].map (Request.program replicatingNode))) (List.replicate 10 0)).state

def mapDamaged : World ShardMap :=
  { mapStored with
    anchor := Function.update mapStored.anchor ⟨⟨"ns-1"⟩, ⟨"blob-5"⟩, 0⟩ (some [9]) }

def mapHealed : System ports Failure (World ShardMap) :=
  System.exec (world sampleEnvironment shardMap)
    (System.start mapDamaged
      ([.sweep true, .repair false ⟨"ns-1"⟩ ⟨"blob-5"⟩].map (Chore.program replicatingNode)))
    [0, 0, 0, 1, 1, 1, 0, 0, 1, 0, 0]

theorem sweeps_heal_damaged :
    mapDamaged.anchor ⟨⟨"ns-1"⟩, ⟨"blob-5"⟩, 0⟩ = some [9] ∧
      mapHealed.state.anchor ⟨⟨"ns-1"⟩, ⟨"blob-5"⟩, 0⟩ = some [7] := by
  refine ⟨rfl, ?_⟩
  have supported : ∀ app contract,
      (sampleStore ⟨10, 10⟩ ⟨1, 0⟩).getContract app = some contract →
        replicatingNode.Supports contract := fun _ _ known => replicatingNode_supports known
  have nothing : ∀ ns blobId, (sampleStore ⟨10, 10⟩ ⟨1, 0⟩).getManifest ns blobId = none :=
    fun _ _ => rfl
  have sameStore : mapDamaged.store = (System.exec (world sampleEnvironment shardMap)
      (System.start ⟨sampleStore ⟨10, 10⟩ ⟨1, 0⟩, fun _ => none, [], 0⟩
        ([samplePut 7].map (Request.program replicatingNode)))
      (List.replicate 10 0)).state.store := by
    rw [mapDamaged, mapStored]
  have ran : System.exec (world sampleEnvironment shardMap) (System.start mapDamaged
      ([.sweep true, .repair false ⟨"ns-1"⟩ ⟨"blob-5"⟩].map (Chore.program replicatingNode)))
      [0, 0, 0, 1, 1, 1, 0, 0, 1, 0, 0] = mapHealed := by
    rw [mapHealed]
  have returned : mapHealed.programs[0]?.bind Program.result? = some (.ok ()) := by
    decide +kernel
  have stored : mapDamaged.store.getManifest ⟨"ns-1"⟩ ⟨"blob-5"⟩ =
        some (sampleManifest [.anchor]) ∧ (⟨"ns-1"⟩, ⟨"blob-5"⟩) ∈ mapDamaged.store.blobs := by
    decide +kernel
  have recorded := recorded_of_requests injective_toString nothing supported shardMap
    [samplePut 7] (List.replicate 10 0) sameStore
  have ended : mapHealed.Ended 0 (.ok ()) := by
    rcases Option.bind_eq_some_iff.mp returned with ⟨program, found, result⟩
    cases program with
    | call request next => cases result
    | done outcome =>
        cases result
        exact found
  rcases sweeps_heal collisionFree_sampleDigest injective_toString nothing supported shardMap
    [samplePut 7] (List.replicate 10 0) sameStore sampleEnvironment _ _ ran with
    ⟨sameStoreAfter, -, -, sweeps⟩
  rcases sweeps 0 true (.ok ()) rfl ended with
    ⟨counts, time, -, -, lost, -, -, unrepairable, whole⟩
  -- The other copy is still good, so the sweep had enough.
  have good : GoodShard replicatingNode mapDamaged ⟨⟨"ns-1"⟩, ⟨"blob-5"⟩, 1⟩ := by
    apply (goodShard_iff collisionFree_sampleDigest recorded stored.1
      (List.mem_cons_of_mem _ List.mem_cons_self)).mpr
    exact ⟨[7], by decide +kernel, rfl⟩
  have repairable : Repairable replicatingNode mapDamaged (⟨"ns-1"⟩, ⟨"blob-5"⟩) := by
    refine ⟨sampleManifest [.anchor], stored.1, [⟨1, sampleDigest [7], 1, [.anchor]⟩], ?_, ?_, ?_⟩
    · exact (List.Sublist.refl _).cons _
    · decide
    · intro shard listed
      rw [List.mem_singleton.mp listed]
      exact good
  have notLost : (⟨"ns-1"⟩, ⟨"blob-5"⟩) ∉ lost := fun inside =>
    unrepairable _ inside repairable
  rcases recorded _ _ _ stored.1 with ⟨ciphertext, word, holds⟩
  rcases (holds.encodes.records.mem holds.few List.mem_cons_self).2 with ⟨bytes, symbol, hash⟩
  have same : [7] = bytes := collisionFree_sampleDigest hash
  rw [← same] at symbol
  have recordedSymbol : Symbol replicatingNode mapDamaged.store ⟨⟨"ns-1"⟩, ⟨"blob-5"⟩, 0⟩ [7] :=
    Symbol.of_holds stored.1 holds symbol
  have healed : Whole replicatingNode mapHealed.state (⟨"ns-1"⟩, ⟨"blob-5"⟩) :=
    whole _ stored.2 notLost
  rw [Whole, sameStoreAfter] at healed
  dsimp only at healed
  exact healed 0 [7] recordedSymbol

end VaultMesh
