import VaultMesh.RestoreAndRepair

/-!
# Degradation which a restore does not notice

A node repairs a blob after a restore which missed shards. But a restore counts
a shard as present if any place has it, and a repair looks at the anchor only.
So a blob which has lost shards on the anchor goes unnoticed exactly if the
peers served every one of them (`PeerServed`).
-/

namespace VaultMesh

open Interaction Coding

variable {env : Environment} {ns : NamespaceId} {blobId : BlobId} {word : List Bytes} {node : Node}
  {manifest : Manifest} {state : World ShardMap} {transport : Bool}

/-- The anchor has a valid copy of the shard. -/
def Anchored (node : Node) (ns : NamespaceId) (blobId : BlobId) (shards : ShardMap)
    (shard : Shard) : Prop :=
  ∃ bytes, shards ⟨ns, blobId, shard.index⟩ = some bytes ∧ node.sha256Hex bytes = shard.sha256

/-- Among these exchanges a peer answered with a valid copy of the shard. -/
def PeerServed (node : Node) (ns : NamespaceId) (blobId : BlobId) (made : List PortExchange)
    (shard : Shard) : Prop :=
  ∃ peer bytes,
    (⟨.fetchShard peer ⟨ns, blobId, shard.index⟩, .ok bytes⟩ : PortExchange) ∈ made ∧
      node.sha256Hex bytes = shard.sha256

theorem anchored_iff_validCopy {shards : ShardMap} {shard : Shard} :
    Anchored node ns blobId shards shard ↔
      (RepairShards.validCopy node.sha256Hex shards ns blobId shard).isSome := by
  simp only [Anchored, RepairShards.validCopy]
  cases shards ⟨ns, blobId, shard.index⟩ with
  | none => simp
  | some bytes => simp [Option.isSome_filter]

theorem peerServed_append {first later : List PortExchange} {shard : Shard} :
    PeerServed node ns blobId (first ++ later) shard ↔
      PeerServed node ns blobId first shard ∨ PeerServed node ns blobId later shard := by
  simp only [PeerServed, List.mem_append, or_and_right, exists_or]

/-- The call asks a peer about another shard, or it asks no peer at all. -/
def FetchesOnly (indices : List UInt16) (request : PortCall) : Prop :=
  ∀ peer ref, request = .fetchShard peer ref → ref.index ∈ indices

theorem not_peerServed {made : List PortExchange} {indices : List UInt16} {shard : Shard}
    (only : ∀ exchange ∈ made, FetchesOnly indices exchange.1) (other : shard.index ∉ indices) :
    ¬PeerServed node ns blobId made shard := by
  rintro ⟨peer, bytes, present, -⟩
  exact other (only _ present peer _ rfl)

section Serving

variable {σ : Type} {handler : Handler ports σ}

theorem fetchReplica_fetchesOnly (sha256Hex : Bytes → String) (ref : ShardRef) (shard : Shard)
    (locations : List ShardLocation) (past : List PortExchange) :
    (fetchReplica sha256Hex ref shard locations).Obeys (fun _ => FetchesOnly [ref.index]) past
      fun _ _ => True := by
  refine fetchReplica_obeys ?_ sha256Hex shard locations past
  rintro _ _ _ _ ⟨⟩
  exact List.mem_singleton_self _

theorem fetchReplica_served (ns : NamespaceId) (blobId : BlobId) (shard : Shard)
    (locations : List ShardLocation) {before after : σ} {slot : Option Bytes}
    (ran : (fetchReplica node.sha256Hex ⟨ns, blobId, shard.index⟩ shard locations).run handler
      before = (.ok slot, after)) :
    slot.isSome ↔ PeerServed node ns blobId ((fetchReplica node.sha256Hex
      ⟨ns, blobId, shard.index⟩ shard locations).transcript handler before) shard := by
  induction locations generalizing before with
  | nil =>
      rcases Prod.mk.inj ran with ⟨ended, -⟩
      rcases Except.ok.inj ended with rfl
      simp [PeerServed, fetchReplica, Program.transcript, pure]
  | cons location locations ih =>
      cases location with
      | anchor => exact ih ran
      | peer peer =>
          simp only [fetchReplica, fetchShard, Program.call_bind, Program.done_ok_bind,
            Program.run_call, Program.transcript] at ran ⊢
          -- The other peers are asked only if this one has no valid copy.
          have goOn : ∀ rest : List PortExchange, (slot.isSome ↔ PeerServed node ns blobId rest
                shard) →
              (∀ bytes, (handler.answer before (.fetchShard peer ⟨ns, blobId, shard.index⟩)).1 =
                .ok bytes → node.sha256Hex bytes ≠ shard.sha256) →
              (slot.isSome ↔ PeerServed node ns blobId
                (⟨.fetchShard peer ⟨ns, blobId, shard.index⟩,
                  (handler.answer before (.fetchShard peer ⟨ns, blobId, shard.index⟩)).1⟩ :: rest)
                shard) := by
            intro rest served invalid
            rw [← List.singleton_append, peerServed_append, served, or_iff_right]
            rintro ⟨other, bytes, present, hash⟩
            rcases List.mem_singleton.mp present with same
            simp only [Sigma.mk.injEq, PortCall.fetchShard.injEq, and_true] at same
            rcases same with ⟨rfl, same⟩
            exact invalid bytes (eq_of_heq same).symm hash
          cases answered : (handler.answer before
              (.fetchShard peer ⟨ns, blobId, shard.index⟩)).1 with
          | error error =>
              simp only [answered] at ran goOn ⊢
              exact goOn _ (ih ran) (by rintro _ ⟨⟩)
          | ok bytes =>
              simp only [answered] at ran goOn ⊢
              by_cases hash : node.sha256Hex bytes = shard.sha256
              · rw [if_pos hash] at ran ⊢
                rcases Prod.mk.inj ran with ⟨ended, -⟩
                rcases Except.ok.inj ended with rfl
                simp only [Option.isSome_some, true_iff]
                exact ⟨peer, bytes, List.mem_cons_self, hash⟩
              · rw [if_neg hash] at ran ⊢
                apply goOn _ (ih ran)
                intro other same
                rcases Except.ok.inj same with rfl
                exact hash

end Serving

/-- Authorization asks no peer. -/
theorem authorize_not_served {σ : Type} (handler : Handler ports σ) (token : CapabilityToken)
    (moment : σ) (shard : Shard) :
    ¬PeerServed node ns blobId ((authorize ns token .get).transcript handler moment) shard := by
  rintro ⟨peer, bytes, present, -⟩
  have guarded : (authorize ns token .get).Obeys (fun _ => GuardCall) []
      (Authorized ns token .get []) :=
    authorize_obeys (fun _ _ guard => guard) ns token .get []
  rcases guarded.permitted handler moment present with ⟨_, guard⟩
  exact guard

namespace GetBackup

theorem loadFromAnchor_fetchesOnly (self : GetBackup) (ref : ShardRef) (shard : Shard)
    (past : List PortExchange) :
    (self.loadFromAnchor ref shard).Obeys (fun _ => FetchesOnly []) past fun _ _ => True := by
  refine Program.Obeys.call_bind (by rintro _ _ ⟨⟩) (fun _ _ _ => trivial) ?_
  intro _ outcome _
  cases outcome with
  | error error => exact trivial
  | ok bytes =>
      dsimp only
      split <;> exact trivial

theorem loadShard_fetchesOnly (self : GetBackup) (ref : ShardRef) (shard : Shard)
    (past : List PortExchange) :
    (self.loadShard ref shard).Obeys (fun _ => FetchesOnly [ref.index]) past fun _ _ => True := by
  have peers : (self.loadFromPeers ref shard).Obeys (fun _ => FetchesOnly [ref.index]) past
      fun _ _ => True := by
    unfold loadFromPeers
    split
    · exact fetchReplica_fetchesOnly _ _ _ _ _
    · exact trivial
  refine peers.bind (fun _ _ _ => trivial) ?_
  intro _ replica _
  cases replica with
  | some bytes => exact trivial
  | none =>
      refine (self.loadFromAnchor_fetchesOnly ref shard _).weaken ?_
      intro _ request only peer other asked
      exact absurd (only peer other asked) List.not_mem_nil

theorem collect_fetchesOnly (self : GetBackup) (ns : NamespaceId) (blobId : BlobId)
    (recorded : List Shard) (past : List PortExchange) :
    (self.collect ns blobId recorded).Obeys
      (fun _ => FetchesOnly (recorded.map Shard.index)) past fun _ _ => True := by
  induction recorded generalizing past with
  | nil => exact trivial
  | cons shard recorded ih =>
      refine ((self.loadShard_fetchesOnly _ shard past).weaken ?_).bind (fun _ _ _ => trivial) ?_
      · intro _ request only peer ref asked
        rw [List.map_cons, List.mem_singleton.mp (only peer ref asked)]
        exact List.mem_cons_self
      · intro _ slot _
        refine ((ih _).weaken ?_).bind (fun _ _ _ => trivial) fun _ _ _ => trivial
        intro _ request only peer ref asked
        exact List.mem_cons_of_mem _ (only peer ref asked)

theorem loadFromAnchor_run (shard : Shard) (state : World ShardMap) :
    ((node.get transport).loadFromAnchor ⟨ns, blobId, shard.index⟩ shard).run
        (world env shardMap) state =
      (.ok (RepairShards.validCopy node.sha256Hex state.anchor ns blobId shard),
        { state with tick := state.tick + 1 }) := by
  have read : (VaultMesh.getShard ⟨ns, blobId, shard.index⟩).run (world env shardMap) state =
      (.ok (state.anchor.read ⟨ns, blobId, shard.index⟩),
        { state with tick := state.tick + 1 }) := rfl
  rw [loadFromAnchor, Program.run_bind_of_ok read, ShardMap.read, RepairShards.validCopy]
  cases state.anchor ⟨ns, blobId, shard.index⟩ with
  | none => rfl
  | some bytes =>
      dsimp only [Node.get]
      by_cases hash : node.sha256Hex bytes = shard.sha256 <;> simp [hash, Option.filter]

/-- A slot is filled if a peer serves the shard, or if the anchor has it. -/
theorem loadShard_served (env : Environment) (node : Node) (transport : Bool) (ns : NamespaceId)
    (blobId : BlobId) (shard : Shard) (state : World ShardMap) :
    ∃ slot last,
      ((node.get transport).loadShard ⟨ns, blobId, shard.index⟩ shard).run (world env shardMap)
          state = (.ok slot, last) ∧
        last.anchor = state.anchor ∧
        (slot.isSome ↔ PeerServed node ns blobId
            (((node.get transport).loadShard ⟨ns, blobId, shard.index⟩ shard).transcript
              (world env shardMap) state) shard ∨
          Anchored node ns blobId state.anchor shard) := by
  rcases loadFromPeers_run (world env shardMap) (node.get transport) ⟨ns, blobId, shard.index⟩
    shard state with ⟨replica, ended, -, -⟩
  rcases asked : ((node.get transport).loadFromPeers ⟨ns, blobId, shard.index⟩ shard).run
    (world env shardMap) state with ⟨result, middle⟩
  rw [asked] at ended
  rcases (ended : result = .ok replica) with rfl
  have served : replica.isSome ↔ PeerServed node ns blobId (((node.get transport).loadFromPeers
      ⟨ns, blobId, shard.index⟩ shard).transcript (world env shardMap) state) shard := by
    cases transport with
    | false =>
        rcases Prod.mk.inj asked with ⟨nothing, -⟩
        rcases Except.ok.inj nothing with rfl
        simp [PeerServed, loadFromPeers, Node.get, Program.transcript, pure]
    | true => exact fetchReplica_served ns blobId shard shard.locations asked
  have middleAnchor := (readOnly_run ((node.get transport).loadFromPeers_obeys permits_readOnly
    ⟨ns, blobId, shard.index⟩ shard []) env shardMap state).1.2
  rw [asked] at middleAnchor
  rw [loadShard, Program.transcript_bind_of_ok asked, Program.run_bind_of_ok asked,
    peerServed_append, ← served]
  cases replica with
  | some bytes => exact ⟨some bytes, middle, rfl, middleAnchor, by simp⟩
  | none =>
      have alone : ¬PeerServed node ns blobId (((node.get transport).loadFromAnchor
          ⟨ns, blobId, shard.index⟩ shard).transcript (world env shardMap) middle) shard := by
        refine not_peerServed (fun made present => ?_) (List.not_mem_nil : shard.index ∉ [])
        rcases (loadFromAnchor_fetchesOnly (node.get transport) ⟨ns, blobId, shard.index⟩ shard
          []).permitted (world env shardMap) middle present with ⟨_, only⟩
        exact only
      refine ⟨_, _, loadFromAnchor_run shard middle, middleAnchor, ?_⟩
      rw [anchored_iff_validCopy, ← middleAnchor]
      simp [alone]

/-- A restore fills the slots of the shards which a peer serves or the anchor has. -/
theorem collect_served (env : Environment) (node : Node) (transport : Bool) (ns : NamespaceId)
    (blobId : BlobId) {recorded : List Shard} (nodup : (recorded.map Shard.index).Nodup)
    (state : World ShardMap) :
    ∃ slots last,
      ((node.get transport).collect ns blobId recorded).run (world env shardMap) state =
          (.ok slots, last) ∧
        List.Forall₂ (fun shard slot => slot.isSome ↔ PeerServed node ns blobId
            (((node.get transport).collect ns blobId recorded).transcript (world env shardMap)
              state) shard ∨ Anchored node ns blobId state.anchor shard) recorded slots := by
  induction recorded generalizing state with
  | nil => exact ⟨[], state, rfl, List.Forall₂.nil⟩
  | cons shard recorded ih =>
      rw [List.map_cons, List.nodup_cons] at nodup
      rcases loadShard_served env node transport ns blobId shard state with
        ⟨slot, middle, loaded, sameAnchor, here⟩
      rcases ih nodup.2 middle with ⟨slots, last, collected, rest⟩
      have ran : ((node.get transport).collect ns blobId (shard :: recorded)).run
          (world env shardMap) state = (.ok (slot :: slots), last) := by
        rw [collect, Program.run_bind_of_ok loaded, Program.run_bind_of_ok collected]
        rfl
      refine ⟨slot :: slots, last, ran, ?_⟩
      have split : ((node.get transport).collect ns blobId (shard :: recorded)).transcript
          (world env shardMap) state =
          ((node.get transport).loadShard ⟨ns, blobId, shard.index⟩ shard).transcript
            (world env shardMap) state ++
          ((node.get transport).collect ns blobId recorded).transcript (world env shardMap)
            middle := by
        rw [collect, Program.transcript_bind_of_ok loaded, Program.transcript_bind_of_ok collected]
        simp [Program.transcript, pure]
      rw [split]
      constructor
      · have others : ¬PeerServed node ns blobId (((node.get transport).collect ns blobId
            recorded).transcript (world env shardMap) middle) shard := by
          refine not_peerServed (fun made present => ?_) nodup.1
          rcases ((node.get transport).collect_fetchesOnly ns blobId recorded []).permitted
            (world env shardMap) middle present with ⟨_, only⟩
          exact only
        rw [here, peerServed_append, or_iff_left others]
      · have different : ∀ other ∈ recorded, other.index ∉ [shard.index] := by
          intro other listed same
          rw [← List.mem_singleton.mp same] at nodup
          exact nodup.1 (List.mem_map_of_mem listed)
        refine ((List.forall₂_and_left recorded slots).mpr ⟨different, rest⟩).imp ?_
        rintro other found ⟨notHere, there⟩
        have first : ¬PeerServed node ns blobId (((node.get transport).loadShard
            ⟨ns, blobId, shard.index⟩ shard).transcript (world env shardMap) state) other := by
          refine not_peerServed (fun made present => ?_) notHere
          rcases ((node.get transport).loadShard_fetchesOnly ⟨ns, blobId, shard.index⟩ shard
            []).permitted (world env shardMap) state present with ⟨_, only⟩
          exact only
        rw [there, peerServed_append, or_iff_right first, sameAnchor]

/-- The slots of an authorized restore, in terms of all its exchanges. -/
theorem restore_served (transport : Bool) (nodup : (manifest.shards.map Shard.index).Nodup)
    (found : state.store.getManifest ns blobId = some manifest) {token : CapabilityToken}
    {app : AppId}
    (authorized : ((authorize ns token .get).run (world env shardMap) state).1 = .ok app) :
    ∃ slots,
      (((node.get transport).restore ns token blobId).run (world env shardMap) state).1 =
          (node.get transport).decodeCollected manifest slots ∧
        List.Forall₂ (fun shard slot => ∀ bytes, slot = some bytes →
          node.sha256Hex bytes = shard.sha256) manifest.shards slots ∧
        List.Forall₂ (fun shard slot => slot.isSome ↔ PeerServed node ns blobId
            (((node.get transport).restore ns token blobId).transcript (world env shardMap)
              state) shard ∨ Anchored node ns blobId state.anchor shard) manifest.shards slots := by
  rcases authorizeRan : (authorize ns token .get).run (world env shardMap) state with
    ⟨result, checked⟩
  rcases authorize_run_unchanged authorizeRan with ⟨sameStore, sameAnchor⟩
  simp only [authorizeRan] at authorized
  subst authorized
  have read : (VaultMesh.getManifest ns blobId).run (world env shardMap) checked =
      (.ok (some manifest), { checked with tick := checked.tick + 1 }) := by
    rw [← found, ← sameStore]
    rfl
  rcases collect_served env node transport ns blobId nodup
    { checked with tick := checked.tick + 1 } with ⟨slots, last, collected, served⟩
  rcases collect_run (world env shardMap) (node.get transport) ns blobId manifest.shards
    { checked with tick := checked.tick + 1 } with ⟨slots', last', collected', outcomes⟩
  rcases Except.ok.inj (Prod.mk.inj (collected.symm.trans collected')).1 with rfl
  refine ⟨slots, ?_, outcomes.imp fun shard slot outcome bytes filledWith =>
    (outcome.sound bytes filledWith).1, ?_⟩
  · rw [restore, Program.run_bind_of_ok authorizeRan, reconstruct, Program.run_bind_of_ok read,
      okOr_some, pure_bind, Program.run_bind_of_ok collected, Program.run_done]
  · refine served.imp ?_
    intro shard slot filledWhen
    have before : ¬PeerServed node ns blobId ((authorize ns token .get).transcript
        (world env shardMap) state ++ (VaultMesh.getManifest ns blobId).transcript
          (world env shardMap) checked) shard := by
      rw [peerServed_append]
      rintro (asked | ⟨peer, bytes, present, -⟩)
      · exact authorize_not_served (world env shardMap) token state shard asked
      · simp [VaultMesh.getManifest, Program.transcript] at present
    have split : ((node.get transport).restore ns token blobId).transcript (world env shardMap)
        state = ((authorize ns token .get).transcript (world env shardMap) state ++
          (VaultMesh.getManifest ns blobId).transcript (world env shardMap) checked) ++
          ((node.get transport).collect ns blobId manifest.shards).transcript
            (world env shardMap) { checked with tick := checked.tick + 1 } := by
      rw [restore, Program.transcript_bind_of_ok authorizeRan, reconstruct,
        Program.transcript_bind_of_ok read, okOr_some, pure_bind,
        Program.transcript_bind_of_ok collected]
      simp [Program.transcript]
    rw [split, peerServed_append, or_iff_right before, filledWhen, sameAnchor]

end GetBackup

/-- The report of a pass which finds all shards on the anchor. -/
def RepairReport.clean (manifest : Manifest) : RepairReport :=
  ⟨manifest.blobId, manifest.shards.length, manifest.shards.length, 0, 0, false⟩

namespace RepairShards

theorem badIndices_eq_nil_iff {shards : ShardMap} {recorded : List Shard} :
    badIndices node.sha256Hex shards ns blobId recorded = [] ↔
      ∀ shard ∈ recorded, Anchored node ns blobId shards shard := by
  simp [badIndices, List.filter_eq_nil_iff, anchored_iff_validCopy, Option.isSome_iff_ne_none]

theorem rebuild_not_clean (self : RepairShards) (manifest : Manifest)
    (collected : List (Option Bytes)) {bad : List UInt16}
    (listed : ∃ shard ∈ manifest.shards, shard.index ∈ bad) (past : List PortExchange) :
    (self.rebuild ns blobId manifest collected bad).Obeys (fun _ _ => True) past fun _ result =>
      result ≠ .ok (RepairReport.clean manifest) := by
  rw [rebuild]
  dsimp only
  split
  · cases self.erasure.decode collected manifest.erasure manifest.ciphertextLen.toNat with
    | error failure => rintro ⟨⟩
    | ok data =>
        rw [Program.done_ok_bind]
        cases self.erasure.encode data manifest.erasure with
        | error failure => rintro ⟨⟩
        | ok fresh =>
            rw [Program.done_ok_bind]
            refine (rewrite_counts self ns blobId bad fresh manifest.shards past).bind
              (by rintro _ _ _ ⟨⟩) ?_
            intro _ repaired counted clean
            have zero : repaired = 0 := congrArg RepairReport.repaired (Except.ok.inj clean)
            have positive : 0 < manifest.shards.countP fun shard => decide (shard.index ∈ bad) := by
              simpa [List.countP_pos_iff] using listed
            have total := counted repaired rfl
            omega
  · simp [RepairReport.clean]

/-- A pass finds nothing to repair exactly if the anchor has all shards. -/
theorem execute_clean_iff (transport : Bool)
    (found : state.store.getManifest ns manifest.blobId = some manifest) :
    (((node.repair transport).execute ns manifest.blobId).run (world env shardMap) state).1 =
        .ok (RepairReport.clean manifest) ↔
      ∀ shard ∈ manifest.shards, Anchored node ns manifest.blobId state.anchor shard := by
  rw [execute_run transport found, ← badIndices_eq_nil_iff, settle]
  constructor
  · intro clean
    by_contra someBad
    have listed : ∃ shard ∈ manifest.shards, shard.index ∈
        badIndices node.sha256Hex state.anchor ns manifest.blobId manifest.shards := by
      rcases List.exists_mem_of_ne_nil _ someBad with ⟨index, bad⟩
      rcases List.mem_map.mp bad with ⟨shard, present, rfl⟩
      exact ⟨shard, (List.mem_filter.mp present).1, bad⟩
    rw [if_neg someBad] at clean
    split at clean
    · exact (rebuild_not_clean _ _ _ listed []).run _ _ clean
    · have anything : Permits fun _ _ => True := fun _ _ _ => trivial
      have backfilled := backfillFromPeers_obeys anything (node.repair transport) ns
        manifest.blobId manifest
      exact (Program.Obeys.bind (backfilled _ _ []) (by rintro _ _ _ ⟨⟩)
        fun _ _ _ => rebuild_not_clean _ _ _ listed _).run _ _ clean
  · intro allGood
    rw [if_pos allGood, allGood]
    rfl

end RepairShards

/--
A restore which misses nothing means that a repair finds nothing to do, except if every shard
which is bad on the anchor was served by a peer.
-/
theorem degradation_is_noticed_iff (collisionFree : CollisionFree node.sha256Hex) {mesh : Mesh}
    {ciphertext : Slice} (produced : (node.put mesh).Produced ns ciphertext manifest)
    (fit : node.library.Fit manifest.erasure) (env : Environment) (transport : Bool)
    (stored : state.store.getManifest ns manifest.blobId = some manifest)
    (token : CapabilityToken) :
    (∀ outcome,
      (((node.get transport).restore ns token manifest.blobId).run (world env shardMap)
        state).1 = .ok outcome → outcome.shardsMissing = 0 →
      (((node.repair transport).execute ns manifest.blobId).run (world env shardMap) state).1 =
          .ok (RepairReport.clean manifest) ∧
        ∀ shard ∈ manifest.shards, Anchored node ns manifest.blobId state.anchor shard) ↔
    (manifest.erasure.Valid →
      (∃ shard ∈ manifest.shards, ¬Anchored node ns manifest.blobId state.anchor shard) →
      ∃ shard ∈ manifest.shards, ¬Anchored node ns manifest.blobId state.anchor shard ∧
        ¬PeerServed node ns manifest.blobId
          (((node.get transport).restore ns token manifest.blobId).transcript
            (world env shardMap) state) shard) := by
  rw [RepairShards.execute_clean_iff transport stored, and_self]
  rcases produced.encodes with ⟨word, encodes⟩
  rcases authorized : ((authorize ns token .get).run (world env shardMap) state).1 with error | app
  · have refused : (((node.get transport).restore ns token manifest.blobId).run
        (world env shardMap) state).1 = .error error := by
      rw [GetBackup.restore, Program.run_bind_of_error (Prod.ext authorized rfl)]
    have asked : ((node.get transport).restore ns token manifest.blobId).transcript
        (world env shardMap) state =
        (authorize ns token .get).transcript (world env shardMap) state := by
      rw [GetBackup.restore, Program.transcript_bind, Prod.ext (y := (_, _)) authorized rfl]
      simp
    rw [refused, asked]
    constructor
    · rintro - - ⟨shard, present, bad⟩
      exact ⟨shard, present, bad, authorize_not_served _ token state shard⟩
    · rintro _ _ ⟨⟩
  by_cases valid : manifest.erasure.Valid
  · have holds : node.Holds manifest ciphertext.bytes word := ⟨valid, fit, encodes⟩
    rcases GetBackup.restore_served transport (holds.encodes.records.nodup holds.few) stored
      authorized with ⟨slots, restored, hashes, served⟩
    have masks := encodes.records.masks collisionFree hashes
    have full := length_le_filled_iff served
    rw [restored]
    constructor
    · rintro noticed - ⟨shard, present, bad⟩
      by_contra unnoticed
      push Not at unnoticed
      have all : manifest.shards.length ≤ filled slots := by
        rw [full]
        intro other listed
        by_cases anchored : Anchored node ns manifest.blobId state.anchor other
        · exact Or.inr anchored
        · exact Or.inl (unnoticed other listed anchored)
      have enough : manifest.erasure.k.toNat ≤ filled slots := by
        have ordered := valid.2
        have length := holds.length_shards
        omega
      apply bad
      exact noticed _ (Node.decodeCollected_of_enough holds transport masks enough)
        (Nat.sub_eq_zero_of_le all) shard present
    · intro noticed outcome ended nothingMissing
      rcases Node.decodeCollected_eq_ok fit encodes masks ended with ⟨-, -, rfl⟩
      have all := full.mp (Nat.sub_eq_zero_iff_le.mp nothingMissing)
      by_contra degraded
      push Not at degraded
      rcases noticed valid degraded with ⟨shard, present, bad, unserved⟩
      rcases all shard present with servedHere | anchored
      · exact unserved servedHere
      · exact bad anchored
  · rcases restore_run env collisionFree encodes stored transport authorized with
      ⟨slots, _, restored, masks, -, -⟩
    constructor
    · intro _ isValid
      exact absurd isValid valid
    · intro _ outcome ended
      rw [restored] at ended
      exact absurd (Node.decodeCollected_eq_ok fit encodes masks ended).1.valid valid

/-- The peer which lies serves no shard, so the restore misses the one which the anchor lost. -/
theorem degradation_is_noticed_iff_lyingWorld :
    (((replicatingNode.get true).restore ⟨"ns-1"⟩ (sampleToken .get) lyingManifest.blobId).run
      (world lyingEnvironment shardMap) lyingWorld).1 = .ok ⟨[7], 2, 1⟩ ∧
    ∃ shard ∈ lyingManifest.shards,
      ¬Anchored replicatingNode ⟨"ns-1"⟩ lyingManifest.blobId lyingWorld.anchor shard ∧
      ¬PeerServed replicatingNode ⟨"ns-1"⟩ lyingManifest.blobId
        (((replicatingNode.get true).restore ⟨"ns-1"⟩ (sampleToken .get)
          lyingManifest.blobId).transcript (world lyingEnvironment shardMap) lyingWorld)
        shard := by
  have restored : (((replicatingNode.get true).restore ⟨"ns-1"⟩ (sampleToken .get)
      lyingManifest.blobId).run (world lyingEnvironment shardMap) lyingWorld).1 =
        .ok ⟨[7], 2, 1⟩ := by
    rfl
  refine ⟨restored, ?_⟩
  have stored : lyingWorld.store.getManifest ⟨"ns-1"⟩ lyingManifest.blobId =
      some lyingManifest := by
    rfl
  apply (degradation_is_noticed_iff collisionFree_sampleDigest lyingManifest_produced
    (replicatingNode_fit rfl) lyingEnvironment true stored (sampleToken .get)).mp
  · intro outcome ended missing
    rcases Except.ok.inj (restored.symm.trans ended) with rfl
    cases missing
  · decide
  · refine ⟨⟨0, sampleDigest [7], 1, [.anchor, .peer "peer-1"]⟩, by simp [lyingManifest,
      sampleManifest, Manifest.new], ?_⟩
    rintro ⟨bytes, lost, -⟩
    cases lost

/-- Peers accept replicas and return the bytes of the blob. -/
def servingEnvironment : Environment :=
  { lyingEnvironment with fetch := fun _ _ _ => .ok [7] }

/-- The anchor lost a shard, the peer serves it: the restore misses nothing, a repair does. -/
theorem degradation_hidden_by_peer :
    (replicatingNode.put ⟨true, ["peer-1"], ⟨none, true⟩⟩).Produced ⟨"ns-1"⟩ (oneByte 7)
      lyingManifest ∧
    (((replicatingNode.get true).restore ⟨"ns-1"⟩ (sampleToken .get) lyingManifest.blobId).run
      (world servingEnvironment shardMap) lyingWorld).1 = .ok ⟨[7], 2, 0⟩ ∧
    lyingWorld.anchor ⟨⟨"ns-1"⟩, lyingManifest.blobId, 0⟩ = none ∧
    (((replicatingNode.repair true).execute ⟨"ns-1"⟩ lyingManifest.blobId).run
      (world servingEnvironment shardMap) lyingWorld).1 =
        .ok ⟨lyingManifest.blobId, 2, 2, 1, 0, false⟩ :=
  ⟨lyingManifest_produced, rfl, rfl, rfl⟩

end VaultMesh
