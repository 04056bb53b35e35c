import VaultMesh.Requests

/-!
# Restore integrity over whole runs

Requests are served one after another while anything may happen to the anchor's
shards before every call and peers answer as they like. The invariant `Intact`
says that the manifest of every blob with a receipt, as long as there is one,
was made for the ciphertext of the receipt. Nobody but the put itself writes a
manifest under its fresh id, and naming a blob keeps what matters.
-/

namespace VaultMesh

open Interaction Coding

/-- The manifests of the blobs with a receipt are those which were made for them. -/
structure Intact (node : Node) (env : Environment) (receipts : List Receipt)
    (state : World ShardMap) : Prop where
  keyed : state.store.Keyed
  supported : ∀ app contract, state.store.getContract app = some contract → node.Supports contract
  issued : ∀ receipt ∈ receipts, ∃ tick < state.tick,
    receipt.blobId.value = env.freshId tick "blob"
  kept : ∀ receipt ∈ receipts, ∀ manifest,
    state.store.getManifest receipt.ns receipt.blobId = some manifest →
      ∃ word, node.Holds manifest receipt.ciphertext.bytes word

/-- What is known within a request which started at tick `start`. -/
structure Serving (node : Node) (env : Environment) (request : Request) (receipts : List Receipt)
    (start : ℕ) (past : List PortExchange) (state : World ShardMap) : Prop where
  intact : Intact node env (receipts ++ request.promises past) state
  older : ∀ receipt ∈ receipts, ∃ tick < start, receipt.blobId.value = env.freshId tick "blob"
  later : start ≤ state.tick
  ids : ∀ id, ⟨.newId "blob", id⟩ ∈ past →
    ∃ tick, start ≤ tick ∧ tick < state.tick ∧ id = env.freshId tick "blob"
  terms : ∀ app contract, ⟨.getContract app, .ok (some contract)⟩ ∈ past → node.Supports contract
  reads : ∀ ns blobId manifest, ⟨.getManifest ns blobId, .ok (some manifest)⟩ ∈ past →
    (manifest.ns = ns ∧ manifest.blobId = blobId) ∧
      ∀ receipt ∈ receipts, receipt.ns = ns → receipt.blobId = blobId →
        ∃ word, node.Holds manifest receipt.ciphertext.bytes word

section Step

variable {node : Node} {env : Environment} {event : ℕ → ShardMap → ShardMap} {request : Request}
  {receipts : List Receipt} {start : ℕ} {past : List PortExchange} {state : World ShardMap}

theorem promises_append_of_ne {call : PortCall} (answer : call.Answer)
    (other : ∀ manifest, call ≠ .putManifest manifest) :
    request.promises (past ++ [⟨call, answer⟩]) = request.promises past := by
  cases request with
  | put mesh ns token ciphertext =>
      simp only [Request.promises, List.filterMap_append, List.append_right_eq_self]
      cases call with
      | putManifest manifest => exact absurd rfl (other manifest)
      | _ => rfl
  | _ => rfl

theorem Intact.subset {receipts' : List Receipt} (intact : Intact node env receipts' state)
    (subset : receipts ⊆ receipts') : Intact node env receipts state :=
  ⟨intact.keyed, intact.supported, fun receipt mem => intact.issued receipt (subset mem),
    fun receipt mem => intact.kept receipt (subset mem)⟩

theorem Intact.of_subset {state' : World ShardMap} (intact : Intact node env receipts state)
    (tick : state.tick ≤ state'.tick)
    (contracts : ∀ app, state'.store.getContract app = state.store.getContract app)
    (manifests : ∀ ns blobId manifest, state'.store.getManifest ns blobId = some manifest →
      state.store.getManifest ns blobId = some manifest) : Intact node env receipts state' := by
  constructor
  · intro ns blobId manifest found
    exact intact.keyed ns blobId manifest (manifests ns blobId manifest found)
  · intro app contract known
    rw [contracts app] at known
    exact intact.supported app contract known
  · intro receipt mem
    rcases intact.issued receipt mem with ⟨issuedAt, before, same⟩
    exact ⟨issuedAt, by omega, same⟩
  · intro receipt mem manifest found
    exact intact.kept receipt mem manifest (manifests _ _ _ found)

theorem Intact.putManifest {state' : World ShardMap} {manifest : Manifest}
    (intact : Intact node env receipts state) (tick : state.tick ≤ state'.tick)
    (store : state'.store = state.store.putManifest manifest)
    (made : ∀ receipt ∈ receipts, receipt.ns = manifest.ns → receipt.blobId = manifest.blobId →
      ∃ word, node.Holds manifest receipt.ciphertext.bytes word) :
    Intact node env receipts state' := by
  have found : ∀ ns blobId stored, state'.store.getManifest ns blobId = some stored →
      (ns = manifest.ns ∧ blobId = manifest.blobId ∧ stored = manifest) ∨
        state.store.getManifest ns blobId = some stored := by
    intro ns blobId stored present
    rw [store] at present
    by_cases key : (ns, blobId) = (manifest.ns, manifest.blobId)
    · rcases Prod.mk.inj key with ⟨rfl, rfl⟩
      rw [MemoryMetadataStore.getManifest_putManifest_self] at present
      exact Or.inl ⟨rfl, rfl, (Option.some.inj present).symm⟩
    · rw [MemoryMetadataStore.getManifest_putManifest_of_ne _ _ key] at present
      exact Or.inr present
  constructor
  · intro ns blobId stored present
    rcases found ns blobId stored present with ⟨rfl, rfl, rfl⟩ | before
    · exact ⟨rfl, rfl⟩
    · exact intact.keyed ns blobId stored before
  · intro app contract known
    rw [store] at known
    exact intact.supported app contract known
  · intro receipt mem
    rcases intact.issued receipt mem with ⟨issuedAt, before, same⟩
    exact ⟨issuedAt, by omega, same⟩
  · intro receipt mem stored present
    rcases found _ _ stored present with ⟨sameNs, sameBlob, rfl⟩ | before
    · exact made receipt mem sameNs sameBlob
    · exact intact.kept receipt mem stored before

theorem Intact.append {receipt : Receipt} (intact : Intact node env receipts state)
    (issued : ∃ tick < state.tick, receipt.blobId.value = env.freshId tick "blob")
    (kept : ∀ manifest, state.store.getManifest receipt.ns receipt.blobId = some manifest →
      ∃ word, node.Holds manifest receipt.ciphertext.bytes word) :
    Intact node env (receipts ++ [receipt]) state := by
  refine ⟨intact.keyed, intact.supported, ?_, ?_⟩
  · intro other mem
    rcases List.mem_append.mp mem with before | new
    · exact intact.issued other before
    · rcases List.mem_singleton.mp new with rfl
      exact issued
  · intro other mem
    rcases List.mem_append.mp mem with before | new
    · exact intact.kept other before
    · rcases List.mem_singleton.mp new with rfl
      exact kept

/-- The manifest which a put is about to write was made for its ciphertext. -/
theorem Serving.holds {mesh : Mesh} {ns : NamespaceId} {token : CapabilityToken}
    {ciphertext : Slice} {manifest : Manifest}
    (serving : Serving node env request receipts start past state)
    (admitted : (node.put mesh).Admitted ns token ciphertext past manifest) :
    ∃ word, node.Holds manifest ciphertext.bytes word := by
  rcases admitted.checked with ⟨contract, usage, known, -, -, same⟩
  rcases serving.terms _ contract known with ⟨valid, fit⟩
  rcases admitted.encodes with ⟨word, encodes⟩
  rw [same] at valid fit
  exact ⟨word, valid, fit, encodes⟩

/-- Writing a manifest keeps the manifests of all receipts, and adds the one promised. -/
theorem Serving.intact_putManifest (fresh : Function.Injective env.uuid) {manifest : Manifest}
    {state' : World ShardMap} (answer : PortResult Unit)
    (serving : Serving node env request receipts start past state)
    (permitted : request.rule node past (.putManifest manifest))
    (tick : state.tick ≤ state'.tick) (store : state'.store = state.store.putManifest manifest) :
    Intact node env
      (receipts ++ request.promises (past ++ [⟨.putManifest manifest, answer⟩])) state' := by
  cases request with
  | put mesh ns token ciphertext =>
      rcases permitted with ⟨admitted, -⟩
      have holds := serving.holds admitted
      rcases serving.ids _ admitted.fresh with ⟨drawn, notBefore, drawnBefore, sameId⟩
      have old : Intact node env (receipts ++ (Request.put mesh ns token ciphertext).promises past)
          state' := by
        refine serving.intact.putManifest tick store ?_
        intro receipt mem _ sameBlob
        rcases List.mem_append.mp mem with before | promised
        · -- An older receipt has an older id.
          rcases serving.older receipt before with ⟨issuedAt, older, issued⟩
          have sameTick : issuedAt = drawn := by
            apply Environment.freshId_injective fresh "blob"
            rw [sameBlob] at issued
            exact issued.symm.trans sameId
          omega
        · simp only [Request.promises, List.mem_filterMap] at promised
          rcases promised with ⟨⟨call, reply⟩, -, isReceipt⟩
          cases call with
          | putManifest other =>
              rcases Option.some.inj isReceipt with rfl
              exact holds
          | _ => cases isReceipt
      have grown : (Request.put mesh ns token ciphertext).promises
          (past ++ [⟨.putManifest manifest, answer⟩]) =
          (Request.put mesh ns token ciphertext).promises past ++
            [⟨manifest.ns, manifest.blobId, ciphertext⟩] := by
        simp [Request.promises]
      rw [grown, ← List.append_assoc]
      apply old.append
      · exact ⟨drawn, by omega, sameId⟩
      · intro stored present
        rw [store, MemoryMetadataStore.getManifest_putManifest_self] at present
        rcases Option.some.inj present with rfl
        exact holds
  | setName ns blobId naming =>
      rcases permitted with ⟨read, answered, rfl⟩
      rcases serving.reads ns blobId read answered with ⟨⟨sameNs, sameBlob⟩, made⟩
      refine serving.intact.putManifest tick store ?_
      intro receipt mem keyNs keyBlob
      simp only [Request.promises, List.append_nil] at mem
      rcases made receipt mem (keyNs.trans sameNs) (keyBlob.trans sameBlob) with ⟨word, holds⟩
      exact ⟨word, holds.named naming⟩
  | _ => exact permitted.elim

theorem Serving.intact_step (fresh : Function.Injective env.uuid) {call : PortCall}
    {state' : World ShardMap} (answer : call.Answer)
    (serving : Serving node env request receipts start past state)
    (permitted : request.rule node past call) (tick : state.tick ≤ state'.tick)
    (store : state'.store = state.store.after call) :
    Intact node env (receipts ++ request.promises (past ++ [⟨call, answer⟩])) state' := by
  cases call with
  | putManifest manifest =>
      exact serving.intact_putManifest fresh answer permitted tick store
  | deleteManifest ns blobId =>
      rw [promises_append_of_ne answer (by simp)]
      apply serving.intact.of_subset tick
      · intro app
        rw [store]
        rfl
      · intro ns' blobId' manifest found
        rw [store] at found
        by_cases key : (ns', blobId') = (ns, blobId)
        · rcases Prod.mk.inj key with ⟨rfl, rfl⟩
          simp [MemoryMetadataStore.after] at found
        · simpa [MemoryMetadataStore.after,
            MemoryMetadataStore.getManifest_deleteManifest_of_ne _ key] using found
  | registerApp contract => exact absurd permitted Request.not_rule_registerApp
  | createNamespace ns => exact absurd permitted Request.not_rule_createNamespace
  | _ =>
      rw [promises_append_of_ne answer (by simp)]
      apply serving.intact.of_subset tick
      · intro app
        rw [store]
        rfl
      · intro ns' blobId' manifest found
        rw [store] at found
        exact found

/-- One call of a request, with anything happening to the anchor before it. -/
theorem Serving.step (fresh : Function.Injective env.uuid) {call : PortCall}
    (serving : Serving node env request receipts start past state)
    (permitted : request.rule node past call) :
    Serving node env request receipts start
      (past ++ [⟨call, ((disturbedWorld env shardMap event).answer state call).1⟩])
      ((disturbedWorld env shardMap event).answer state call).2 := by
  have known : ∀ {other : PortCall} {reply : other.Answer},
      (⟨other, reply⟩ : PortExchange) ∈
        past ++ [⟨call, ((disturbedWorld env shardMap event).answer state call).1⟩] →
      (⟨other, reply⟩ : PortExchange) ∈ past ∨
        reply = World.reply env shardMap
          { state with anchor := event state.tick state.anchor } other := by
    intro other reply present
    rcases List.mem_append.mp present with before | now
    · exact Or.inl before
    · rcases Sigma.mk.inj (List.mem_singleton.mp now) with ⟨rfl, same⟩
      exact Or.inr (eq_of_heq same)
  constructor
  · exact serving.intact_step fresh _ permitted (Nat.le_succ _) rfl
  · exact serving.older
  · exact Nat.le_succ_of_le serving.later
  · intro id drawn
    rcases known drawn with before | rfl
    · rcases serving.ids id before with ⟨tick, notBefore, earlier, same⟩
      exact ⟨tick, notBefore, Nat.lt_succ_of_lt earlier, same⟩
    · exact ⟨state.tick, serving.later, Nat.lt_succ_self _, rfl⟩
  · intro app contract answered
    rcases known answered with before | now
    · exact serving.terms app contract before
    · exact serving.intact.supported app contract (Except.ok.inj now).symm
  · intro ns blobId manifest answered
    rcases known answered with before | now
    · exact serving.reads ns blobId manifest before
    · have stored := (Except.ok.inj now).symm
      refine ⟨serving.intact.keyed ns blobId manifest stored, ?_⟩
      rintro receipt mem rfl rfl
      exact serving.intact.kept receipt (List.mem_append_left _ mem) manifest stored

theorem Intact.serve (fresh : Function.Injective env.uuid) (event : ℕ → ShardMap → ShardMap)
    (request : Request)
    (intact : Intact node env receipts state) :
    Intact node env
      (receipts ++ request.promises
        ((request.serve node).transcript (disturbedWorld env shardMap event) state))
      ((request.serve node).run (disturbedWorld env shardMap event) state).2 := by
  have none : request.promises [] = [] := by
    cases request <;> rfl
  have start : Serving node env request receipts state.tick [] state := by
    refine ⟨?_, intact.issued, Nat.le_refl _, by simp, by simp, by simp⟩
    rw [none, List.append_nil]
    exact intact
  exact (((request.serve_obeys node).run_invariant
    (Serving node env request receipts state.tick) (disturbedWorld env shardMap event) state start
    fun past call moment permitted serving => serving.step fresh permitted).1).intact

/-- Serving any number of requests keeps every receipt good. -/
theorem Intact.serveAll (fresh : Function.Injective env.uuid) (event : ℕ → ShardMap → ShardMap)
    (requests : List Request)
    (intact : Intact node env receipts state) :
    Intact node env
      (receipts ++ (Request.serveAll node (disturbedWorld env shardMap event) requests state).1)
      (Request.serveAll node (disturbedWorld env shardMap event) requests state).2 := by
  induction requests generalizing receipts state with
  | nil =>
      simp only [Request.serveAll, List.append_nil]
      exact intact
  | cons request requests ih =>
      have served := intact.serve fresh event request
      have returned := (request.serve_obeys node).run (disturbedWorld env shardMap event) state
      rw [List.nil_append] at returned
      simp only [Request.serveAll]
      split
      · next receipt same =>
          rw [List.append_cons]
          apply ih
          apply served.subset
          intro other mem
          rcases List.mem_append.mp mem with before | new
          · exact List.mem_append_left _ before
          · rcases List.mem_singleton.mp new with rfl
            exact List.mem_append_right _ ((returned _ same).1 other rfl)
      · exact ih (served.subset (List.subset_append_left _ _))

end Step

/-! ## Restoring after a run -/

/-- Asked at this moment, some place which the restore asks has a copy with the recorded hash. -/
def Node.Held {σ : Type} (node : Node) (handler : Handler ports σ) (transport : Bool)
    (ns : NamespaceId) (blobId : BlobId) (moment : σ) (shard : Shard) : Prop :=
  ∃ location, (node.get transport).Asks shard location ∧
    HasCopy handler node.sha256Hex moment ⟨ns, blobId, shard.index⟩ shard location

/-- From `tick` on nothing happens to the anchor, and peers do not change their answers. -/
def Quiet (env : Environment) (event : ℕ → ShardMap → ShardMap) (tick : ℕ) : Prop :=
  ∀ later, tick ≤ later → event later = id ∧ env.fetch later = env.fetch tick

theorem Quiet.copyAt {env : Environment} {event : ℕ → ShardMap → ShardMap}
    {first moment : World ShardMap} (quiet : Quiet env event first.tick)
    (anchor : moment.anchor = first.anchor) (tick : first.tick ≤ moment.tick) (ref : ShardRef)
    (location : ShardLocation) :
    copyAt (disturbedWorld env shardMap event) moment ref location =
      copyAt (disturbedWorld env shardMap event) first ref location := by
  rcases quiet moment.tick tick with ⟨noEvent, sameAnswers⟩
  rcases quiet first.tick (Nat.le_refl _) with ⟨noEventFirst, -⟩
  cases location with
  | anchor =>
      simp only [VaultMesh.copyAt, disturbedWorld_answer_fst, World.reply, noEvent, noEventFirst,
        anchor]
  | peer peer =>
      simp only [VaultMesh.copyAt, disturbedWorld_answer_fst, World.reply, sameAnswers]

theorem Quiet.visits {env : Environment} {event : ℕ → ShardMap → ShardMap}
    {first : World ShardMap} (quiet : Quiet env event first.tick) {α : Type} {program : UseCase α}
    {post : List PortExchange → Except Failure α → Prop}
    (obeys : program.Obeys (fun _ => ReadOnly) [] post) :
    ∀ moment ∈ program.visits (disturbedWorld env shardMap event) first,
      moment.anchor = first.anchor ∧ first.tick ≤ moment.tick := by
  have throughout := (obeys.run_invariant
    (fun _ moment => moment.anchor = first.anchor ∧ first.tick ≤ moment.tick)
    (disturbedWorld env shardMap event) first ⟨rfl, Nat.le_refl _⟩ (by
      rintro past request moment reads ⟨sameAnchor, later⟩
      refine ⟨?_, Nat.le_succ_of_le later⟩
      simp only [disturbedWorld_answer_snd, World.after, AnchorModel.after_of_readOnly reads,
        (quiet moment.tick later).1, sameAnchor, id])).2
  intro moment visited
  rcases throughout moment visited with ⟨_, same⟩
  exact same

theorem store_of_readOnly {α : Type} {program : UseCase α}
    {post : List PortExchange → Except Failure α → Prop}
    (obeys : program.Obeys (fun _ => ReadOnly) [] post) (env : Environment)
    (event : ℕ → ShardMap → ShardMap) (first : World ShardMap) :
    (program.run (disturbedWorld env shardMap event) first).2.store = first.store :=
  (obeys.run_invariant (fun _ moment => moment.store = first.store)
    (disturbedWorld env shardMap event) first rfl (by
      intro past request moment reads same
      simp only [disturbedWorld_answer_snd, World.after,
        MemoryMetadataStore.after_of_readOnly reads, same])).1

/--
Whatever requests were served and whatever happened to the anchor and the peers,
a blob with a receipt and a manifest restores to what was put exactly if enough of
its shards have a good copy. If places change during the restore, enough good
copies at the moments of asking are necessary, and enough places which keep theirs
are sufficient.
-/
theorem restore_integrity {node : Node} (collisionFree : CollisionFree node.sha256Hex)
    {env : Environment} (fresh : Function.Injective env.uuid) (event : ℕ → ShardMap → ShardMap)
    {first last : World ShardMap} (keyed : first.store.Keyed)
    (supported : ∀ app contract, first.store.getContract app = some contract →
      node.Supports contract)
    (requests : List Request) {receipts : List Receipt}
    (served : Request.serveAll node (disturbedWorld env shardMap event) requests first =
      (receipts, last))
    {receipt : Receipt} (returned : receipt ∈ receipts) {manifest : Manifest}
    (present : last.store.getManifest receipt.ns receipt.blobId = some manifest)
    (transport : Bool) (token : CapabilityToken) {app : AppId} {checked : World ShardMap}
    (authorized : (authorize receipt.ns token .get).run (disturbedWorld env shardMap event) last =
      (.ok app, checked))
    {result : Except Failure RestoreOutcome} {moments : List (World ShardMap)}
    (restored : (((node.get transport).restore receipt.ns token receipt.blobId).run
      (disturbedWorld env shardMap event) last).1 = result)
    (asked : ((node.get transport).restore receipt.ns token receipt.blobId).visits
      (disturbedWorld env shardMap event) last = moments) :
    (Quiet env event last.tick →
      ((∃ outcome, result = .ok outcome) ↔
        AtLeast manifest.erasure.k.toNat
          (node.Held (disturbedWorld env shardMap event) transport receipt.ns receipt.blobId last)
          manifest.shards)) ∧
    (∀ outcome, result = .ok outcome → outcome.ciphertext = receipt.ciphertext.bytes ∧
      AtLeast manifest.erasure.k.toNat
        (fun shard => ∃ moment ∈ moments, node.Held (disturbedWorld env shardMap event) transport
          receipt.ns receipt.blobId moment shard) manifest.shards) ∧
    (AtLeast manifest.erasure.k.toNat
        (fun shard => ∃ location, (node.get transport).Asks shard location ∧
          ∀ moment ∈ moments, HasCopy (disturbedWorld env shardMap event) node.sha256Hex moment
            ⟨receipt.ns, receipt.blobId, shard.index⟩ shard location) manifest.shards →
      ∃ outcome, result = .ok outcome) := by
  have intact : Intact node env receipts last := by
    have start : Intact node env [] first := ⟨keyed, supported, by simp, by simp⟩
    have ended := start.serveAll fresh event requests
    rw [served] at ended
    exact ended
  rcases intact.kept receipt returned manifest present with ⟨word, holds⟩
  have sameStore : checked.store = last.store := by
    have unchanged := store_of_readOnly
      (authorize_obeys permits_readOnly.guard receipt.ns token .get []) env event last
    rw [authorized] at unchanged
    exact unchanged
  have found : ((disturbedWorld env shardMap event).answer checked
      (.getManifest receipt.ns receipt.blobId)).1 = .ok (some manifest) := by
    simp only [disturbedWorld_answer_fst, World.reply, sameStore, present]
  rcases Node.reconstruct_run (disturbedWorld env shardMap event) collisionFree holds.encodes
    transport found with ⟨slots, final, ran, masks, outcomes⟩
  rw [GetBackup.restore, Program.run_bind_of_ok authorized, ran] at restored
  have parts := asked
  rw [GetBackup.restore, Program.visits_bind_of_ok authorized] at parts
  have outcomes : List.Forall₂ (GetBackup.SlotOutcome (disturbedWorld env shardMap event)
      (node.get transport) receipt.ns receipt.blobId moments) manifest.shards slots := by
    refine outcomes.imp fun shard slot outcome => outcome.mono fun moment visited => ?_
    rw [← parts]
    exact List.mem_append_right _ visited
  rcases Node.decodeCollected_ok_iff holds transport masks with ⟨succeeds, original⟩
  simp only [← restored]
  refine ⟨?_, ?_, ?_⟩
  · intro quiet
    have steady : ∀ moment ∈ moments, ∀ ref location,
        copyAt (disturbedWorld env shardMap event) moment ref location =
          copyAt (disturbedWorld env shardMap event) last ref location := by
      intro moment visited
      rw [← asked] at visited
      rcases quiet.visits ((node.get transport).restore_obeys permits_readOnly receipt.ns token
        receipt.blobId []) moment visited with ⟨sameAnchor, later⟩
      exact quiet.copyAt sameAnchor later
    rw [succeeds]
    constructor
    · intro enough
      refine (atLeast_filled outcomes fun shard bytes outcome => ?_).of_le enough
      rcases outcome.sound bytes rfl with ⟨hash, moment, visited, location, asks, copy⟩
      exact ⟨location, asks, bytes, by rw [← steady moment visited]; exact copy, hash⟩
    · refine le_filled_of_atLeast outcomes fun shard outcome => ?_
      rintro ⟨location, asks, bytes, copy, hash⟩
      rcases outcome.complete rfl location asks with ⟨moment, visited, missing⟩
      exact missing ⟨bytes, by rw [steady moment visited]; exact copy, hash⟩
  · intro outcome decoded
    refine ⟨original outcome decoded, ?_⟩
    refine (atLeast_filled outcomes fun shard bytes slot => ?_).of_le
      (succeeds.mp ⟨outcome, decoded⟩)
    rcases slot.sound bytes rfl with ⟨hash, moment, visited, location, asks, copy⟩
    exact ⟨moment, visited, location, asks, bytes, copy, hash⟩
  · intro enough
    apply succeeds.mpr
    refine le_filled_of_atLeast outcomes (fun shard outcome => ?_) enough
    rintro ⟨location, asks, always⟩
    rcases outcome.complete rfl location asks with ⟨moment, visited, missing⟩
    exact missing (always moment visited)

def tampering (tick : ℕ) (shards : ShardMap) : ShardMap :=
  if tick = 10 then Function.update shards ⟨⟨"ns-1"⟩, ⟨"blob-5"⟩, 0⟩ (some [9]) else shards

/-- The byte 7 is put and read once, with one shard replaced in between. -/
def tamperedRun : List Receipt × World ShardMap :=
  Request.serveAll replicatingNode (disturbedWorld sampleEnvironment shardMap tampering)
    [samplePut 7,
      .get false ⟨"ns-1"⟩ (sampleToken .get) ⟨"blob-5"⟩]
    ⟨sampleStore ⟨10, 10⟩ ⟨1, 0⟩, fun _ => none, [], 0⟩

theorem restore_integrity_tamperedRun :
    ∃ outcome,
      (((replicatingNode.get false).restore ⟨"ns-1"⟩ (sampleToken .get) ⟨"blob-5"⟩).run
        (disturbedWorld sampleEnvironment shardMap tampering) tamperedRun.2).1 = .ok outcome ∧
      outcome.ciphertext = [7] := by
  have keyed : (sampleStore ⟨10, 10⟩ ⟨1, 0⟩).Keyed := by
    rintro ns blobId manifest ⟨⟩
  rcases restore_integrity collisionFree_sampleDigest injective_toString tampering keyed
    (fun _ _ known => replicatingNode_supports known) _
    (rfl : tamperedRun = (tamperedRun.1, tamperedRun.2))
    (List.mem_of_getElem? (i := 0) (rfl : _ = some (Receipt.mk _ _ _)))
    (rfl : _ = some (sampleManifest [.anchor])) false (sampleToken .get)
    (Prod.ext (rfl : _ = Except.ok _) rfl) rfl rfl with ⟨exactly, original, -⟩
  have quiet : Quiet sampleEnvironment tampering tamperedRun.2.tick := by
    intro later reached
    have late : 16 ≤ later := reached
    refine ⟨?_, rfl⟩
    funext shards
    rw [tampering, if_neg (by omega), id]
  rcases (exactly quiet).mpr ⟨[⟨1, sampleDigest [7], 1, [.anchor]⟩], by decide, by decide, by
    intro shard mem
    rcases List.mem_singleton.mp mem with rfl
    exact ⟨.anchor, trivial, [7], rfl, rfl⟩⟩ with ⟨outcome, restored⟩
  exact ⟨outcome, restored, (original outcome restored).1⟩

end VaultMesh
