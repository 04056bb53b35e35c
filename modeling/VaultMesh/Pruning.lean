import VaultMesh.Ranking.Surplus
import VaultMesh.Retention

/-!
# Concurrent pruning

Every prune works on a snapshot of its own and deletes what comes after the
newest `keep_versions` of it. Snapshots taken at different times differ, but all
their versions were tagged before, so a version which a prune deletes has
`keep_versions` tagged versions ahead of it, in the order in which the prune
sees them. If all prunes see the same order, the newest versions survive all of
them (`Ranking.min_card_le_card_sdiff`).

The order is by creation time, newest first, and the sort is stable: versions
created at the same time stay in the order in which `list_blobs` returned them.
That order is the hash map's and may change from call to call. `TiesOrdered`
asks that it does not change among versions created at the same time.
-/

namespace VaultMesh

open Interaction Coding Ranking

/-! ## Versions -/

/-- The blobs of a namespace which were tagged with the object id so far. -/
def versionsOf (ns : NamespaceId) (objectId : String) (trace : Trace) : Finset BlobId :=
  (trace.filterMap fun event =>
    match event.2.1 with
    | .putManifest manifest =>
        if manifest.ns = ns ∧ manifest.objectId = some objectId then some manifest.blobId else none
    | _ => none).toFinset

theorem mem_versionsOf {ns : NamespaceId} {objectId : String} {trace : Trace} {blobId : BlobId} :
    blobId ∈ versionsOf ns objectId trace ↔
      ∃ manifest, Written trace manifest ∧ manifest.ns = ns ∧
        manifest.objectId = some objectId ∧ manifest.blobId = blobId := by
  simp only [versionsOf, List.mem_toFinset, List.mem_filterMap]
  constructor
  · rintro ⟨⟨writer, call, answer⟩, made, named⟩
    cases call with
    | putManifest manifest =>
        simp only [Option.ite_none_right_eq_some, Option.some.injEq] at named
        rcases named with ⟨⟨inside, carries⟩, same⟩
        exact ⟨manifest, ⟨writer, answer, made⟩, inside, carries, same⟩
    | _ => cases named
  · rintro ⟨manifest, ⟨writer, answer, made⟩, inside, carries, same⟩
    exact ⟨_, made, by simp [inside, carries, same]⟩

/-- The blobs of a namespace whose shards or manifest were deleted so far. -/
def deletedOf (ns : NamespaceId) (trace : Trace) : Finset BlobId :=
  (trace.filterMap fun event =>
    match event.2.1 with
    | .deleteBlob id blobId | .deleteManifest id blobId => if id = ns then some blobId else none
    | _ => none).toFinset

theorem mem_deletedOf {ns : NamespaceId} {trace : Trace} {blobId : BlobId} :
    blobId ∈ deletedOf ns trace ↔ ∃ event ∈ trace, Deletes ns blobId event.2.1 := by
  simp only [deletedOf, List.mem_toFinset, List.mem_filterMap, Deletes]
  constructor
  · rintro ⟨⟨index, call, answer⟩, made, named⟩
    cases call with
    | deleteBlob id other =>
        simp only [Option.ite_none_right_eq_some, Option.some.injEq] at named
        rcases named with ⟨rfl, rfl⟩
        exact ⟨_, made, Or.inl rfl⟩
    | deleteManifest id other =>
        simp only [Option.ite_none_right_eq_some, Option.some.injEq] at named
        rcases named with ⟨rfl, rfl⟩
        exact ⟨_, made, Or.inr rfl⟩
    | _ => cases named
  · rintro ⟨⟨index, call, answer⟩, made, deletes⟩
    refine ⟨_, made, ?_⟩
    rcases deletes with rfl | rfl <;> simp

/-! ## The common order -/

open Classical in
noncomputable def createdOf (trace : Trace) (blobId : BlobId) : ℕ :=
  if known : ∃ manifest, Written trace manifest ∧ manifest.blobId = blobId then
    known.choose.createdAt.millis.toNat
  else
    0

/-- Newest first, and by rank where creation times tie. -/
noncomputable def seniority (rank : BlobId → ℕ) (trace : Trace) (blobId : BlobId) : ℕᵒᵈ ×ₗ ℕ :=
  toLex (OrderDual.toDual (createdOf trace blobId), rank blobId)

/-- The two blobs are ordered by rank if they were created at the same time. -/
def TieBroken (rank : BlobId → ℕ) (trace : Trace) (one other : BlobId) : Prop :=
  ∃ first second, (Written trace first ∧ first.blobId = one) ∧
    (Written trace second ∧ second.blobId = other) ∧
    (first.createdAt = second.createdAt → rank one < rank other)

theorem TieBroken.mono {rank : BlobId → ℕ} {trace trace' : Trace} {one other : BlobId}
    (broken : TieBroken rank trace one other) (subset : trace ⊆ trace') :
    TieBroken rank trace' one other := by
  rcases broken with ⟨first, second, ⟨written, same⟩, ⟨writtenToo, sameToo⟩, order⟩
  exact ⟨first, second, ⟨written.mono subset, same⟩, ⟨writtenToo.mono subset, sameToo⟩, order⟩

section Order

variable {A : Type} {node : Node} {env : Environment} {requests : List Request}
  {first state : World A} {trace : Trace} {rank : BlobId → ℕ}

theorem Ledger.createdOf_eq (ledger : Ledger env requests first state trace)
    (lawful : System.Lawful (Request.rules node requests) trace) {manifest : Manifest}
    (written : Written trace manifest) :
    createdOf trace manifest.blobId = manifest.createdAt.millis.toNat := by
  have known : ∃ other, Written trace other ∧ other.blobId = manifest.blobId :=
    ⟨manifest, written, rfl⟩
  rw [createdOf, dif_pos known]
  rcases ledger.origin_unique lawful known.choose_spec.1 written known.choose_spec.2 with
    ⟨original, chosenOf, manifestOf⟩
  rw [chosenOf.createdAt_eq, manifestOf.createdAt_eq]

theorem Ledger.rank_lt_of_tieBroken (ledger : Ledger env requests first state trace)
    (lawful : System.Lawful (Request.rules node requests) trace) {one other : BlobId}
    (broken : TieBroken rank trace one other) (tie : createdOf trace one = createdOf trace other) :
    rank one < rank other := by
  rcases broken with ⟨first, second, ⟨written, rfl⟩, ⟨writtenToo, rfl⟩, order⟩
  rw [ledger.createdOf_eq lawful written, ledger.createdOf_eq lawful writtenToo] at tie
  apply order
  exact congrArg Timestamp.mk (UInt64.toNat_inj.mp tie)

theorem PruneVersions.tagged_pairwise {answers : BlobId → Option Manifest → Prop}
    {before : BlobId → BlobId → Prop} (objectId : String) {blobs : List BlobId}
    {found : List (Option Manifest)} (read : List.Forall₂ answers blobs found)
    (keyed : ∀ key manifest, answers key (some manifest) → manifest.blobId = key)
    (pairs : blobs.Pairwise before) :
    (tagged objectId found).Pairwise fun one other => before one.blobId other.blobId := by
  induction read with
  | nil => exact List.Pairwise.nil
  | @cons key answer blobs found answered rest ih =>
      rcases List.pairwise_cons.mp pairs with ⟨ahead, pairs⟩
      cases answer with
      | none =>
          rw [tagged_cons_none]
          exact ih pairs
      | some manifest =>
          by_cases carries : manifest.objectId = some objectId
          · rw [tagged_cons_of_carries carries]
            refine List.pairwise_cons.mpr ⟨?_, ih pairs⟩
            intro other present
            rcases exists_key_of_mem rest (mem_of_mem_tagged present) with ⟨later, listed, answer⟩
            rw [keyed key manifest answered, keyed later other answer]
            exact ahead later listed
          · rw [tagged_cons_of_differs carries]
            exact ih pairs

/-- All listings break ties alike. -/
def TiesBroken (rank : BlobId → ℕ) (ns : NamespaceId) (trace : Trace) : Prop :=
  ∀ index blobs, (index, ⟨.listBlobs ns, .ok blobs⟩) ∈ trace →
    blobs.Pairwise (TieBroken rank trace)

/-- A prune sorts the versions of its snapshot by seniority. -/
theorem PruneVersions.Snapshot.Taken.newestFirst_pairwise {snapshot : Snapshot} {ns : NamespaceId}
    {index : ℕ} (ledger : Ledger env requests first state trace)
    (lawful : System.Lawful (Request.rules node requests) trace)
    (broken : TiesBroken rank ns trace) (taken : snapshot.Taken ns (pastOf index trace))
    (objectId : String) :
    (newestFirst (tagged objectId snapshot.found)).Pairwise fun one other =>
      seniority rank trace one.blobId < seniority rank trace other.blobId := by
  have known : ∀ key manifest,
      ⟨.getManifest ns key, .ok (some manifest)⟩ ∈ pastOf index trace →
      manifest.blobId = key ∧ Written trace manifest := by
    intro key manifest answered
    rcases ledger.read index ns key manifest (mem_pastOf.mp answered) with ⟨⟨-, same⟩, written⟩
    exact ⟨same, written⟩
  have created : ∀ version ∈ newestFirst (tagged objectId snapshot.found),
      createdOf trace version.blobId = version.createdAt.millis.toNat := by
    intro version present
    rcases exists_key_of_mem taken.read (mem_of_mem_tagged
      ((newestFirst_perm _).mem_iff.mp present)) with ⟨key, -, answered⟩
    exact ledger.createdOf_eq lawful (known key version answered).2
  have listed := tagged_pairwise objectId taken.read
    (fun key manifest answered => (known key manifest answered).1)
    (broken index snapshot.blobs (mem_pastOf.mp taken.listed))
  have sorted := pairwise_insertionSort
    (r := fun left right : Manifest => right.createdAt.millis ≤ left.createdAt.millis)
    (fun version => OrderDual.toDual version.createdAt.millis.toNat)
    (fun version => rank version.blobId) (fun _ _ => UInt64.le_iff_toNat_le)
    (listed.imp_of_mem fun {one other} oneListed otherListed tieBroken tie => ?_)
  · refine sorted.imp_of_mem fun {one other} oneListed otherListed less => ?_
    rw [seniority, seniority, created one oneListed, created other otherListed]
    exact less
  · apply ledger.rank_lt_of_tieBroken lawful tieBroken
    rw [created one ((newestFirst_perm _).mem_iff.mpr oneListed),
      created other ((newestFirst_perm _).mem_iff.mpr otherListed)]
    exact OrderDual.toDual.injective tie

/-- A version which a prune condemns has `keep_versions` tagged versions ahead of it. -/
theorem PruneVersions.Snapshot.Surplus.exists_ahead {snapshot : Snapshot} {ns : NamespaceId}
    {index : ℕ} {objectId : String} {time : Timestamp} {version : Manifest}
    (ledger : Ledger env requests first state trace)
    (lawful : System.Lawful (Request.rules node requests) trace)
    (broken : TiesBroken rank ns trace) (taken : snapshot.Taken ns (pastOf index trace))
    (surplus : snapshot.Surplus objectId time version) :
    ∃ ahead ⊆ versionsOf ns objectId trace,
      snapshot.contract.retention.keepVersions.toNat ≤ ahead.card ∧
      ∀ other ∈ ahead, seniority rank trace other < seniority rank trace version.blobId := by
  rcases surplus.beyond with ⟨position, beyond, here⟩
  rcases List.getElem?_eq_some_iff.mp here with ⟨bound, isVersion⟩
  let sorted := newestFirst (tagged objectId snapshot.found)
  have pairs : sorted.Pairwise _ := taken.newestFirst_pairwise ledger lawful broken objectId
  have nodup : ((sorted.take position).map Manifest.blobId).Nodup := by
    apply List.pairwise_map.mpr
    apply (pairs.sublist (List.take_sublist position sorted)).imp
    intro one other less same
    rw [same] at less
    exact lt_irrefl _ less
  refine ⟨((sorted.take position).map Manifest.blobId).toFinset, ?_, ?_, ?_⟩
  · intro blobId present
    rcases List.mem_map.mp (List.mem_toFinset.mp present) with ⟨other, inFront, rfl⟩
    have isTagged : other ∈ tagged objectId snapshot.found :=
      (newestFirst_perm _).mem_iff.mp (List.mem_of_mem_take inFront)
    rcases exists_key_of_mem taken.read (mem_of_mem_tagged isTagged) with ⟨key, -, answered⟩
    rcases ledger.read index ns key other (mem_pastOf.mp answered) with ⟨⟨inside, -⟩, written⟩
    exact mem_versionsOf.mpr ⟨other, written, inside, carries_of_mem_tagged isTagged, rfl⟩
  · rw [List.toFinset_card_of_nodup nodup, List.length_map, List.length_take,
      Nat.min_eq_left (Nat.le_of_lt bound)]
    exact beyond
  · intro blobId present
    rcases List.mem_map.mp (List.mem_toFinset.mp present) with ⟨other, inFront, rfl⟩
    rcases List.mem_iff_getElem.mp inFront with ⟨place, inside, rfl⟩
    rw [List.length_take] at inside
    rw [List.getElem_take, ← isVersion]
    exact List.pairwise_iff_getElem.mp pairs place position _ bound (by omega)

end Order

/-! ## What is kept -/

/-- No delete runs, and every renaming tags its blob, always with the same object id. -/
structure Adding (requests : List Request) (tag : NamespaceId → BlobId → String) : Prop where
  noDelete : ∀ ns token blobId, .delete ns token blobId ∉ requests
  tags : ∀ ns blobId naming, .setName ns blobId naming ∈ requests →
    naming.objectId = some (tag ns blobId)

/-- Tagged manifests and written shards are there until they are deleted. -/
structure Retained (state : World ShardMap) (trace : Trace) : Prop where
  manifests : ∀ manifest objectId, Written trace manifest → manifest.objectId = some objectId →
    manifest.blobId ∉ deletedOf manifest.ns trace →
    ∃ current, state.store.getManifest manifest.ns manifest.blobId = some current ∧
      current.objectId = some objectId
  shards : ∀ index ref bytes answer, (index, ⟨.putShard ref bytes, answer⟩) ∈ trace →
    ref.blobId ∉ deletedOf ref.ns trace → (state.anchor ref).isSome

section Retained

variable {node : Node} {env : Environment} {requests : List Request}
  {tag : NamespaceId → BlobId → String} {first state : World ShardMap} {trace : Trace} {index : ℕ}
  {call : PortCall}

theorem Adding.objectId_of_rules (adding : Adding requests tag)
    (ledger : Ledger env requests first state trace) {past : List PortExchange}
    (recorded : ∀ made ∈ past, (index, made) ∈ trace) {manifest : Manifest}
    (permitted : Request.rules node requests index past (.putManifest manifest)) :
    (IsPut requests index ∧ manifest.objectId = none) ∨
      manifest.objectId = some (tag manifest.ns manifest.blobId) := by
  rcases permitted with ⟨request, listed, rule⟩
  cases request with
  | put mesh ns token ciphertext =>
      exact Or.inl ⟨⟨mesh, ns, token, ciphertext, listed⟩, rule.1.untagged⟩
  | setName ns blobId naming =>
      rcases rule with ⟨read, answered, rfl⟩
      rcases ledger.read index ns blobId read (recorded _ answered) with ⟨⟨rfl, rfl⟩, -⟩
      have tagged := adding.tags _ _ _ (List.mem_of_getElem? listed)
      simp [Manifest.named, tagged]
  | _ => exact rule.elim

/-- A tagged manifest carries the blob's tag. -/
theorem Adding.objectId_of_written (adding : Adding requests tag)
    (ledger : Ledger env requests first state trace)
    (lawful : System.Lawful (Request.rules node requests) trace) {manifest : Manifest}
    {objectId : String} (written : Written trace manifest)
    (carries : manifest.objectId = some objectId) : objectId = tag manifest.ns manifest.blobId := by
  rcases written with ⟨writer, answer, made⟩
  rcases List.append_of_mem made with ⟨before, after, split⟩
  have recorded : ∀ earlier ∈ pastOf writer before, (writer, earlier) ∈ trace := by
    intro earlier present
    rw [split]
    exact List.mem_append_left _ (mem_pastOf.mp present)
  rcases adding.objectId_of_rules ledger recorded (lawful _ _ _ _ split) with ⟨-, untagged⟩ | tagged
  · rw [untagged] at carries
    cases carries
  · exact Option.some.inj (carries.symm.trans tagged)

theorem Ledger.not_written_of_put (ledger : Ledger env requests first state trace)
    (isPut : IsPut requests index) {manifest other : Manifest}
    (permitted : Request.rules node requests index (pastOf index trace) (.putManifest manifest))
    (written : Written trace other) : other.blobId ≠ manifest.blobId := by
  intro same
  rcases isPut with ⟨mesh, ns, token, ciphertext, listed⟩
  rcases permitted with ⟨request, listedToo, rule⟩
  rcases Option.some.inj (listed.symm.trans listedToo) with rfl
  rcases ledger.origins other written with ⟨putter, original, answer, -, drawn, put, -⟩
  rw [same] at drawn
  rcases ledger.unique _ _ _ (mem_pastOf.mp rule.1.fresh) drawn with rfl
  exact rule.2 _ (mem_pastOf.mpr put) original rfl

theorem notMem_deletedOf_append {ns : NamespaceId} {blobId : BlobId} {event : ℕ × PortExchange}
    (kept : blobId ∉ deletedOf ns (trace ++ [event])) :
    blobId ∉ deletedOf ns trace ∧ ¬Deletes ns blobId event.2.1 := by
  simp only [mem_deletedOf, not_exists, not_and] at kept ⊢
  refine ⟨fun other present => kept other (List.mem_append_left _ present), ?_⟩
  exact kept event (List.mem_append_right _ List.mem_cons_self)

theorem Retained.step (retained : Retained state trace) (adding : Adding requests tag)
    (ledger : Ledger env requests first state trace)
    (lawful : System.Lawful (Request.rules node requests) trace)
    (permitted : Request.rules node requests index (pastOf index trace) call) :
    Retained (state.after shardMap call)
      (trace ++ [(index, ⟨call, state.reply env shardMap call⟩)]) := by
  constructor
  · rintro manifest objectId ⟨writer, answer, made⟩ carries kept
    rcases notMem_deletedOf_append kept with ⟨keptBefore, keptNow⟩
    rcases mem_trace_append made with before | ⟨rfl, rfl, -⟩
    · rcases retained.manifests manifest objectId ⟨writer, answer, before⟩ carries keptBefore with
        ⟨current, found, tagged⟩
      by_cases rewrites : ∃ other, call = .putManifest other ∧
          (manifest.ns, manifest.blobId) = (other.ns, other.blobId)
      · -- Only a renaming writes the manifest again, with the same tag.
        rcases rewrites with ⟨other, rfl, same⟩
        rcases Prod.mk.inj same with ⟨sameNs, sameBlob⟩
        have isTag := adding.objectId_of_written ledger lawful ⟨writer, answer, before⟩ carries
        refine ⟨other, ?_, ?_⟩
        · rw [sameNs, sameBlob]
          exact MemoryMetadataStore.getManifest_putManifest_self _ _
        · rcases adding.objectId_of_rules ledger (fun _ => mem_pastOf.mp) permitted with
            ⟨isPut, -⟩ | named
          · exact absurd sameBlob
              (ledger.not_written_of_put isPut permitted ⟨writer, answer, before⟩)
          · rw [named, isTag, sameNs, sameBlob]
      · refine ⟨current, ?_, tagged⟩
        rw [← found]
        apply MemoryMetadataStore.getManifest_after_of_other
        · intro other isPut same
          exact rewrites ⟨other, isPut, same⟩
        · intro deletes
          exact keptNow (Or.inr deletes)
    · exact ⟨manifest, MemoryMetadataStore.getManifest_putManifest_self _ _, carries⟩
  · intro writer ref bytes answer made kept
    rcases notMem_deletedOf_append kept with ⟨keptBefore, keptNow⟩
    rcases mem_trace_append made with before | ⟨rfl, rfl, -⟩
    · have there := retained.shards writer ref bytes answer before keptBefore
      cases call with
      | putShard other content =>
          by_cases same : ref = other
          · subst same
            simp [World.after, AnchorModel.after, shardMap]
          · have kept := Function.update_of_ne same (some content) state.anchor
            simp only [World.after, AnchorModel.after, shardMap, kept]
            exact there
      | deleteBlob ns blobId =>
          have other : ¬(ref.ns = ns ∧ ref.blobId = blobId) := by
            rintro ⟨rfl, rfl⟩
            exact keptNow (Or.inl rfl)
          simp only [World.after, AnchorModel.after, shardMap, ShardMap.erase, other, if_false]
          exact there
      | _ => exact there
    · simp [World.after, AnchorModel.after, shardMap]

end Retained

/-! ## Runs -/

/-- A step which lists the namespace returns blobs created at the same time in the order of
`rank`. -/
def TiesOrdered {A : Type} (env : Environment) (rank : BlobId → ℕ) (ns : NamespaceId)
    (system : System ports Failure (World A)) (index : ℕ) : Prop :=
  ∀ rest, system.programs[index]? = some (.call (.listBlobs ns) rest) →
    (env.blobOrder system.state.tick (system.state.store.listBlobs ns)).Pairwise
      fun one other => ∀ first second, system.state.store.getManifest ns one = some first →
        system.state.store.getManifest ns other = some second →
        first.createdAt = second.createdAt → rank one < rank other

section Runs

variable {node : Node} {env : Environment} {requests : List Request}
  {tag : NamespaceId → BlobId → String} {rank : BlobId → ℕ} {ns : NamespaceId}
  {first : World ShardMap} {system : System ports Failure (World ShardMap)} {index : ℕ}
  {call : PortCall} {rest : call.Answer → UseCase Unit}

theorem TiesBroken.step (broken : TiesBroken rank ns system.trace)
    (ledger : Ledger env requests first system.state system.trace)
    (found : system.programs[index]? = some (.call call rest))
    (ordered : TiesOrdered env rank ns system index) :
    TiesBroken rank ns (system.afterCall (world env shardMap) index call rest).trace := by
  have grows : system.trace ⊆ (system.afterCall (world env shardMap) index call rest).trace :=
    List.subset_append_left _ _
  intro other blobs listed
  rcases mem_trace_append listed with before | ⟨rfl, rfl, answered⟩
  · exact (broken other blobs before).imp fun tieBroken => tieBroken.mono grows
  · rcases Except.ok.inj answered with rfl
    have stored : ∀ blobId ∈ env.blobOrder system.state.tick (system.state.store.listBlobs ns),
        ∃ manifest, system.state.store.getManifest ns blobId = some manifest := by
      intro blobId present
      have inStore := (env.blobOrder_perm _ _).mem_iff.mp present
      exact Option.isSome_iff_exists.mp (MemoryMetadataStore.mem_listBlobs.mp inStore)
    refine (ordered rest found).imp_of_mem fun {one another} oneListed anotherListed order => ?_
    rcases stored one oneListed with ⟨manifest, here⟩
    rcases stored another anotherListed with ⟨manifestToo, hereToo⟩
    rcases ledger.stored ns one manifest here with ⟨⟨-, same⟩, written⟩
    rcases ledger.stored ns another manifestToo hereToo with ⟨⟨-, sameToo⟩, writtenToo⟩
    exact ⟨manifest, manifestToo, ⟨written.mono grows, same⟩, ⟨writtenToo.mono grows, sameToo⟩,
      order manifest manifestToo here hereToo⟩

/-- What is known at every moment of a run without deletes whose listings break ties alike. -/
structure Pruned (node : Node) (env : Environment) (requests : List Request)
    (rank : BlobId → ℕ) (ns : NamespaceId) (first : World ShardMap)
    (system : System ports Failure (World ShardMap)) : Prop where
  obedient : System.Obedient (Request.rules node requests) system
  ledger : Ledger env requests first system.state system.trace
  broken : TiesBroken rank ns system.trace
  retained : Retained system.state system.trace

theorem pruned_exec (fresh : Function.Injective env.uuid)
    (none : ∀ ns blobId, first.store.getManifest ns blobId = none) (adding : Adding requests tag)
    {schedule : List ℕ}
    (ordered : System.Along (world env shardMap) (TiesOrdered env rank ns)
      (System.start first (requests.map (Request.program node))) schedule) :
    Pruned node env requests rank ns first (System.exec (world env shardMap)
      (System.start first (requests.map (Request.program node))) schedule) := by
  apply System.exec_invariant_along _ ordered
  · refine ⟨Request.obedient_start node requests first, ledger_start none, ?_, ?_, ?_⟩
    · rintro index blobs ⟨⟩
    · rintro manifest objectId ⟨writer, answer, ⟨⟩⟩
    · rintro index ref bytes answer ⟨⟩
  · rintro system index ⟨obedient, ledger, broken, retained⟩ ordered
    rcases System.step_cases (world env shardMap) system index with
      same | ⟨call, rest, found, called⟩
    · rw [same]
      exact ⟨obedient, ledger, broken, retained⟩
    · rw [called]
      have permitted := obedient.permitted found
      exact ⟨obedient.afterCall found, ledger.step fresh permitted,
        broken.step ledger found ordered,
        retained.step adding ledger obedient.lawful permitted⟩

/-- The blob has a manifest with the object id, and its shards are on the anchor. -/
def Kept (state : World ShardMap) (ns : NamespaceId) (objectId : String) (blobId : BlobId) : Prop :=
  ∃ manifest, state.store.getManifest ns blobId = some manifest ∧
    manifest.objectId = some objectId ∧
    ∀ shard ∈ manifest.shards, (state.anchor ⟨ns, blobId, shard.index⟩).isSome

/-- A version which was not deleted is there with its shards. -/
theorem Pruned.kept (pruned : Pruned node env requests rank ns first system) {objectId : String}
    {blobId : BlobId} (version : blobId ∈ versionsOf ns objectId system.trace)
    (notDeleted : blobId ∉ deletedOf ns system.trace) : Kept system.state ns objectId blobId := by
  rcases mem_versionsOf.mp version with ⟨manifest, written, rfl, carries, rfl⟩
  rcases pruned.retained.manifests manifest objectId written carries notDeleted with
    ⟨current, found, tagged⟩
  refine ⟨current, found, tagged, ?_⟩
  rcases pruned.ledger.stored _ _ current found with ⟨⟨sameNs, sameBlob⟩, writtenToo⟩
  rcases pruned.ledger.origins current writtenToo with
    ⟨putter, original, answer, ⟨mesh, putNs, token, ciphertext, listed⟩, -, put, same⟩
  rcases same with ⟨nameEnc, objectId, rfl⟩
  rcases List.append_of_mem put with ⟨before, after, split⟩
  rcases pruned.obedient.lawful _ _ _ _ split with ⟨request, listedToo, rule⟩
  rcases Option.some.inj (listed.symm.trans listedToo) with rfl
  intro shard present
  rcases rule.1.stored shard present with ⟨bytes, stored, -⟩
  have inside : original.ns = putNs := rule.1.inside
  have made : (putter, ⟨.putShard ⟨manifest.ns, manifest.blobId, shard.index⟩ bytes, .ok ()⟩) ∈
      system.trace := by
    rw [split, ← sameNs, ← sameBlob]
    rw [← inside] at stored
    exact List.mem_append_left _ (mem_pastOf.mp stored)
  exact pruned.retained.shards putter _ bytes _ made notDeleted

theorem Adding.condemned_of_rules (adding : Adding requests tag) {past : List PortExchange}
    {blobId : BlobId} (deletes : Deletes ns blobId call)
    (permitted : Request.rules node requests index past call) :
    ∃ objectId, PruneVersions.Condemned ns objectId blobId past := by
  rcases permitted with ⟨request, listed, rule⟩
  cases request with
  | prune ns' objectId =>
      rcases deletes with rfl | rfl
      · rcases rule with ⟨rfl, condemned⟩
        exact ⟨objectId, condemned⟩
      · rcases rule with ⟨rfl, condemned, -⟩
        exact ⟨objectId, condemned⟩
  | delete ns' token blobId' =>
      exact absurd (List.mem_of_getElem? listed) (adding.noDelete ns' token blobId')
  | _ => rcases deletes with rfl | rfl <;> exact rule.elim

/-- A deleted version has `keep_versions` versions of the same object ahead of it. -/
theorem Pruned.exists_ahead (pruned : Pruned node env requests rank ns first system)
    (adding : Adding requests tag) {owned : Namespace} {contract : AppContract}
    (owner : first.store.getNamespace ns = some owned)
    (terms : first.store.getContract owned.appId = some contract) {objectId : String}
    {blobId : BlobId} (isVersion : blobId ∈ versionsOf ns objectId system.trace)
    (deleted : blobId ∈ deletedOf ns system.trace) :
    ∃ ahead ⊆ versionsOf ns objectId system.trace,
      contract.retention.keepVersions.toNat ≤ ahead.card ∧
      ∀ other ∈ ahead, seniority rank system.trace other < seniority rank system.trace blobId := by
  have lawful := pruned.obedient.lawful
  rcases mem_deletedOf.mp deleted with ⟨⟨index, made⟩, present, deletes⟩
  rcases List.append_of_mem present with ⟨before, after, split⟩
  rcases adding.condemned_of_rules deletes (lawful _ _ _ _ split) with ⟨pruneId, condemned⟩
  have earlier : pastOf index before ⊆ pastOf index system.trace := by
    intro exchange inPast
    rw [split, mem_pastOf]
    exact List.mem_append_left _ (mem_pastOf.mp inPast)
  rcases condemned.mono earlier with ⟨snapshot, time, version, taken, -, surplus, rfl⟩
  -- The prune was one of the same object, since blobs keep their tags.
  have sameObject : pruneId = objectId := by
    rcases surplus.beyond with ⟨position, -, sorted⟩
    have isTagged := (PruneVersions.newestFirst_perm _).mem_iff.mp (List.mem_of_getElem? sorted)
    rcases PruneVersions.exists_key_of_mem taken.read
      (PruneVersions.mem_of_mem_tagged isTagged) with ⟨key, -, answered⟩
    rcases pruned.ledger.read index ns key version (mem_pastOf.mp answered) with
      ⟨⟨inside, -⟩, written⟩
    rcases mem_versionsOf.mp isVersion with ⟨manifest, writtenToo, insideToo, carries, sameBlob⟩
    rw [adding.objectId_of_written pruned.ledger lawful written
        (PruneVersions.carries_of_mem_tagged isTagged),
      adding.objectId_of_written pruned.ledger lawful writtenToo carries, inside, insideToo,
      sameBlob]
  subst sameObject
  have sameContract : snapshot.contract = contract := by
    have sameOwner := pruned.ledger.owners index ns _ (mem_pastOf.mp taken.owner)
    have sameTerms := pruned.ledger.terms index _ _ (mem_pastOf.mp taken.terms)
    rcases Option.some.inj (sameOwner.symm.trans owner) with rfl
    exact Option.some.inj (sameTerms.symm.trans terms)
  rw [← sameContract]
  exact surplus.exists_ahead pruned.ledger lawful pruned.broken taken

/--
In every interleaving of puts, gets, repairs, prunes and taggings whose listings
return blobs created at the same time in one fixed order, at every moment at least
`keep_versions` of the versions tagged so far, or all of them if there are fewer,
have a manifest with the object id and all their shards.
-/
theorem pruning_keeps_newest (fresh : Function.Injective env.uuid) (node : Node)
    (none : ∀ ns blobId, first.store.getManifest ns blobId = none) (adding : Adding requests tag)
    {owned : Namespace} {contract : AppContract}
    (owner : first.store.getNamespace ns = some owned)
    (terms : first.store.getContract owned.appId = some contract) (objectId : String)
    (rank : BlobId → ℕ) {schedule : List ℕ}
    (ordered : System.Along (world env shardMap) (TiesOrdered env rank ns)
      (System.start first (requests.map (Request.program node))) schedule) :
    let final := System.exec (world env shardMap)
      (System.start first (requests.map (Request.program node))) schedule
    ∃ kept : Finset BlobId,
      min contract.retention.keepVersions.toNat (versionsOf ns objectId final.trace).card ≤
        kept.card ∧
      ∀ blobId ∈ kept, Kept final.state ns objectId blobId := by
  intro final
  have pruned : Pruned node env requests rank ns first final :=
    pruned_exec fresh none adding ordered
  refine ⟨versionsOf ns objectId final.trace \ deletedOf ns final.trace, ?_, ?_⟩
  · apply min_card_le_card_sdiff (seniority rank final.trace)
    intro version isVersion deleted
    exact pruned.exists_ahead adding owner terms isVersion deleted
  · intro blobId present
    rcases Finset.mem_sdiff.mp present with ⟨isVersion, notDeleted⟩
    exact pruned.kept isVersion notDeleted

theorem tiesOrdered_of_other (found : system.programs[index]? = some (.call call rest))
    (other : call ≠ .listBlobs ns) : TiesOrdered env rank ns system index := by
  intro later lists
  rw [found] at lists
  cases lists
  exact absurd rfl other

theorem tiesOrdered_of_listing {blobs : List BlobId}
    (listing : env.blobOrder system.state.tick (system.state.store.listBlobs ns) = blobs)
    (pairs : blobs.Pairwise fun one other => rank one < rank other) :
    TiesOrdered env rank ns system index := by
  intro rest _
  rw [listing]
  exact pairs.imp fun less _ _ _ _ _ => less

end Runs

/-- The hash map lists its keys in the other order at call 32. -/
def reorderingEnvironment : Environment :=
  { sampleEnvironment with
    blobOrder := fun tick blobs => if tick = 32 then blobs.reverse else blobs
    blobOrder_perm := by
      intro tick blobs
      split
      · exact blobs.reverse_perm
      · exact List.Perm.refl _ }

def versioning : List Request :=
  [samplePut 7, samplePut 9,
    .setName ⟨"ns-1"⟩ ⟨"blob-5"⟩ ⟨"name", some "object"⟩,
    .setName ⟨"ns-1"⟩ ⟨"blob-15"⟩ ⟨"name", some "object"⟩,
    .prune ⟨"ns-1"⟩ "object", .prune ⟨"ns-1"⟩ "object"]

theorem adding_versioning : Adding versioning fun _ _ => "object" := by
  constructor
  · simp [versioning, samplePut]
  · intro ns blobId naming listed
    simp only [versioning, samplePut, List.mem_cons, reduceCtorEq, Request.setName.injEq,
      List.not_mem_nil, or_false, false_or] at listed
    rcases listed with ⟨-, -, rfl⟩ | ⟨-, -, rfl⟩ <;> rfl

def versioningStart : World ShardMap :=
  ⟨sampleStore ⟨10, 10⟩ ⟨1, 0⟩, fun _ => none, [], 0⟩

/-- The puts and the taggings one after another, and the first two calls of a prune. -/
def versioningSetup : List ℕ :=
  List.replicate 10 0 ++ List.replicate 10 1 ++ [2, 2, 3, 3, 4, 4]

def versioningRun (schedule : List ℕ) : System ports Failure (World ShardMap) :=
  System.exec (world reorderingEnvironment shardMap)
    (System.start versioningStart (versioning.map (Request.program replicatingNode))) schedule

theorem pruning_keeps_newest_alone :
    let final := versioningRun (versioningSetup ++ List.replicate 6 4)
    ∃ kept : Finset BlobId, min 1 (versionsOf ⟨"ns-1"⟩ "object" final.trace).card ≤ kept.card ∧
      ∀ blobId ∈ kept, Kept final.state ⟨"ns-1"⟩ "object" blobId := by
  have owner : versioningStart.store.getNamespace ⟨"ns-1"⟩ =
      some ⟨⟨"ns-1"⟩, ⟨"app-1"⟩⟩ := rfl
  have terms : versioningStart.store.getContract ⟨"app-1"⟩ =
      some (AppContract.new ⟨"app-1"⟩ ⟨10, 10⟩ ⟨1, 0⟩ ⟨1, 2⟩) := rfl
  have listing : reorderingEnvironment.blobOrder (versioningRun versioningSetup).state.tick
      ((versioningRun versioningSetup).state.store.listBlobs ⟨"ns-1"⟩) =
        [⟨"blob-15"⟩, ⟨"blob-5"⟩] := by decide +kernel
  unfold versioningRun at listing
  apply pruning_keeps_newest injective_toString replicatingNode (fun _ _ => rfl)
    adding_versioning owner terms "object" fun blobId => if blobId = ⟨"blob-15"⟩ then 0 else 1
  refine System.along_append ?_ ⟨?_, ?_⟩
  · iterate 26 refine ⟨tiesOrdered_of_other rfl (by decide), ?_⟩
    exact trivial
  · exact tiesOrdered_of_listing listing (by decide)
  · iterate 5 refine ⟨tiesOrdered_of_other rfl (by decide), ?_⟩
    exact trivial

/-- Both prunes read the versions, in different orders, before either deletes. -/
theorem pruning_deletes_all_versions :
    let final := versioningRun
      (versioningSetup ++ ([4, 4, 4, 4] ++ List.replicate 6 5 ++ [4, 4, 5, 5]))
    Adding versioning (fun _ _ => "object") ∧
      ¬∃ kept : Finset BlobId,
        min 1 (versionsOf ⟨"ns-1"⟩ "object" final.trace).card ≤ kept.card ∧
          ∀ blobId ∈ kept, Kept final.state ⟨"ns-1"⟩ "object" blobId := by
  intro final
  refine ⟨adding_versioning, ?_⟩
  have two : (versionsOf ⟨"ns-1"⟩ "object" final.trace).card = 2 := by decide +kernel
  have gone : final.state.store.listBlobs ⟨"ns-1"⟩ = [] := by decide +kernel
  rintro ⟨kept, enough, there⟩
  rw [two] at enough
  rcases Finset.card_pos.mp enough with ⟨blobId, present⟩
  rcases there blobId present with ⟨manifest, found, -⟩
  have listed : blobId ∈ final.state.store.listBlobs ⟨"ns-1"⟩ := by
    rw [MemoryMetadataStore.mem_listBlobs, found]
    rfl
  rw [gone] at listed
  cases listed

end VaultMesh
