import VaultMesh.Durability
import VaultMesh.Requests

/-!
# Deleting while repairs run

A delete removes the shards of a blob first and its manifest last. A repair
reads the manifest and the shards and rewrites the bad ones later, so its
`put_shard` may come after the `delete_blob` of the delete. Nothing ever
removes such a shard. The final state is therefore decided by the order of
these two calls alone: `Swept` says that no shard was written after the shards
of the blob were last deleted.
-/

namespace VaultMesh

open Interaction Coding

def WritesShard (ns : NamespaceId) (blobId : BlobId) (call : PortCall) : Prop :=
  ∃ ref bytes, call = .putShard ref bytes ∧ ref.ns = ns ∧ ref.blobId = blobId

/-- The shards of the blob were deleted, and none was written since. -/
def Swept (ns : NamespaceId) (blobId : BlobId) (trace : Trace) : Prop :=
  ∃ before event after, trace = before ++ event :: after ∧
    event.2.1 = .deleteBlob ns blobId ∧ ∀ later ∈ after, ¬WritesShard ns blobId later.2.1

variable {ns : NamespaceId} {blobId : BlobId}

theorem swept_append {trace : Trace} {event : ℕ × PortExchange} :
    Swept ns blobId (trace ++ [event]) ↔
      event.2.1 = .deleteBlob ns blobId ∨
        Swept ns blobId trace ∧ ¬WritesShard ns blobId event.2.1 := by
  constructor
  · rintro ⟨before, deletion, after, split, deletes, unwritten⟩
    rcases List.eq_nil_or_concat after with rfl | ⟨front, last, rfl⟩
    · rcases List.append_inj' split rfl with ⟨-, same⟩
      rcases List.cons.inj same with ⟨rfl, -⟩
      exact Or.inl deletes
    · have moved : trace ++ [event] = (before ++ deletion :: front) ++ [last] := by
        rw [split]
        simp
      rcases List.append_inj' moved rfl with ⟨rfl, same⟩
      rcases List.cons.inj same with ⟨rfl, -⟩
      refine Or.inr ⟨⟨before, deletion, front, rfl, deletes, ?_⟩, unwritten event (by simp)⟩
      intro later present
      exact unwritten later (by simp [present])
  · rintro (deletes | ⟨⟨before, deletion, after, rfl, deletes, unwritten⟩, notWritten⟩)
    · exact ⟨trace, event, [], rfl, deletes, by simp⟩
    · refine ⟨before, deletion, after ++ [event], by simp, deletes, ?_⟩
      intro later present
      rcases List.mem_append.mp present with inside | last
      · exact unwritten later inside
      · rcases List.mem_singleton.mp last with rfl
        exact notWritten

theorem World.anchor_after_of_other {call : PortCall} (kept : call ≠ .deleteBlob ns blobId)
    (unwritten : ¬WritesShard ns blobId call) (state : World ShardMap) (index : UInt16) :
    (state.after shardMap call).anchor ⟨ns, blobId, index⟩ = state.anchor ⟨ns, blobId, index⟩ := by
  cases call with
  | putShard ref bytes =>
      apply Function.update_of_ne
      rintro rfl
      exact unwritten ⟨_, bytes, rfl, rfl, rfl⟩
  | deleteBlob ns' blobId' =>
      apply if_neg
      rintro ⟨rfl, rfl⟩
      exact kept rfl
  | _ => rfl

/-- What is left of the blob at any moment of a run without puts and renamings. -/
structure Aftermath (ns : NamespaceId) (blobId : BlobId) (state : World ShardMap)
    (trace : Trace) : Prop where
  emptied : Swept ns blobId trace → ∀ index, state.anchor ⟨ns, blobId, index⟩ = none
  rewritten : (∃ event ∈ trace, event.2.1 = .deleteBlob ns blobId) → ¬Swept ns blobId trace →
    ∃ index, state.anchor ⟨ns, blobId, index⟩ ≠ none
  forgotten : (∃ event ∈ trace, event.2.1 = .deleteManifest ns blobId) →
    state.store.getManifest ns blobId = none

theorem Aftermath.step {state : World ShardMap} {trace : Trace} {index : ℕ}
    {call : PortCall} (aftermath : Aftermath ns blobId state trace) (answer : call.Answer)
    (noPut : ∀ manifest, call ≠ .putManifest manifest) :
    Aftermath ns blobId (state.after shardMap call) (trace ++ [(index, ⟨call, answer⟩)]) := by
  constructor
  · intro swept place
    by_cases deletes : call = .deleteBlob ns blobId
    · subst deletes
      exact if_pos ⟨rfl, rfl⟩
    · rcases swept_append.mp swept with now | ⟨before, unwritten⟩
      · exact absurd now deletes
      · rw [World.anchor_after_of_other deletes unwritten]
        exact aftermath.emptied before place
  · rintro ⟨event, present, deleted⟩ unswept
    rw [swept_append, not_or, not_and_or, not_not] at unswept
    rcases unswept with ⟨kept, either⟩
    by_cases written : WritesShard ns blobId call
    · rcases written with ⟨ref, bytes, rfl, rfl, rfl⟩
      exact ⟨ref.index, by simp [World.after, AnchorModel.after, shardMap]⟩
    · have before : ∃ event ∈ trace, event.2.1 = .deleteBlob ns blobId := by
        rcases List.mem_append.mp present with earlier | last
        · exact ⟨event, earlier, deleted⟩
        · rcases List.mem_singleton.mp last with rfl
          exact absurd deleted kept
      rcases aftermath.rewritten before (either.resolve_right written) with ⟨place, there⟩
      refine ⟨place, ?_⟩
      rw [World.anchor_after_of_other kept written]
      exact there
  · rintro ⟨event, present, deleted⟩
    by_cases forgets : call = .deleteManifest ns blobId
    · subst forgets
      exact MemoryMetadataStore.getManifest_deleteManifest_self _ _ _
    · have before : ∃ event ∈ trace, event.2.1 = .deleteManifest ns blobId := by
        rcases List.mem_append.mp present with earlier | last
        · exact ⟨event, earlier, deleted⟩
        · rcases List.mem_singleton.mp last with rfl
          exact absurd deleted forgets
      rw [Option.eq_none_iff_forall_ne_some]
      intro manifest found
      rcases MemoryMetadataStore.getManifest_after found with there | ⟨isPut, -, -⟩
      · rw [aftermath.forgotten before] at there
        cases there
      · exact noPut manifest isPut

/-- Request `remover` deletes the blob; all others repair it. -/
structure Removing (requests : List Request) (remover : ℕ) (ns : NamespaceId) (blobId : BlobId)
    (trace : Trace) : Prop where
  removes : (∃ token, requests[remover]? = some (.delete ns token blobId)) ∨
    ∃ objectId answer, requests[remover]? = some (.prune ns objectId) ∧
      (remover, ⟨.deleteBlob ns blobId, answer⟩) ∈ trace
  repairs : ∀ index request, requests[index]? = some request → index ≠ remover →
    ∃ transport, request = .repair transport ns blobId

theorem Removing.not_putManifest {node : Node} {requests : List Request} {remover : ℕ}
    {trace : Trace} (removing : Removing requests remover ns blobId trace) {index : ℕ}
    {past : List PortExchange} {call : PortCall}
    (permitted : Request.rules node requests index past call) (manifest : Manifest) :
    call ≠ .putManifest manifest := by
  rintro rfl
  rcases permitted with ⟨request, listed, rule⟩
  by_cases same : index = remover
  · subst same
    rcases removing.removes with ⟨token, isDelete⟩ | ⟨objectId, -, isPrune, -⟩
    · rcases Option.some.inj (listed.symm.trans isDelete) with rfl
      exact rule
    · rcases Option.some.inj (listed.symm.trans isPrune) with rfl
      exact rule
  · rcases removing.repairs index request listed same with ⟨transport, rfl⟩
    exact rule

theorem Removing.deleted {node : Node} {requests : List Request} {remover : ℕ} {σ : Type}
    {handler : Handler ports σ} {first : σ} {schedule : List ℕ} {final : System ports Failure σ}
    (ran : System.exec handler (System.start first (requests.map (Request.program node)))
      schedule = final)
    (removing : Removing requests remover ns blobId final.trace)
    (ended : final.Ended remover (.ok ())) :
    (∃ event ∈ final.trace, event.2.1 = .deleteBlob ns blobId) ∧
      ∃ event ∈ final.trace, event.2.1 = .deleteManifest ns blobId := by
  subst ran
  rcases removing.removes with ⟨token, isDelete⟩ | ⟨objectId, answer, isPrune, made⟩
  · rcases Request.completed_of_ended isDelete ended with ⟨shards, manifest⟩
    exact ⟨⟨_, mem_pastOf.mp shards, rfl⟩, ⟨_, mem_pastOf.mp manifest, rfl⟩⟩
  · rcases Request.completed_of_ended isPrune ended blobId answer (mem_pastOf.mpr made) with
      ⟨shards, manifest⟩
    exact ⟨⟨_, mem_pastOf.mp shards, rfl⟩, ⟨_, mem_pastOf.mp manifest, rfl⟩⟩

/--
A delete or a prune removes a blob while any number of repairs of the blob run, in
any interleaving and from any state of the store and the anchor. Once the removal
has returned, shards and manifest are gone exactly when no repair wrote a shard
after the removal's `delete_blob`.
-/
theorem removal_is_complete_iff (node : Node) (env : Environment) (first : World ShardMap)
    (requests : List Request) (schedule : List ℕ) {final : System ports Failure (World ShardMap)}
    (ran : System.exec (world env shardMap)
      (System.start first (requests.map (Request.program node))) schedule = final)
    {remover : ℕ} (removing : Removing requests remover ns blobId final.trace)
    (ended : final.Ended remover (.ok ())) :
    ((∀ index, final.state.anchor ⟨ns, blobId, index⟩ = none) ∧
        final.state.store.getManifest ns blobId = none) ↔
      Swept ns blobId final.trace := by
  rcases removing.deleted ran ended with ⟨shardsDeleted, manifestDeleted⟩
  have aftermath : Aftermath ns blobId final.state final.trace := by
    have start : Aftermath ns blobId first [] := by
      refine ⟨?_, by simp, by simp⟩
      rintro ⟨before, event, after, split, -⟩
      simp at split
    subst ran
    apply ((Request.obedient_start node requests first).exec start ?_ schedule).2
    intro state trace index call _ aftermath permitted
    exact aftermath.step _ (removing.not_putManifest permitted)
  constructor
  · rintro ⟨empty, -⟩
    by_contra unswept
    rcases aftermath.rewritten shardsDeleted unswept with ⟨index, there⟩
    exact there (empty index)
  · intro swept
    exact ⟨aftermath.emptied swept, aftermath.forgotten manifestDeleted⟩

def sampleRemoval : List Request :=
  [.repair false ⟨"ns-1"⟩ ⟨"blob-5"⟩, .delete ⟨"ns-1"⟩ (sampleToken .delete) ⟨"blob-5"⟩]

def removalRun (schedule : List ℕ) : System ports Failure (World ShardMap) :=
  System.exec (world sampleEnvironment shardMap)
    (System.start
      { storedRun.2 with
        anchor := Function.update storedRun.2.anchor ⟨⟨"ns-1"⟩, ⟨"blob-5"⟩, 0⟩ none }
      (sampleRemoval.map (Request.program replicatingNode)))
    schedule

theorem removing_sampleRemoval (trace : Trace) :
    Removing sampleRemoval 1 ⟨"ns-1"⟩ ⟨"blob-5"⟩ trace := by
  refine ⟨Or.inl ⟨sampleToken .delete, rfl⟩, ?_⟩
  intro index request listed other
  rcases List.getElem?_eq_some_iff.mp listed with ⟨bound, rfl⟩
  have isFirst : index = 0 := by
    simp only [sampleRemoval, List.length_cons, List.length_nil] at bound
    omega
  subst isFirst
  exact ⟨false, rfl⟩

theorem removal_is_complete_iff_repairedFirst :
    let final := removalRun [0, 0, 0, 0, 1, 1, 1, 1, 1, 1]
    (∀ index, final.state.anchor ⟨⟨"ns-1"⟩, ⟨"blob-5"⟩, index⟩ = none) ∧
      final.state.store.getManifest ⟨"ns-1"⟩ ⟨"blob-5"⟩ = none := by
  intro final
  have split : final.trace = final.trace.take 8 ++
      (1, ⟨.deleteBlob ⟨"ns-1"⟩ ⟨"blob-5"⟩, .ok ()⟩) ::
        [(1, ⟨.deleteManifest ⟨"ns-1"⟩ ⟨"blob-5"⟩, .ok ()⟩)] := rfl
  have swept : Swept ⟨"ns-1"⟩ ⟨"blob-5"⟩ final.trace := by
    refine ⟨_, _, _, split, rfl, ?_⟩
    intro later present
    rcases List.mem_singleton.mp present with rfl
    rintro ⟨ref, bytes, isPut, -⟩
    cases isPut
  have ended : final.Ended 1 (.ok ()) := rfl
  exact (removal_is_complete_iff replicatingNode sampleEnvironment _ sampleRemoval _ rfl
    (removing_sampleRemoval _) ended).mpr swept

/-- The repair has read the shards when the delete runs, and writes one when it has ended. -/
theorem removal_outrun_by_repair :
    let final := removalRun [0, 0, 0, 1, 1, 1, 1, 1, 1, 0]
    Removing sampleRemoval 1 ⟨"ns-1"⟩ ⟨"blob-5"⟩ final.trace ∧
      final.Ended 0 (.ok ()) ∧ final.Ended 1 (.ok ()) ∧
      ¬((∀ index, final.state.anchor ⟨⟨"ns-1"⟩, ⟨"blob-5"⟩, index⟩ = none) ∧
        final.state.store.getManifest ⟨"ns-1"⟩ ⟨"blob-5"⟩ = none) := by
  refine ⟨removing_sampleRemoval _, rfl, rfl, ?_⟩
  rintro ⟨empty, -⟩
  have left : some [7] = (none : Option Bytes) := empty 0
  cases left

end VaultMesh
