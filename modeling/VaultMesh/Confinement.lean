import VaultMesh.Coordinator
import VaultMesh.FsBlobAnchor
import VaultMesh.Sweeps

/-!
# Deleting on the file system

The namespace and the blob id of a delete are whatever texts were registered and
sent. If both are plain names, the delete removes the directory of this one blob.
If one is not, the path of the directory to remove names something else: the
empty id and `.` name the directory of the namespace, `..` names the root of the
anchor, and an absolute path may name any directory. A hold shuts this off as
long as no manifest is stored under the id whose hold is over: puts store
manifests under plain names only, but the coordinator takes any manifest.
-/

namespace VaultMesh

open Interaction Coding Files

theorem plain_freshId {env : Environment} (slashFree : ∀ tick, '/' ∉ (env.uuid tick).toList)
    (tick : ℕ) : Plain (env.freshId tick "blob") := by
  have hyphen : '-' ∈ (env.freshId tick "blob").toList := by
    simp [Environment.freshId, String.toList_append]
  refine ⟨?_, ?_, ?_⟩
  · have rest := slashFree tick
    simp only [Environment.freshId, String.toList_append, List.mem_append, not_or]
    exact ⟨⟨by decide, by decide⟩, rest⟩
  · rintro (empty | dot)
    · rw [empty] at hyphen
      exact absurd hyphen (by decide)
    · rw [dot] at hyphen
      exact absurd hyphen (by decide)
  · intro dots
    rw [dots] at hyphen
    exact absurd hyphen (by decide)

/-! ## The run of a delete -/

section Deleting

variable {A : Type} {env : Environment} {anchors : AnchorModel A} {state : World A}
  {ns : NamespaceId} {token : CapabilityToken} {blobId : BlobId}

/-- The terms of the namespace let a delete of the blob through. -/
def Deletable (env : Environment) (state : World A) (ns : NamespaceId) (blobId : BlobId) : Prop :=
  ∃ owned contract, state.store.getNamespace ns = some owned ∧
    state.store.getContract owned.appId = some contract ∧
    (0 < contract.retention.minDays → ∃ manifest,
      state.store.getManifest ns blobId = some manifest ∧
        contract.retention.holdElapsed manifest.createdAt (env.clock (state.tick + 5)) = true)

theorem DeleteBackup.deletable_of_precheck {last : World A}
    (passed : (precheck ns token blobId).run (world env anchors) state = (.ok (), last)) :
    Deletable env state ns blobId := by
  have unfailing : faultyWorld env anchors .none (fun _ _ => id) = world env anchors :=
    faultyWorld_none
  rw [← unfailing] at passed
  rcases Program.run_bind_eq_ok passed with ⟨app, middle, authorized, passed⟩
  rcases authorize_run_ok_iff.mp authorized with ⟨cleared, rfl, rfl⟩
  simp only [getContract_run_ok_iff, run_okOr_bind_ok_iff] at passed
  rcases passed with ⟨-, contract, known, passed⟩
  rcases cleared.owner with ⟨owned, owner, owns⟩
  have sameApp : owned.appId = token.claims.appId := by simpa [Namespace.ownedBy] using owns
  refine ⟨owned, contract, owner, by rw [sameApp]; exact known, ?_⟩
  intro holds
  rw [if_pos holds] at passed
  simp only [getManifest_run_ok_iff, run_okOr_bind_ok_iff, now_run_ok_iff] at passed
  rcases passed with ⟨-, manifest, found, passed⟩
  refine ⟨manifest, found, ?_⟩
  by_contra held
  rw [if_neg (by exact held)] at passed
  cases (Prod.mk.inj passed).1

/-- A delete does nothing, or the terms let it through and it removes one blob. -/
theorem DeleteBackup.execute_run_cases (env : Environment) (anchors : AnchorModel A)
    (state : World A) (ns : NamespaceId) (token : CapabilityToken) (blobId : BlobId) :
    let after := ((execute ns token blobId).run (world env anchors) state).2
    (after.anchor = state.anchor ∨ Deletable env state ns blobId ∧
        after.anchor = (anchors.deleteBlob state.anchor ns blobId).2) ∧
      ∀ ns' blobId', (ns', blobId') ≠ (ns, blobId) →
        after.store.getManifest ns' blobId' = state.store.getManifest ns' blobId' := by
  intro after
  have ran : after = ((precheck ns token blobId >>= fun _ => remove ns blobId).run
      (world env anchors) state).2 := by
    rw [← execute_eq]
  have reads := (readOnly_run (precheck_obeys ns token blobId) env anchors state).1
  rcases checked : (precheck ns token blobId).run (world env anchors) state with
    ⟨outcome, middle⟩
  rw [checked] at reads
  rw [Program.run_bind, checked] at ran
  cases outcome with
  | error failure =>
      rw [ran]
      refine ⟨Or.inl reads.2, ?_⟩
      intro ns' blobId' _
      rw [reads.1]
  | ok passed =>
      rcases remove_run env anchors middle ns blobId with ⟨removed, -, others⟩
      rw [ran]
      refine ⟨Or.inr ⟨deletable_of_precheck checked, ?_⟩, ?_⟩
      · rw [removed, reads.2]
      · intro ns' blobId' other
        rw [others ns' blobId' other, reads.1]

/-- The way to a shard of another blob does not pass through the directory of the blob. -/
theorem FsBlobAnchor.not_prefix_of_other {anchor : FsBlobAnchor} {ref : ShardRef}
    (other : (ref.ns, ref.blobId) ≠ (ns, blobId)) {part : List String}
    (onTheWay : part <+: names anchor.root.components ++
      [ref.ns.value, ref.blobId.value, shardName ref.index]) :
    ¬(anchor.home ++ [ns.value, blobId.value]) <+: anchor.root.start anchor.cwd ++ part := by
  intro below
  rw [home, List.append_assoc, List.prefix_append_right_inj] at below
  have inside := (List.prefix_append_right_inj _).mp (below.trans onTheWay)
  rcases List.cons_prefix_cons.mp inside with ⟨sameNs, rest⟩
  rcases List.cons_prefix_cons.mp rest with ⟨sameBlob, -⟩
  apply other
  rw [Prod.mk.injEq]
  exact ⟨congrArg NamespaceId.mk sameNs.symm, congrArg BlobId.mk sameBlob.symm⟩

end Deleting

/-! ## Shards which puts have stored -/

section Putting

variable {A : Type} {env : Environment} {anchors : AnchorModel A} {node : Node}
  {requests : List Request} {first : World A}

/-- A put has stored a shard of the blob. -/
def StoredByPut (requests : List Request) (trace : Trace) (ns : NamespaceId) (blobId : BlobId) :
    Prop :=
  ∃ index mesh token ciphertext, requests[index]? = some (.put mesh ns token ciphertext) ∧
    ∃ shardIndex bytes answer,
      (index, ⟨.putShard ⟨ns, blobId, shardIndex⟩ bytes, answer⟩) ∈ trace

/-- The first programs serve requests, and the others are anybody's. -/
theorem Request.obedient_among (node : Node) (requests : List Request)
    (others : List (UseCase Unit)) (first : World A) :
    System.Obedient (fun index past call =>
        ∀ request, requests[index]? = some request → request.rule node past call)
      (System.start first (requests.map (program node) ++ others)) := by
  apply System.obedient_start
  intro index program found
  rcases Nat.lt_or_ge index requests.length with inside | outside
  · rw [List.getElem?_append_left (by simpa using inside)] at found
    refine ((program_obeys node requests found).weaken ?_).conclude fun _ _ _ => trivial
    rintro past call ⟨request, listed, permitted⟩ other listedToo
    rcases Option.some.inj (listed.symm.trans listedToo) with rfl
    exact permitted
  · refine Program.obeys_of_forall ?_ (fun _ _ => trivial) program
    intro suffix call request listed
    rw [List.getElem?_eq_none outside] at listed
    cases listed

/-- Whatever programs run, the ids which they are told are drawn. -/
theorem drawn_exec {programs : List (UseCase Unit)} {schedule : List ℕ} :
    ∀ index kind id, (index, (⟨.newId kind, id⟩ : PortExchange)) ∈
        (System.exec (world env anchors) (System.start first programs) schedule).trace →
      ∃ tick, id = env.freshId tick kind := by
  refine System.exec_invariant (fun system : System ports Failure (World A) =>
    ∀ index kind id, (index, (⟨.newId kind, id⟩ : PortExchange)) ∈ system.trace →
      ∃ tick, id = env.freshId tick kind) schedule (by rintro _ _ _ ⟨⟩) ?_
  intro system index before
  rcases System.step_cases (world env anchors) system index with
    same | ⟨request, rest, found, called⟩
  · rw [same]
    exact before
  · rw [called]
    intro other kind id there
    rcases mem_trace_append there with earlier | ⟨-, rfl, rfl⟩
    · exact before other kind id earlier
    · exact ⟨system.state.tick, rfl⟩

/-- The ids of blobs for which puts have stored shards are drawn. -/
theorem StoredByPut.plain (slashFree : ∀ tick, '/' ∉ (env.uuid tick).toList)
    {others : List (UseCase Unit)} {schedule : List ℕ} {ns : NamespaceId} {blobId : BlobId}
    (stored : StoredByPut requests (System.exec (world env anchors) (System.start first
      (requests.map (Request.program node) ++ others)) schedule).trace ns blobId) :
    Plain blobId.value := by
  have obedient : System.Obedient _ (System.exec (world env anchors) (System.start first
      (requests.map (Request.program node) ++ others)) schedule) :=
    (Request.obedient_among node requests others first).run schedule
  rcases stored with ⟨index, mesh, token, ciphertext, listed, shardIndex, bytes, answer, there⟩
  rcases List.append_of_mem there with ⟨before, after, split⟩
  have permitted := obedient.lawful _ _ _ _ split _ listed
  have drawn : (index, (⟨.newId "blob", blobId.value⟩ : PortExchange)) ∈ before :=
    mem_pastOf.mp permitted.2
  rcases drawn_exec index "blob" _ (by rw [split]; exact List.mem_append_left _ drawn) with
    ⟨tick, same⟩
  rw [same]
  exact plain_freshId slashFree tick

end Putting

/-- Both ids are plain names, or the hold stops the delete: its namespace has one, and no manifest
is stored under the id whose hold is over when the clock is read. -/
def Harmless {A : Type} (env : Environment) (state : World A) (ns : NamespaceId)
    (blobId : BlobId) : Prop :=
  Plain ns.value ∧ Plain blobId.value ∨
    ∀ owned contract, state.store.getNamespace ns = some owned →
      state.store.getContract owned.appId = some contract →
        0 < contract.retention.minDays ∧ ∀ manifest,
          state.store.getManifest ns blobId = some manifest →
            contract.retention.holdElapsed manifest.createdAt (env.clock (state.tick + 5)) = false

theorem Harmless.plain {A : Type} {env : Environment} {state : World A} {ns : NamespaceId}
    {blobId : BlobId} (harmless : Harmless env state ns blobId)
    (deletable : Deletable env state ns blobId) : Plain ns.value ∧ Plain blobId.value := by
  rcases harmless with plain | stopped
  · exact plain
  · rcases deletable with ⟨owned, contract, owner, terms, elapsed⟩
    rcases stopped owned contract owner terms with ⟨holds, held⟩
    rcases elapsed holds with ⟨manifest, found, ended⟩
    rw [held manifest found] at ended
    cases ended

/--
Requests to nodes and requests to the coordinator, which registers any namespaces
and stores any manifests, come in any order. In every state which they reach, a
harmless delete changes nothing outside the directory of the blob it names, and of
every other blob in a namespace with a plain name, which a put has stored or whose
id is a plain name, all shards are as before, and so is what a restore from the
anchor comes to. Roots are any paths which do not go up, and ids are generated
without slashes.
-/
theorem delete_is_confined {env : Environment}
    (slashFree : ∀ tick, '/' ∉ (env.uuid tick).toList) (anchor : FsBlobAnchor)
    (noUp : ".." ∉ anchor.root.components) (node : Node) (first : World FileSystem)
    (requests : List Request) (posts : List CoordinatorRequest) (schedule : List ℕ) :
    let run := System.exec (world env anchor.model) (System.start first
      (requests.map (Request.program node) ++ posts.map CoordinatorRequest.program)) schedule
    ∀ ns token blobId, Harmless env run.state ns blobId →
      let after :=
        ((DeleteBackup.execute ns token blobId).run (world env anchor.model) run.state).2
      (∀ other, ¬(anchor.home ++ [ns.value, blobId.value]) <+: other →
        after.anchor other = run.state.anchor other) ∧
      ∀ ns' blobId', (ns', blobId') ≠ (ns, blobId) → Plain ns'.value →
        Plain blobId'.value ∨ StoredByPut requests run.trace ns' blobId' →
        (∀ index, anchor.getShard after.anchor ⟨ns', blobId', index⟩ =
          anchor.getShard run.state.anchor ⟨ns', blobId', index⟩) ∧
        (((node.get false).reconstruct ns' blobId').run (world env anchor.model) after).1 =
          (((node.get false).reconstruct ns' blobId').run (world env anchor.model)
            run.state).1 := by
  intro run ns token blobId harmless after
  rcases DeleteBackup.execute_run_cases env anchor.model run.state ns token blobId with
    ⟨removal, manifests⟩
  have files : ∀ other, ¬(anchor.home ++ [ns.value, blobId.value]) <+: other →
      after.anchor other = run.state.anchor other := by
    intro other outside
    rcases removal with same | ⟨deletable, removed⟩
    · exact congrFun same other
    · rcases harmless.plain deletable with ⟨nsPlain, blobPlain⟩
      exact (congrFun removed other).trans
        (FsBlobAnchor.deleteBlob_outside noUp nsPlain blobPlain outside)
  refine ⟨files, ?_⟩
  intro ns' blobId' other nsPlain stored
  have blobPlain : Plain blobId'.value := by
    rcases stored with plain | put
    · exact plain
    · exact put.plain slashFree
  have sameShards : ∀ index, anchor.getShard after.anchor ⟨ns', blobId', index⟩ =
      anchor.getShard run.state.anchor ⟨ns', blobId', index⟩ := by
    intro index
    apply FsBlobAnchor.getShard_congr noUp nsPlain blobPlain
    intro part onTheWay
    exact files _ (FsBlobAnchor.not_prefix_of_other other onTheWay)
  exact ⟨sameShards,
    GetBackup.reconstruct_congr env anchor.model rfl (manifests ns' blobId' other) sameShards⟩

/-! ## A node which stores under `/data` -/

theorem isDigit_of_mem_sampleUuid {tick : ℕ} {letter : Char}
    (present : letter ∈ (sampleEnvironment.uuid tick).toList) : letter.isDigit = true := by
  have digit : letter ∈ (toString tick).toList := present
  rw [Nat.toString_eq_ofList_toDigits, String.toList_ofList] at digit
  exact Nat.isDigit_of_mem_toDigits (by decide) (by decide) digit

def dataAnchor : FsBlobAnchor :=
  ⟨[], ⟨true, ["", "data"]⟩⟩

def dataWorld : World FileSystem where
  store := sampleStore ⟨10, 10⟩ ⟨1, 0⟩
  anchor := fun location => if location = [] ∨ location = ["data"] then some .dir else none
  signed := []
  tick := 0

def dataRequests : List Request :=
  [samplePut 7]

def dataStored : World FileSystem :=
  (System.exec (world sampleEnvironment dataAnchor.model)
    (System.start dataWorld (dataRequests.map (Request.program replicatingNode)))
    (List.replicate 10 0)).state

def dataDeleted (blobId : BlobId) : Except Failure Unit × World FileSystem :=
  (DeleteBackup.execute ⟨"ns-1"⟩ (sampleToken .delete) blobId).run
    (world sampleEnvironment dataAnchor.model) dataStored

/-- The put is served, and somebody posts a manifest without an id. -/
def dataVisited : World FileSystem :=
  (System.exec (world sampleEnvironment dataAnchor.model) (System.start dataWorld
    (dataRequests.map (Request.program replicatingNode) ++
      [CoordinatorRequest.metaPutManifest { sampleManifest [.anchor] with blobId := ⟨""⟩ }].map
        CoordinatorRequest.program)) (List.replicate 10 0 ++ [1])).state

theorem delete_is_confined_unknownBlob :
    (((replicatingNode.get false).reconstruct ⟨"ns-1"⟩ ⟨"blob-5"⟩).run
      (world sampleEnvironment dataAnchor.model)
      ((DeleteBackup.execute ⟨"ns-1"⟩ (sampleToken .delete) ⟨"blob-6"⟩).run
        (world sampleEnvironment dataAnchor.model) dataVisited).2).1 = .ok ⟨[7], 2, 0⟩ := by
  have stored : (((replicatingNode.get false).reconstruct ⟨"ns-1"⟩ ⟨"blob-5"⟩).run
      (world sampleEnvironment dataAnchor.model) dataVisited).1 = .ok ⟨[7], 2, 0⟩ := by
    decide +kernel
  have slashFree : ∀ tick, '/' ∉ (sampleEnvironment.uuid tick).toList := by
    intro tick slash
    exact absurd (isDigit_of_mem_sampleUuid slash) (by decide)
  have plain : ∀ name ∈ ["ns-1", "blob-5", "blob-6"], Plain name := by
    intro name listed
    refine ⟨?_, ?_, ?_⟩ <;>
      revert name <;>
      decide
  have confined := delete_is_confined slashFree dataAnchor (by decide) replicatingNode dataWorld
    dataRequests [.metaPutManifest { sampleManifest [.anchor] with blobId := ⟨""⟩ }]
    (List.replicate 10 0 ++ [1]) ⟨"ns-1"⟩ (sampleToken .delete) ⟨"blob-6"⟩
    (Or.inl ⟨plain _ (by decide), plain _ (by decide)⟩)
  rw [dataVisited] at stored ⊢
  rw [(confined.2 ⟨"ns-1"⟩ ⟨"blob-5"⟩ (by decide) (plain _ (by decide))
    (Or.inl (plain _ (by decide)))).2]
  exact stored

/-- The empty blob id names the directory of the namespace, with the stored blob in it. -/
theorem delete_escapes_its_blob :
    (dataDeleted ⟨""⟩).1 = .ok () ∧
    dataAnchor.getShard dataStored.anchor ⟨⟨"ns-1"⟩, ⟨"blob-5"⟩, 0⟩ = .ok [7] ∧
    dataAnchor.getShard (dataDeleted ⟨""⟩).2.anchor ⟨⟨"ns-1"⟩, ⟨"blob-5"⟩, 0⟩ =
      .error .notFound ∧
    ((replicatingNode.get false).reconstruct ⟨"ns-1"⟩ ⟨"blob-5"⟩ |>.run
      (world sampleEnvironment dataAnchor.model) dataStored).1 = .ok ⟨[7], 2, 0⟩ ∧
    ((replicatingNode.get false).reconstruct ⟨"ns-1"⟩ ⟨"blob-5"⟩ |>.run
      (world sampleEnvironment dataAnchor.model) (dataDeleted ⟨""⟩).2).1 =
        .error (.port (.unavailable "only 0 valid of 2 shards (need k=1)")) := by
  decide +kernel

end VaultMesh
