import VaultMesh.NameUpdates

/-!
# Serializable updates of one manifest

An interleaving of namings and deletions keeps to the outcomes of serial orders
as long as each writing step finds the manifest still there and does not put
back an object id which is older than one sent (`Fresh`). The invariant behind
this, `Orderly`, says what every request has read and what has become of the
initial manifest. It decides for every step whether the requests which have
ended can still be put into an order.
-/

namespace VaultMesh

open Interaction

section Updates

variable {A : Type} {env : Environment} {anchors : AnchorModel A} {ns : NamespaceId}
  {blobId : BlobId} {requests : List NameUpdate}

/-! ## Interleavings -/

abbrev Updates (A : Type) := System ports Failure (World A)

/-- Some request which has ended sent this object id. -/
def Sent (requests : List NameUpdate) (system : Updates A) (objectId : String) : Prop :=
  ∃ index naming result, requests[index]? = some (.setName naming) ∧
    naming.objectId = some objectId ∧ system.Ended index result

/-- A step which writes finds the manifest still there and puts back no outdated object id. -/
def Fresh (ns : NamespaceId) (blobId : BlobId) (requests : List NameUpdate) (system : Updates A)
    (index : ℕ) : Prop :=
  ∀ manifest rest, system.programs[index]? = some (.call (.putManifest manifest) rest) →
    (manifestAt ns blobId system.state).isSome ∧
    ((∃ naming, requests[index]? = some (.setName naming) ∧ naming.objectId.isSome) ∨
      (∀ id, ¬Sent requests system id) ∨
      ∃ id, manifest.objectId = some id ∧ Sent requests system id)

/-- A manifest which the requests made of the initial one. -/
structure Version (requests : List NameUpdate) (system : Updates A) (initial manifest : Manifest) :
    Prop where
  renamed : Renamed initial manifest
  objectId : manifest.objectId = initial.objectId ∨
    ∃ id, manifest.objectId = some id ∧ Sent requests system id

/-- How far a request has come. -/
inductive Phase (ns : NamespaceId) (blobId : BlobId) (initial : Option Manifest)
    (version : Manifest → Manifest → Prop) : NameUpdate → UseCase Unit → Prop
  | waiting (request : NameUpdate) :
      Phase ns blobId initial version request (request.program ns blobId)
  | read (naming : SetNameRequest) (original manifest : Manifest) (was : initial = some original)
      (found : version original manifest) :
      Phase ns blobId initial version (.setName naming)
        (VaultMesh.putManifest (manifest.named naming))
  | named (naming : SetNameRequest) (was : initial.isSome) :
      Phase ns blobId initial version (.setName naming) (.done (.ok ()))
  | missed (naming : SetNameRequest) :
      Phase ns blobId initial version (.setName naming) (.done (.error (.port .notFound)))
  | deleted : Phase ns blobId initial version .delete (.done (.ok ()))

/-- What every request has read and what has become of the initial manifest. -/
structure Orderly (ns : NamespaceId) (blobId : BlobId) (requests : List NameUpdate)
    (initial : Option Manifest) (system : Updates A) : Prop where
  length : system.programs.length = requests.length
  phase : ∀ (index : ℕ) request program, requests[index]? = some request →
    system.programs[index]? = some program →
    Phase ns blobId initial (Version requests system) request program
  present : ∀ manifest, manifestAt ns blobId system.state = some manifest →
    (∃ original, initial = some original ∧ Version requests system original manifest) ∧
      ∀ index request result, requests[index]? = some request → system.Ended index result →
        (∃ naming, request = .setName naming) ∧ result = .ok ()
  absent : manifestAt ns blobId system.state = none →
    initial = none ∨ ∃ index result, requests[index]? = some .delete ∧ system.Ended index result

section Invariant

variable {initial : Option Manifest} {system : Updates A} {index : ℕ}

theorem Orderly.exists_request (orderly : Orderly ns blobId requests initial system)
    {program : UseCase Unit} (found : system.programs[index]? = some program) :
    ∃ request, requests[index]? = some request := by
  have inside := (List.getElem?_eq_some_iff.mp found).1
  rw [orderly.length] at inside
  exact ⟨requests[index], by simp [inside]⟩

/-- How a request can have ended. -/
theorem Orderly.ended_cases (orderly : Orderly ns blobId requests initial system)
    {result : Except Failure Unit} (ended : system.Ended index result) :
    (∃ naming, requests[index]? = some (.setName naming) ∧
        (initial.isSome ∧ result = .ok () ∨ result = .error (.port .notFound))) ∨
      requests[index]? = some .delete ∧ result = .ok () := by
  rcases orderly.exists_request ended with ⟨request, listed⟩
  have phase := orderly.phase index request _ listed ended
  generalize program : (Program.done result : UseCase Unit) = ended' at phase
  cases phase with
  | waiting =>
      cases request with
      | setName naming => cases program
      | delete => cases program
  | read naming original manifest was found => cases program
  | named naming was =>
      cases program
      exact Or.inl ⟨naming, listed, Or.inl ⟨was, rfl⟩⟩
  | missed naming =>
      cases program
      exact Or.inl ⟨naming, listed, Or.inr rfl⟩
  | deleted =>
      cases program
      exact Or.inr ⟨listed, rfl⟩

/-- The call which a request waits for. -/
theorem Orderly.call_cases (orderly : Orderly ns blobId requests initial system)
    {request : PortCall} {rest : request.Answer → UseCase Unit}
    (found : system.programs[index]? = some (.call request rest)) :
    (∃ naming, requests[index]? = some (.setName naming) ∧
        Program.call request rest = setManifestName ns blobId naming) ∨
      (∃ naming original manifest, requests[index]? = some (.setName naming) ∧
        initial = some original ∧ Version requests system original manifest ∧
        Program.call request rest = VaultMesh.putManifest (manifest.named naming)) ∨
      requests[index]? = some .delete ∧
        Program.call request rest = VaultMesh.deleteManifest ns blobId := by
  rcases orderly.exists_request found with ⟨update, listed⟩
  have phase := orderly.phase index update _ listed found
  generalize program : (Program.call request rest : UseCase Unit) = waiting at phase
  cases phase with
  | waiting =>
      cases update with
      | setName naming => exact Or.inl ⟨naming, listed, rfl⟩
      | delete => exact Or.inr (Or.inr ⟨listed, rfl⟩)
  | read naming original manifest was read =>
      exact Or.inr (Or.inl ⟨naming, original, manifest, listed, was, read, rfl⟩)
  | named naming was => cases program
  | missed naming => cases program
  | deleted => cases program

section Step

variable {request : PortCall} {rest : request.Answer → UseCase Unit}

theorem Sent.afterCall {id : String} (sent : Sent requests system id)
    (found : system.programs[index]? = some (.call request rest)) :
    Sent requests (system.afterCall (world env anchors) index request rest) id := by
  rcases sent with ⟨other, naming, result, listed, sentThere, ended⟩
  exact ⟨other, naming, result, listed, sentThere, ended.afterCall found⟩

theorem Version.afterCall {original manifest : Manifest}
    (version : Version requests system original manifest)
    (found : system.programs[index]? = some (.call request rest)) :
    Version requests (system.afterCall (world env anchors) index request rest) original
      manifest := by
  refine ⟨version.renamed, ?_⟩
  rcases version.objectId with same | ⟨id, isId, sent⟩
  · exact Or.inl same
  · exact Or.inr ⟨id, isId, sent.afterCall found⟩

theorem Phase.mono {version later : Manifest → Manifest → Prop} {update : NameUpdate}
    {program : UseCase Unit} (phase : Phase ns blobId initial version update program)
    (weaken : ∀ original manifest, version original manifest → later original manifest) :
    Phase ns blobId initial later update program := by
  cases phase with
  | waiting => exact .waiting update
  | read naming original manifest was found =>
      exact .read naming original manifest was (weaken _ _ found)
  | named naming was => exact .named naming was
  | missed naming => exact .missed naming
  | deleted => exact .deleted

/-- A step keeps the invariant if its own request and the stored manifest do. -/
theorem Orderly.afterCall (orderly : Orderly ns blobId requests initial system)
    (found : system.programs[index]? = some (.call request rest))
    (phase : ∀ update, requests[index]? = some update → Phase ns blobId initial
      (Version requests (system.afterCall (world env anchors) index request rest)) update
      (rest ((world env anchors).answer system.state request).1))
    (present : ∀ manifest, manifestAt ns blobId
        (system.afterCall (world env anchors) index request rest).state = some manifest →
      (∃ original, initial = some original ∧
        Version requests (system.afterCall (world env anchors) index request rest) original
          manifest) ∧
      ∀ other update result, requests[other]? = some update →
        (system.afterCall (world env anchors) index request rest).Ended other result →
        (∃ naming, update = .setName naming) ∧ result = .ok ())
    (absent : manifestAt ns blobId
        (system.afterCall (world env anchors) index request rest).state = none →
      initial = none ∨ ∃ other result, requests[other]? = some .delete ∧
        (system.afterCall (world env anchors) index request rest).Ended other result) :
    Orderly ns blobId requests initial
      (system.afterCall (world env anchors) index request rest) := by
  refine ⟨?_, ?_, present, absent⟩
  · rw [← orderly.length]
    exact List.length_set
  · intro other update program listed foundAfter
    by_cases same : index = other
    · subst same
      simp only [System.afterCall,
        List.getElem?_set_self (List.getElem?_eq_some_iff.mp found).1] at foundAfter
      rcases Option.some.inj foundAfter with rfl
      exact phase update listed
    · simp only [System.afterCall, List.getElem?_set_ne same] at foundAfter
      exact (orderly.phase other update program listed foundAfter).mono
        fun _ _ version => version.afterCall found

/-- What the first call of a naming leads to. -/
theorem read_answer (env : Environment) (anchors : AnchorModel A) {naming : SetNameRequest}
    (reads : Program.call request rest = setManifestName ns blobId naming) (state : World A) :
    manifestAt ns blobId (state.after anchors request) = manifestAt ns blobId state ∧
      rest (state.reply env anchors request) =
        match manifestAt ns blobId state with
        | some manifest => VaultMesh.putManifest (manifest.named naming)
        | none => .done (.error (.port .notFound)) := by
  cases reads
  refine ⟨rfl, ?_⟩
  simp only [World.reply, manifestAt]
  cases state.store.getManifest ns blobId with
  | none => rfl
  | some manifest => rfl

theorem write_answer (env : Environment) (anchors : AnchorModel A) {manifest : Manifest}
    (writes : Program.call request rest = VaultMesh.putManifest manifest)
    (sameNs : manifest.ns = ns) (sameBlob : manifest.blobId = blobId) (state : World A) :
    manifestAt ns blobId (state.after anchors request) = some manifest ∧
      rest (state.reply env anchors request) = .done (.ok ()) := by
  cases writes
  exact ⟨manifestAt_after_putManifest state sameNs sameBlob, rfl⟩

theorem delete_answer (env : Environment) (anchors : AnchorModel A)
    (deletes : Program.call request rest = VaultMesh.deleteManifest ns blobId) (state : World A) :
    manifestAt ns blobId (state.after anchors request) = none ∧
      rest (state.reply env anchors request) = .done (.ok ()) := by
  cases deletes
  exact ⟨manifestAt_after_deleteManifest state, rfl⟩

/-- A reading step ends a naming which finds nothing, and changes nothing else. -/
theorem Orderly.read (env : Environment) (anchors : AnchorModel A)
    (orderly : Orderly ns blobId requests initial system)
    {naming : SetNameRequest} (listed : requests[index]? = some (.setName naming))
    (found : system.programs[index]? = some (.call request rest))
    (reads : Program.call request rest = setManifestName ns blobId naming) :
    Orderly ns blobId requests initial
      (system.afterCall (world env anchors) index request rest) := by
  rcases read_answer env anchors reads system.state with ⟨kept, next⟩
  refine orderly.afterCall found ?_ ?_ ?_
  · intro update listed'
    rcases Option.some.inj (listed.symm.trans listed') with rfl
    rw [world_answer_fst, next]
    cases view : manifestAt ns blobId system.state with
    | none => exact .missed naming
    | some manifest =>
        rcases (orderly.present manifest view).1 with ⟨original, was, version⟩
        exact .read naming original manifest was (version.afterCall found)
  · intro manifest view
    have view' : manifestAt ns blobId system.state = some manifest := kept.symm.trans view
    rcases orderly.present manifest view' with ⟨⟨original, was, version⟩, all⟩
    refine ⟨⟨original, was, version.afterCall found⟩, ?_⟩
    intro other update result listed' ended
    by_cases same : other = index
    · subst same
      rw [System.ended_afterCall_self found, world_answer_fst, next, view'] at ended
      cases ended
    · rw [System.ended_afterCall_of_ne same] at ended
      exact all other update result listed' ended
  · intro view
    rcases orderly.absent (kept.symm.trans view) with was | ⟨other, result, deletes, ended⟩
    · exact Or.inl was
    · exact Or.inr ⟨other, result, deletes, ended.afterCall found⟩

/-- A fresh writing step makes a new version. -/
theorem Orderly.write (orderly : Orderly ns blobId requests initial system)
    {naming : SetNameRequest} {original manifest : Manifest}
    (listed : requests[index]? = some (.setName naming))
    (found : system.programs[index]? = some (.call request rest)) (was : initial = some original)
    (version : Version requests system original manifest)
    (writes : Program.call request rest = VaultMesh.putManifest (manifest.named naming))
    (sameNs : manifest.ns = ns) (sameBlob : manifest.blobId = blobId)
    (there : (manifestAt ns blobId system.state).isSome) :
    Orderly ns blobId requests initial
      (system.afterCall (world env anchors) index request rest) := by
  rcases write_answer env anchors writes sameNs sameBlob system.state with
    ⟨written, next⟩
  have ended : (system.afterCall (world env anchors) index request rest).Ended index (.ok ()) := by
    rw [System.ended_afterCall_self found]
    exact next
  refine orderly.afterCall found ?_ ?_ ?_
  · intro update listed'
    rcases Option.some.inj (listed.symm.trans listed') with rfl
    rw [world_answer_fst, next]
    exact .named naming (by rw [was]; rfl)
  · intro last view
    rcases Option.some.inj (written.symm.trans view) with rfl
    refine ⟨⟨original, was, version.renamed.named naming, ?_⟩, ?_⟩
    · cases sent : naming.objectId with
      | some id =>
          right
          exact ⟨id, by simp [Manifest.named, sent], index, naming, _, listed, sent, ended⟩
      | none =>
          have same : (manifest.named naming).objectId = manifest.objectId := by
            simp [Manifest.named, sent]
          rw [same]
          exact (version.afterCall found).objectId
    · intro other update result listed' endedThere
      by_cases same : other = index
      · subst same
        rcases Option.some.inj (listed.symm.trans listed') with rfl
        exact ⟨⟨naming, rfl⟩, endedThere.unique ended⟩
      · rw [System.ended_afterCall_of_ne same] at endedThere
        rcases Option.isSome_iff_exists.mp there with ⟨current, view⟩
        exact (orderly.present current view).2 other update result listed' endedThere
  · intro view
    cases written.symm.trans view

theorem Orderly.delete (env : Environment) (anchors : AnchorModel A)
    (orderly : Orderly ns blobId requests initial system)
    (listed : requests[index]? = some .delete)
    (found : system.programs[index]? = some (.call request rest))
    (deletes : Program.call request rest = VaultMesh.deleteManifest ns blobId) :
    Orderly ns blobId requests initial
      (system.afterCall (world env anchors) index request rest) := by
  rcases delete_answer env anchors deletes system.state with ⟨gone, next⟩
  refine orderly.afterCall found ?_ ?_ ?_
  · intro update listed'
    rcases Option.some.inj (listed.symm.trans listed') with rfl
    rw [world_answer_fst, next]
    exact .deleted
  · intro manifest view
    cases gone.symm.trans view
  · intro _
    right
    refine ⟨index, .ok (), listed, ?_⟩
    rw [System.ended_afterCall_self found]
    exact next

end Step

end Invariant

/-! ## Serializability -/

/-- The requests which have ended could have been served one after the other. -/
def SerializableUpdates (env : Environment) (anchors : AnchorModel A) (ns : NamespaceId)
    (blobId : BlobId) (requests : List NameUpdate) (first : World A) (system : Updates A) : Prop :=
  system.Serializable (world env anchors) (manifestAt ns blobId)
    (requests.map (NameUpdate.program ns blobId)) first

section Serializability

variable {first : World A} {system : Updates A}

theorem serializableUpdates_iff (keyed : Keyed ns blobId first) :
    SerializableUpdates env anchors ns blobId requests first system ↔
      ∃ order : List ℕ, order.Nodup ∧
        (∀ index result,
          (index, result) ∈ (play (nameActions requests) order (manifestAt ns blobId first)).1 ↔
            system.Ended index result) ∧
        (play (nameActions requests) order (manifestAt ns blobId first)).2 =
          manifestAt ns blobId system.state := by
  apply System.serializable_iff_play _ keyed
  rw [nameActions, List.forall₂_map_left_iff, List.forall₂_map_right_iff, List.forall₂_same]
  intro request _
  exact request.implements

/-- To serialize, it is enough to play the right results, leaving nobody out. -/
theorem serializableUpdates_of_order (keyed : Keyed ns blobId first)
    (orderly : Orderly ns blobId requests (manifestAt ns blobId first) system) (order : List ℕ)
    (nodup : order.Nodup)
    (right : ∀ index result,
      (index, result) ∈ (play (nameActions requests) order (manifestAt ns blobId first)).1 →
        system.Ended index result)
    (all : ∀ index result, system.Ended index result → index ∈ order)
    (view : (play (nameActions requests) order (manifestAt ns blobId first)).2 =
      manifestAt ns blobId system.state) :
    SerializableUpdates env anchors ns blobId requests first system := by
  rw [serializableUpdates_iff keyed]
  refine ⟨order, nodup, ?_, view⟩
  apply System.results_iff _ right all
  rw [orderly.length, nameActions, List.length_map]

/-- If the manifest was never there, the order does not matter. -/
theorem serializable_of_nothing (keyed : Keyed ns blobId first)
    (orderly : Orderly ns blobId requests (manifestAt ns blobId first) system)
    (nothing : manifestAt ns blobId first = none)
    (gone : manifestAt ns blobId system.state = none) :
    SerializableUpdates env anchors ns blobId requests first system := by
  rcases play_none requests system.endedIndices with ⟨noView, results⟩
  rw [← nothing] at noView results
  apply serializableUpdates_of_order keyed orderly _ system.nodup_endedIndices _ _
    (by rw [noView, nothing, gone])
  · intro index result played
    rcases results index result played with ⟨request, listed, rfl⟩
    rcases System.mem_endedIndices.mp (mem_of_mem_play played) with ⟨other, ended⟩
    rw [nothing]
    rcases orderly.ended_cases ended with ⟨naming, isName, outcome⟩ | ⟨isDelete, rfl⟩
    · rcases Option.some.inj (isName.symm.trans listed) with rfl
      rcases outcome with ⟨was, -⟩ | rfl
      · simp [nothing] at was
      · exact ended
    · rcases Option.some.inj (isDelete.symm.trans listed) with rfl
      exact ended
  · intro index result ended
    exact System.mem_endedIndices.mpr ⟨result, ended⟩

/-! ### The order after a deletion -/

section Deleted

variable (requests : List NameUpdate) (system : Updates A)

open Classical in
/-- The namings which succeeded. -/
noncomputable def succeededNamings : List ℕ :=
  system.endedIndices.filter fun index =>
    decide (requests[index]? ≠ some .delete ∧ system.Ended index (.ok ()))

/-- The deletions which ended. -/
def endedDeletions : List ℕ :=
  system.endedIndices.filter fun index => decide (requests[index]? = some .delete)

open Classical in
/-- The namings which came too late. -/
noncomputable def missedNamings : List ℕ :=
  system.endedIndices.filter fun index =>
    decide (requests[index]? ≠ some .delete ∧ ¬system.Ended index (.ok ()))

/-- First the namings which succeeded, then the deletions, then the rest. -/
noncomputable def deletionOrder : List ℕ :=
  succeededNamings requests system ++ endedDeletions requests system ++
    missedNamings requests system

variable {requests system} {index : ℕ}

theorem mem_succeededNamings (listed : index ∈ succeededNamings requests system) :
    requests[index]? ≠ some .delete ∧ system.Ended index (.ok ()) := by
  simp only [succeededNamings, List.mem_filter, decide_eq_true_eq] at listed
  exact listed.2

theorem mem_endedDeletions : index ∈ endedDeletions requests system ↔
    (∃ result, system.Ended index result) ∧ requests[index]? = some .delete := by
  rw [endedDeletions, List.mem_filter, System.mem_endedIndices, decide_eq_true_iff]

theorem mem_missedNamings (listed : index ∈ missedNamings requests system) :
    (∃ result, system.Ended index result) ∧ requests[index]? ≠ some .delete ∧
      ¬system.Ended index (.ok ()) := by
  simp only [missedNamings, List.mem_filter, decide_eq_true_eq] at listed
  exact ⟨System.mem_endedIndices.mp listed.1, listed.2⟩

theorem nodup_deletionOrder : (deletionOrder requests system).Nodup := by
  have nodup := system.nodup_endedIndices
  rw [deletionOrder, List.nodup_append, List.nodup_append]
  refine ⟨⟨nodup.filter _, nodup.filter _, ?_⟩, nodup.filter _, ?_⟩
  · rintro index inSucceeded other inDeletions rfl
    exact (mem_succeededNamings inSucceeded).1 (mem_endedDeletions.mp inDeletions).2
  · rintro index inFirst other inMissed rfl
    rcases mem_missedNamings inMissed with ⟨-, noDelete, noSuccess⟩
    rcases List.mem_append.mp inFirst with inSucceeded | inDeletions
    · exact noSuccess (mem_succeededNamings inSucceeded).2
    · exact noDelete (mem_endedDeletions.mp inDeletions).2

/-- Nobody who ended is left out. -/
theorem mem_deletionOrder {result : Except Failure Unit} (ended : system.Ended index result) :
    index ∈ deletionOrder requests system := by
  have listed := System.mem_endedIndices.mpr ⟨result, ended⟩
  simp only [deletionOrder, List.mem_append, succeededNamings, endedDeletions, missedNamings,
    List.mem_filter, decide_eq_true_eq]
  tauto

end Deleted

/-- After a deletion the requests which ended can be served in that order. -/
theorem serializable_of_deleted (keyed : Keyed ns blobId first)
    (orderly : Orderly ns blobId requests (manifestAt ns blobId first) system)
    {original : Manifest} (was : manifestAt ns blobId first = some original)
    (gone : manifestAt ns blobId system.state = none) :
    SerializableUpdates env anchors ns blobId requests first system := by
  have deletion : ∃ index result, requests[index]? = some .delete ∧ system.Ended index result := by
    rcases orderly.absent gone with nothing | deletion
    · cases was.symm.trans nothing
    · exact deletion
  rcases play_names (fun index listed => (mem_succeededNamings listed).1) original with
    ⟨last, succeededView, -, -, succeededResults⟩
  have deletionsView :
      (play (nameActions requests) (endedDeletions requests system) (some last)).2 = none := by
    rcases deletion with ⟨index, result, isDelete, ended⟩
    exact play_delete (mem_endedDeletions.mpr ⟨⟨result, ended⟩, isDelete⟩) isDelete _
  rcases play_none requests (missedNamings requests system) with ⟨missedView, missedResults⟩
  have played : play (nameActions requests) (deletionOrder requests system)
      (manifestAt ns blobId first) =
      ((play (nameActions requests) (succeededNamings requests system) (some original)).1 ++
        (play (nameActions requests) (endedDeletions requests system) (some last)).1 ++
        (play (nameActions requests) (missedNamings requests system) none).1, none) := by
    rw [was, deletionOrder, play_append, play_append, succeededView, deletionsView, missedView]
  apply serializableUpdates_of_order keyed orderly _ nodup_deletionOrder
  · intro index result mem
    rw [played] at mem
    rcases List.mem_append.mp mem with earlier | inMissed
    · rcases List.mem_append.mp earlier with inSucceeded | inDeletions
      · rw [succeededResults index result inSucceeded]
        exact (mem_succeededNamings (mem_of_mem_play inSucceeded)).2
      · rw [play_deletes (fun index listed => (mem_endedDeletions.mp listed).2) _ inDeletions]
        rcases mem_endedDeletions.mp (mem_of_mem_play inDeletions) with ⟨⟨other, ended⟩, isDelete⟩
        rcases orderly.ended_cases ended with ⟨naming, isName, -⟩ | ⟨-, rfl⟩
        · cases isDelete.symm.trans isName
        · exact ended
    · rcases mem_missedNamings (mem_of_mem_play inMissed) with
        ⟨⟨other, ended⟩, noDelete, noSuccess⟩
      rcases missedResults index result inMissed with ⟨request, isRequest, rfl⟩
      rcases orderly.ended_cases ended with ⟨naming, isName, outcome⟩ | ⟨isDelete, -⟩
      · rcases Option.some.inj (isName.symm.trans isRequest) with rfl
        rcases outcome with ⟨-, rfl⟩ | rfl
        · exact absurd ended noSuccess
        · exact ended
      · exact absurd isDelete noDelete
  · intro index result ended
    exact mem_deletionOrder ended
  · rw [played, gone]

theorem sentIn_endedIndices {id : String} :
    SentIn requests system.endedIndices id ↔ Sent requests system id := by
  constructor
  · rintro ⟨index, listed, naming, isName, sent⟩
    rcases System.mem_endedIndices.mp listed with ⟨result, ended⟩
    exact ⟨index, naming, result, isName, sent, ended⟩
  · rintro ⟨index, naming, result, isName, sent, ended⟩
    exact ⟨index, System.mem_endedIndices.mpr ⟨result, ended⟩, naming, isName, sent⟩

section Write

variable {index : ℕ} {request : PortCall} {rest : request.Answer → UseCase Unit}
  {naming : SetNameRequest} {original manifest : Manifest}

/-- An order of the earlier namings after which the object id is the one read. -/
theorem exists_order_before_write
    (namings : ∀ other ∈ system.endedIndices, requests[other]? ≠ some .delete)
    (version : Version requests system original manifest)
    (current : naming.objectId.isSome ∨ (∀ id, ¬Sent requests system id) ∨
      ∃ id, manifest.objectId = some id ∧ Sent requests system id) :
    ∃ order : List ℕ, order.Perm system.endedIndices ∧ ∃ last,
      (play (nameActions requests) order (some original)).2 = some last ∧
        Renamed original last ∧
        (naming.objectId.isSome ∨ last.objectId = manifest.objectId) := by
  rcases current with sent | nobody | ⟨id, isId, other, sender, result, isName, sent, ended⟩
  · rcases play_names namings original with ⟨last, view, renamed, -, -⟩
    exact ⟨_, List.Perm.refl _, last, view, renamed, Or.inl sent⟩
  · rcases play_names namings original with ⟨last, view, renamed, objectId, -⟩
    refine ⟨_, List.Perm.refl _, last, view, renamed, Or.inr ?_⟩
    rcases objectId with ⟨-, same⟩ | ⟨id, sent, -⟩
    · rcases version.objectId with asBefore | ⟨id, -, sent⟩
      · rw [same, asBefore]
      · exact absurd sent (nobody id)
    · exact absurd (sentIn_endedIndices.mp sent) (nobody id)
  · -- The sender of the object id which was read goes last.
    have listed := System.mem_endedIndices.mpr ⟨result, ended⟩
    have perm : (system.endedIndices.erase other ++ [other]).Perm system.endedIndices :=
      (List.perm_append_singleton _ _).trans (List.perm_cons_erase listed).symm
    have others : ∀ one ∈ system.endedIndices.erase other, requests[one]? ≠ some .delete :=
      fun one mem => namings one (List.mem_of_mem_erase mem)
    rcases play_names others original with ⟨last, view, renamed, -, -⟩
    refine ⟨_, perm, last.named sender, ?_, renamed.named sender, Or.inr ?_⟩
    · rw [play_append, view, play_cons (getElem?_nameActions isName)]
      rfl
    · rw [isId]
      simp [Manifest.named, sent]

/-- A fresh writing step can be the last one of a serial order. -/
theorem serializable_of_write (keyed : Keyed ns blobId first)
    (orderly : Orderly ns blobId requests (manifestAt ns blobId first) system)
    (listed : requests[index]? = some (.setName naming))
    (found : system.programs[index]? = some (.call request rest))
    (was : manifestAt ns blobId first = some original)
    (version : Version requests system original manifest)
    (writes : Program.call request rest = VaultMesh.putManifest (manifest.named naming))
    (sameNs : manifest.ns = ns) (sameBlob : manifest.blobId = blobId)
    (there : (manifestAt ns blobId system.state).isSome)
    (current : naming.objectId.isSome ∨ (∀ id, ¬Sent requests system id) ∨
      ∃ id, manifest.objectId = some id ∧ Sent requests system id) :
    SerializableUpdates env anchors ns blobId requests first
      (system.afterCall (world env anchors) index request rest) := by
  rcases write_answer env anchors writes sameNs sameBlob system.state with
    ⟨written, next⟩
  rcases Option.isSome_iff_exists.mp there with ⟨present, view⟩
  have allNamed := (orderly.present present view).2
  have namings : ∀ other ∈ system.endedIndices, requests[other]? ≠ some .delete := by
    intro other mem isDelete
    rcases System.mem_endedIndices.mp mem with ⟨result, ended⟩
    rcases (allNamed other _ result isDelete ended).1 with ⟨_, ⟨⟩⟩
  rcases exists_order_before_write namings version current with
    ⟨order, perm, last, lastView, renamed, sameId⟩
  have notEnded : index ∉ order := by
    intro mem
    rcases System.mem_endedIndices.mp (perm.mem_iff.mp mem) with ⟨result, ended⟩
    cases ended.symm.trans found
  have played : (play (nameActions requests) (order ++ [index]) (some original)).2 =
      some (manifest.named naming) := by
    rw [play_append, lastView, play_cons (getElem?_nameActions listed)]
    exact congrArg some (renamed.named_eq version.renamed sameId)
  have allNames : ∀ other ∈ order ++ [index], requests[other]? ≠ some .delete := by
    intro other mem
    rcases List.mem_append.mp mem with earlier | here
    · exact namings other (perm.mem_iff.mp earlier)
    · rw [List.mem_singleton.mp here, listed]
      rintro ⟨⟩
  rcases play_names allNames original with ⟨-, -, -, -, succeeded⟩
  apply serializableUpdates_of_order keyed
    (orderly.write listed found was version writes sameNs sameBlob there) (order ++ [index])
  · rw [List.nodup_append]
    refine ⟨perm.nodup_iff.mpr system.nodup_endedIndices, List.nodup_singleton _, ?_⟩
    rintro other inOrder _ here rfl
    rw [List.mem_singleton.mp here] at inOrder
    exact notEnded inOrder
  · intro other result mem
    rw [was] at mem
    rw [succeeded other result mem]
    rcases List.mem_append.mp (mem_of_mem_play mem) with earlier | here
    · rcases System.mem_endedIndices.mp (perm.mem_iff.mp earlier) with ⟨outcome, ended⟩
      rcases orderly.exists_request ended with ⟨update, isUpdate⟩
      rcases (allNamed other update outcome isUpdate ended).2 with rfl
      exact ended.afterCall found
    · rw [List.mem_singleton.mp here, System.ended_afterCall_self found]
      exact next
  · intro other result ended
    by_cases same : other = index
    · simp [same]
    · rw [System.ended_afterCall_of_ne same] at ended
      exact List.mem_append_left _ (perm.mem_iff.mpr (System.mem_endedIndices.mpr ⟨result, ended⟩))
  · rw [was, played]
    exact written.symm

/-- A writing step after which the requests can be serialized was fresh. -/
theorem current_of_serializable (keyed : Keyed ns blobId first)
    (orderly : Orderly ns blobId requests (manifestAt ns blobId first) system)
    (listed : requests[index]? = some (.setName naming))
    (found : system.programs[index]? = some (.call request rest))
    (was : manifestAt ns blobId first = some original)
    (writes : Program.call request rest = VaultMesh.putManifest (manifest.named naming))
    (sameNs : manifest.ns = ns) (sameBlob : manifest.blobId = blobId)
    (serial : SerializableUpdates env anchors ns blobId requests first
      (system.afterCall (world env anchors) index request rest)) :
    (manifestAt ns blobId system.state).isSome ∧
      (naming.objectId.isSome ∨ (∀ id, ¬Sent requests system id) ∨
        ∃ id, manifest.objectId = some id ∧ Sent requests system id) := by
  rcases write_answer env anchors writes sameNs sameBlob system.state with
    ⟨written, next⟩
  rcases (serializableUpdates_iff keyed).mp serial with ⟨order, -, results, view⟩
  have written' : manifestAt ns blobId (system.afterCall (world env anchors) index request
      rest).state = some (manifest.named naming) := written
  rw [written'] at view
  have inOrder : ∀ other result, (system.afterCall (world env anchors) index request rest).Ended
      other result → other ∈ order :=
    fun other result ended => mem_of_mem_play ((results other result).mpr ended)
  have there : (manifestAt ns blobId system.state).isSome := by
    by_contra gone
    rcases orderly.absent (by simpa using gone) with nothing | ⟨other, result, isDelete, ended⟩
    · cases was.symm.trans nothing
    · have erased := play_delete (inOrder other result (ended.afterCall found)) isDelete
        (manifestAt ns blobId first)
      cases erased.symm.trans view
  refine ⟨there, ?_⟩
  by_cases sends : naming.objectId.isSome
  · exact Or.inl sends
  right
  by_cases nobody : ∀ id, ¬Sent requests system id
  · exact Or.inl nobody
  right
  push Not at nobody
  rcases nobody with ⟨id, sender, earlier, result, isName, sent, ended⟩
  rcases Option.isSome_iff_exists.mp there with ⟨present, thereNow⟩
  have endedNow : ∀ other ∈ order, other < requests.length → other ≠ index →
      ∃ result, system.Ended other result := by
    intro other mem inside different
    have listedThere : other < (nameActions requests).length := by
      simpa using inside
    rcases exists_mem_play (manifestAt ns blobId first) mem listedThere with ⟨outcome, played⟩
    have endedThere := (results other outcome).mp played
    rw [System.ended_afterCall_of_ne different] at endedThere
    exact ⟨outcome, endedThere⟩
  have allNames : ∀ other ∈ order, requests[other]? ≠ some .delete := by
    intro other mem isDelete
    have different : other ≠ index := by
      rintro rfl
      cases listed.symm.trans isDelete
    rcases endedNow other mem (List.getElem?_eq_some_iff.mp isDelete).1 different with
      ⟨outcome, endedThere⟩
    rcases ((orderly.present present thereNow).2 other _ outcome isDelete endedThere).1 with ⟨_, ⟨⟩⟩
  rw [was] at view
  rcases play_names allNames original with ⟨last, lastView, -, lastSent, -⟩
  rcases Option.some.inj (lastView.symm.trans view) with rfl
  have kept : (manifest.named naming).objectId = manifest.objectId := by
    simp [Manifest.named, sends]
  rw [LastSent, kept] at lastSent
  rcases lastSent with ⟨unsent, -⟩ | ⟨other, ⟨one, mem, naming', isName', sent'⟩, same⟩
  · exact absurd ⟨sender, inOrder sender result (ended.afterCall found), earlier, isName, sent⟩
      (unsent id)
  · have different : one ≠ index := by
      rintro rfl
      cases listed.symm.trans isName'
      simp [sent'] at sends
    rcases endedNow one mem (List.getElem?_eq_some_iff.mp isName').1 different with
      ⟨outcome, endedThere⟩
    exact ⟨other, same, one, naming', outcome, isName', sent', endedThere⟩

end Write

theorem serializable_of_absent (keyed : Keyed ns blobId first)
    (orderly : Orderly ns blobId requests (manifestAt ns blobId first) system)
    (gone : manifestAt ns blobId system.state = none) :
    SerializableUpdates env anchors ns blobId requests first system := by
  cases was : manifestAt ns blobId first with
  | none => exact serializable_of_nothing keyed orderly was gone
  | some original => exact serializable_of_deleted keyed orderly was gone

/-- A step which reads a manifest ends nothing. -/
theorem serializable_of_read {index : ℕ} {request : PortCall}
    {rest : request.Answer → UseCase Unit} {naming : SetNameRequest} {manifest : Manifest}
    (serial : SerializableUpdates env anchors ns blobId requests first system)
    (found : system.programs[index]? = some (.call request rest))
    (reads : Program.call request rest = setManifestName ns blobId naming)
    (there : manifestAt ns blobId system.state = some manifest) :
    SerializableUpdates env anchors ns blobId requests first
      (system.afterCall (world env anchors) index request rest) := by
  rcases read_answer env anchors reads system.state with ⟨kept, next⟩
  rcases serial with ⟨order, nodup, results, view⟩
  refine ⟨order, nodup, ?_, view.trans kept.symm⟩
  intro other result
  rw [results other result]
  by_cases same : other = index
  · subst same
    rw [System.ended_afterCall_self found, world_answer_fst, next, there]
    constructor
    · intro ended
      cases ended.symm.trans found
    · rintro ⟨⟩
  · rw [System.ended_afterCall_of_ne same]

/-- What it means for a writing step to be fresh. -/
theorem fresh_write_iff {index : ℕ} {request : PortCall} {rest : request.Answer → UseCase Unit}
    {naming : SetNameRequest} {manifest : Manifest}
    (listed : requests[index]? = some (.setName naming))
    (called : system.programs[index]? = some (.call request rest))
    (writes : Program.call request rest = VaultMesh.putManifest (manifest.named naming)) :
    Fresh ns blobId requests system index ↔
      (manifestAt ns blobId system.state).isSome ∧
        (naming.objectId.isSome ∨ (∀ id, ¬Sent requests system id) ∨
          ∃ id, manifest.objectId = some id ∧ Sent requests system id) := by
  have kept : ¬naming.objectId.isSome → (manifest.named naming).objectId = manifest.objectId := by
    intro unsent
    simp [Manifest.named, unsent]
  rw [writes] at called
  constructor
  · intro fresh
    rcases fresh _ _ called with ⟨there, ⟨naming', listed', sent⟩ | current⟩
    · cases listed.symm.trans listed'
      exact ⟨there, Or.inl sent⟩
    · by_cases sent : naming.objectId.isSome
      · exact ⟨there, Or.inl sent⟩
      · rw [kept sent] at current
        exact ⟨there, Or.inr current⟩
  · rintro ⟨there, current⟩ _ _ found
    cases called.symm.trans found
    by_cases sent : naming.objectId.isSome
    · exact ⟨there, Or.inl ⟨naming, listed, sent⟩⟩
    · rw [kept sent]
      exact ⟨there, Or.inr (current.resolve_left sent)⟩

/-- From an orderly system, a step is fresh exactly if the requests can still be serialized. -/
theorem fresh_iff_serializable (keyed : Keyed ns blobId first)
    (orderly : Orderly ns blobId requests (manifestAt ns blobId first) system)
    (serial : SerializableUpdates env anchors ns blobId requests first system) (index : ℕ) :
    (Fresh ns blobId requests system index ↔
      SerializableUpdates env anchors ns blobId requests first
        (System.step (world env anchors) system index)) ∧
    (Fresh ns blobId requests system index →
      Orderly ns blobId requests (manifestAt ns blobId first)
        (System.step (world env anchors) system index)) := by
  by_cases calls : ∃ request rest, system.programs[index]? = some (.call request rest)
  swap
  · have fresh : Fresh ns blobId requests system index := by
      intro manifest rest found
      exact absurd ⟨_, rest, found⟩ calls
    rcases System.step_cases (world env anchors) system index with idle | ⟨request, rest, called, -⟩
    · rw [idle]
      exact ⟨iff_of_true fresh serial, fun _ => orderly⟩
    · exact absurd ⟨request, rest, called⟩ calls
  rcases calls with ⟨request, rest, called⟩
  rw [System.step_of_call called]
  rcases orderly.call_cases called with ⟨naming, listed, reads⟩ |
    ⟨naming, original, manifest, listed, was, version, writes⟩ | ⟨listed, deletes⟩
  · have fresh : Fresh ns blobId requests system index := by
      intro manifest rest found
      rw [called, reads] at found
      cases found
    have next := orderly.read env anchors listed called reads
    refine ⟨iff_of_true fresh ?_, fun _ => next⟩
    cases there : manifestAt ns blobId system.state with
    | some manifest => exact serializable_of_read serial called reads there
    | none =>
        apply serializable_of_absent keyed next
        exact (read_answer env anchors reads system.state).1.trans there
  · have key : manifest.ns = ns ∧ manifest.blobId = blobId := by
      have renamed := version.renamed
      unfold Renamed at renamed
      rcases keyed original was with ⟨sameNs, sameBlob⟩
      rw [← renamed] at sameNs sameBlob
      exact ⟨sameNs, sameBlob⟩
    rw [fresh_write_iff listed called writes]
    refine ⟨⟨?_, ?_⟩, ?_⟩
    · rintro ⟨there, current⟩
      exact serializable_of_write keyed orderly listed called was version writes key.1 key.2 there
        current
    · exact current_of_serializable keyed orderly listed called was writes key.1 key.2
    · rintro ⟨there, -⟩
      exact orderly.write listed called was version writes key.1 key.2 there
  · have fresh : Fresh ns blobId requests system index := by
      intro manifest rest found
      rw [called, deletes] at found
      cases found
    have next := orderly.delete env anchors listed called deletes
    refine ⟨iff_of_true fresh ?_, fun _ => next⟩
    apply serializable_of_absent keyed next
    exact (delete_answer env anchors deletes system.state).1

theorem not_ended_start (first : World A) (index : ℕ) (result : Except Failure Unit) :
    ¬(System.start first (requests.map (NameUpdate.program ns blobId)) : Updates A).Ended index
      result := by
  intro ended
  simp only [System.Ended, System.start, List.getElem?_map, Option.map_eq_some_iff] at ended
  rcases ended with ⟨request, -, isDone⟩
  cases request <;> cases isDone

theorem orderly_start (ns : NamespaceId) (blobId : BlobId) (requests : List NameUpdate)
    (first : World A) :
    Orderly ns blobId requests (manifestAt ns blobId first)
      (System.start first (requests.map (NameUpdate.program ns blobId))) := by
  refine ⟨List.length_map _, ?_, ?_, ?_⟩
  · intro index request program listed found
    simp only [System.start, List.getElem?_map, listed, Option.map_some,
      Option.some.injEq] at found
    rw [← found]
    exact .waiting request
  · intro manifest view
    refine ⟨⟨manifest, view, rfl, Or.inl rfl⟩, ?_⟩
    intro index request result _ ended
    exact absurd ended (not_ended_start first index result)
  · exact Or.inl

/--
However requests to name and to delete one manifest interleave, at every moment those which
have ended could have been served one after the other, exactly if every writing step finds
the manifest still stored and does not put back an object id older than one sent.
-/
theorem name_updates_serializable_iff (env : Environment) (anchors : AnchorModel A)
    (requests : List NameUpdate) (keyed : Keyed ns blobId first) (schedule : List ℕ) :
    (∀ steps, SerializableUpdates env anchors ns blobId requests first
      (System.exec (world env anchors)
        (System.start first (requests.map (NameUpdate.program ns blobId)))
        (schedule.take steps))) ↔
      System.Along (world env anchors) (Fresh ns blobId requests)
        (System.start first (requests.map (NameUpdate.program ns blobId))) schedule := by
  have start := orderly_start ns blobId requests first
  have begins : SerializableUpdates env anchors ns blobId requests first
      (System.start first (requests.map (NameUpdate.program ns blobId))) := by
    apply serializableUpdates_of_order keyed start [] List.nodup_nil
    · intro index result played
      cases played
    · intro index result ended
      exact absurd ended (not_ended_start first index result)
    · rfl
  symm
  apply System.along_iff_forall_prefix _ _ schedule start begins
  · intro system index orderly serial
    exact (fresh_iff_serializable keyed orderly serial index).1
  · intro system index orderly serial
    exact (fresh_iff_serializable keyed orderly serial index).2

end Serializability

end Updates

/-- The store holds one manifest, without a name. -/
def nameless : World Unit where
  store := (sampleStore ⟨10, 10⟩ ⟨1, 0⟩).putManifest
    (Manifest.new ⟨"blob-5"⟩ ⟨"ns-1"⟩ ⟨1, 2⟩ [] 1 ⟨1000⟩)
  anchor := ()
  signed := []
  tick := 0

theorem keyed_nameless : Keyed ⟨"ns-1"⟩ ⟨"blob-5"⟩ nameless := by
  intro manifest found
  rcases Option.some.inj found with rfl
  exact ⟨rfl, rfl⟩

def updateRun (requests : List NameUpdate) (schedule : List ℕ) : Updates Unit :=
  System.exec (world sampleEnvironment noAnchor)
    (System.start nameless (requests.map (NameUpdate.program ⟨"ns-1"⟩ ⟨"blob-5"⟩))) schedule

/-- In turn, a naming and a deletion are serialized, and the manifest is gone. -/
theorem name_updates_serializable_iff_inTurn :
    SerializableUpdates sampleEnvironment noAnchor ⟨"ns-1"⟩ ⟨"blob-5"⟩
        [.setName ⟨"name", none⟩, .delete] nameless
        (updateRun [.setName ⟨"name", none⟩, .delete] [0, 0, 1]) ∧
      manifestAt ⟨"ns-1"⟩ ⟨"blob-5"⟩
        (updateRun [.setName ⟨"name", none⟩, .delete] [0, 0, 1]).state = none := by
  refine ⟨?_, rfl⟩
  refine (name_updates_serializable_iff sampleEnvironment noAnchor
    [.setName ⟨"name", none⟩, .delete] keyed_nameless [0, 0, 1]).mpr ⟨?_, ?_, ?_, trivial⟩ 3
  · rintro manifest rest ⟨⟩
  · intro manifest rest _
    refine ⟨rfl, Or.inr (Or.inl ?_)⟩
    rintro id ⟨index, naming, result, listed, sent, -⟩
    rcases index with _ | _ | index
    · cases listed
      cases sent
    · cases listed
    · cases listed
  · rintro manifest rest ⟨⟩

/-- A naming reads the manifest, a deletion succeeds, and the naming writes it back. -/
def reappearingRun : Updates Unit :=
  updateRun [.setName ⟨"name", none⟩, .delete] [0, 1, 0]

/-- Of two namings which read the same, the one without an object id writes last. -/
def droppingRun : Updates Unit :=
  updateRun [.setName ⟨"one", none⟩, .setName ⟨"other", some "id"⟩] [0, 1, 1, 0]

/-- A manifest whose deletion succeeded reappears, and an object id which was set is dropped. -/
theorem deleted_manifest_reappears :
    (reappearingRun.Ended 0 (.ok ()) ∧ reappearingRun.Ended 1 (.ok ()) ∧
      (manifestAt ⟨"ns-1"⟩ ⟨"blob-5"⟩ reappearingRun.state).isSome ∧
      ¬SerializableUpdates sampleEnvironment noAnchor ⟨"ns-1"⟩ ⟨"blob-5"⟩
        [.setName ⟨"name", none⟩, .delete] nameless reappearingRun) ∧
    droppingRun.Ended 0 (.ok ()) ∧ droppingRun.Ended 1 (.ok ()) ∧
      (manifestAt ⟨"ns-1"⟩ ⟨"blob-5"⟩ droppingRun.state).bind Manifest.objectId = none ∧
      ¬SerializableUpdates sampleEnvironment noAnchor ⟨"ns-1"⟩ ⟨"blob-5"⟩
        [.setName ⟨"one", none⟩, .setName ⟨"other", some "id"⟩] nameless droppingRun := by
  refine ⟨⟨rfl, rfl, rfl, ?_⟩, rfl, rfl, rfl, ?_⟩
  · rw [serializableUpdates_iff keyed_nameless]
    rintro ⟨order, -, results, view⟩
    have deleted := mem_of_mem_play ((results 1 (.ok ())).mpr rfl)
    cases (play_delete deleted rfl _).symm.trans view
  · rw [serializableUpdates_iff keyed_nameless]
    rintro ⟨order, -, results, view⟩
    have named := mem_of_mem_play ((results 1 (.ok ())).mpr rfl)
    have noDelete : ∀ index ∈ order,
        [NameUpdate.setName ⟨"one", none⟩, .setName ⟨"other", some "id"⟩][index]? ≠
          some .delete := by
      intro index _ isDelete
      simpa using List.mem_of_getElem? isDelete
    rcases play_names noDelete (Manifest.new ⟨"blob-5"⟩ ⟨"ns-1"⟩ ⟨1, 2⟩ [] 1 ⟨1000⟩) with
      ⟨last, played, -, lastSent, -⟩
    rcases Option.some.inj (played.symm.trans view) with rfl
    rcases lastSent with ⟨nobody, -⟩ | ⟨id, -, same⟩
    · exact nobody "id" ⟨1, named, _, rfl, rfl⟩
    · cases same

end VaultMesh
