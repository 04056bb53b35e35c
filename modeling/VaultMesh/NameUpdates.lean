import VaultMesh.Interaction.Serial
import VaultMesh.World

/-!
# Concurrent updates of one manifest

The coordinator's `set_manifest_name` reads a manifest and writes it back in a
second call, and `delete_manifest` may come in between, as may another
`set_manifest_name`. Both requests alone are simple actions on the stored
manifest (`NameUpdate.action`), so it is decidable which outcomes serial orders
have: after a deletion the manifest is gone for good, and otherwise its object
id is the last one sent.
-/

namespace VaultMesh

open Interaction

/-- The requests to the coordinator which change one stored manifest. -/
inductive NameUpdate where
  | setName (naming : SetNameRequest)
  | delete
  deriving DecidableEq, Repr

namespace NameUpdate

def program (ns : NamespaceId) (blobId : BlobId) : NameUpdate → UseCase Unit
  | .setName naming => setManifestName ns blobId naming
  | .delete => VaultMesh.deleteManifest ns blobId

/-- What a request does to the stored manifest when it is served alone. -/
def action : NameUpdate → Option Manifest → Except Failure Unit × Option Manifest
  | .setName naming, some manifest => (.ok (), some (manifest.named naming))
  | .setName _, none => (.error (.port .notFound), none)
  | .delete, _ => (.ok (), none)

end NameUpdate

section Updates

variable {A : Type} {env : Environment} {anchors : AnchorModel A} {ns : NamespaceId}
  {blobId : BlobId} {requests : List NameUpdate}

/-- The manifest under a key carries this key, as `put_manifest` stores it. -/
def Keyed (ns : NamespaceId) (blobId : BlobId) (state : World A) : Prop :=
  ∀ manifest, state.store.getManifest ns blobId = some manifest →
    manifest.ns = ns ∧ manifest.blobId = blobId

def manifestAt (ns : NamespaceId) (blobId : BlobId) (state : World A) : Option Manifest :=
  state.store.getManifest ns blobId

/-- Writing a manifest shows under its key. -/
theorem manifestAt_after_putManifest (state : World A) {manifest : Manifest}
    (sameNs : manifest.ns = ns) (sameBlob : manifest.blobId = blobId) :
    manifestAt ns blobId (state.after anchors (.putManifest manifest)) = some manifest := by
  subst sameNs sameBlob
  exact MemoryMetadataStore.getManifest_putManifest_self _ _

theorem manifestAt_after_deleteManifest (state : World A) :
    manifestAt ns blobId (state.after anchors (.deleteManifest ns blobId)) = none :=
  MemoryMetadataStore.getManifest_deleteManifest_self _ _ _

theorem setManifestName_run_some {state : World A} {manifest : Manifest} (naming : SetNameRequest)
    (found : manifestAt ns blobId state = some manifest) :
    (setManifestName ns blobId naming).run (world env anchors) state =
      (.ok (), (state.after anchors (.getManifest ns blobId)).after anchors
        (.putManifest (manifest.named naming))) := by
  have read : (VaultMesh.getManifest ns blobId).run (world env anchors) state =
      (.ok (some manifest), state.after anchors (.getManifest ns blobId)) := by
    rw [← found]
    rfl
  rw [setManifestName, Program.run_bind_of_ok read]
  rfl

theorem setManifestName_run_none {state : World A} (naming : SetNameRequest)
    (missing : manifestAt ns blobId state = none) :
    (setManifestName ns blobId naming).run (world env anchors) state =
      (.error (.port .notFound), state.after anchors (.getManifest ns blobId)) := by
  have read : (VaultMesh.getManifest ns blobId).run (world env anchors) state =
      (.ok none, state.after anchors (.getManifest ns blobId)) := by
    rw [← missing]
    rfl
  rw [setManifestName, Program.run_bind_of_ok read]
  rfl

theorem NameUpdate.implements (request : NameUpdate) :
    Implements (world env anchors) (Keyed ns blobId) (manifestAt ns blobId)
      (request.program ns blobId) request.action := by
  have served : ∀ state : World A, Keyed ns blobId state →
      ((request.program ns blobId).run (world env anchors) state).1 =
          (request.action (manifestAt ns blobId state)).1 ∧
        manifestAt ns blobId ((request.program ns blobId).run (world env anchors) state).2 =
          (request.action (manifestAt ns blobId state)).2 := by
    intro state keyed
    cases request with
    | delete => exact ⟨rfl, manifestAt_after_deleteManifest state⟩
    | setName naming =>
        cases found : manifestAt ns blobId state with
        | none =>
            rw [NameUpdate.program, setManifestName_run_none naming found]
            exact ⟨rfl, found⟩
        | some manifest =>
            rcases keyed manifest found with ⟨sameNs, sameBlob⟩
            rw [NameUpdate.program, setManifestName_run_some naming found]
            exact ⟨rfl, manifestAt_after_putManifest _ sameNs sameBlob⟩
  refine ⟨fun state keyed => (served state keyed).1, fun state keyed => (served state keyed).2, ?_⟩
  intro state keyed manifest found
  have reached : (request.action (manifestAt ns blobId state)).2 = some manifest := by
    rw [← (served state keyed).2]
    exact found
  cases request with
  | delete => cases reached
  | setName naming =>
      cases before : manifestAt ns blobId state with
      | none =>
          rw [before] at reached
          cases reached
      | some earlier =>
          rw [before] at reached
          rcases Option.some.inj reached with rfl
          exact keyed earlier before

/-! ## Serial orders -/

abbrev nameActions (requests : List NameUpdate) :
    List (Option Manifest → Except Failure Unit × Option Manifest) :=
  requests.map NameUpdate.action

theorem getElem?_nameActions {index : ℕ} {request : NameUpdate}
    (listed : requests[index]? = some request) :
    (nameActions requests)[index]? = some request.action := by
  simp [nameActions, listed]

theorem getElem?_nameActions_none {index : ℕ} (missing : requests[index]? = none) :
    (nameActions requests)[index]? = none := by
  simp [nameActions, missing]

/-- Once the manifest is gone it stays gone, and only deletions succeed. -/
theorem play_none (requests : List NameUpdate) (order : List ℕ) :
    (play (nameActions requests) order none).2 = none ∧
      ∀ index result, (index, result) ∈ (play (nameActions requests) order none).1 →
        ∃ request, requests[index]? = some request ∧ result = (request.action none).1 := by
  induction order with
  | nil => exact ⟨rfl, by simp [play]⟩
  | cons first order ih =>
      cases listed : requests[first]? with
      | none =>
          rw [play_cons_none (getElem?_nameActions_none listed)]
          exact ih
      | some request =>
          have gone : (request.action none).2 = none := by cases request <;> rfl
          rw [play_cons (getElem?_nameActions listed), gone]
          refine ⟨ih.1, ?_⟩
          intro index result played
          rcases List.mem_cons.mp played with same | later
          · rcases Prod.mk.inj same with ⟨rfl, rfl⟩
            exact ⟨request, listed, rfl⟩
          · exact ih.2 index result later

/-- A serial order with a deletion leaves nothing. -/
theorem play_delete {order : List ℕ} {index : ℕ} (listed : index ∈ order)
    (deletes : requests[index]? = some .delete) (value : Option Manifest) :
    (play (nameActions requests) order value).2 = none := by
  rcases List.append_of_mem listed with ⟨before, after, rfl⟩
  rw [play_append, play_cons (getElem?_nameActions deletes)]
  exact (play_none requests after).1

theorem play_deletes {order : List ℕ} (all : ∀ index ∈ order, requests[index]? = some .delete)
    (value : Option Manifest) {index : ℕ} {result : Except Failure Unit}
    (played : (index, result) ∈ (play (nameActions requests) order value).1) : result = .ok () := by
  induction order generalizing value with
  | nil => cases played
  | cons first order ih =>
      rw [play_cons (getElem?_nameActions (all first List.mem_cons_self))] at played
      rcases List.mem_cons.mp played with same | later
      · exact (Prod.mk.inj same).2
      · exact ih (fun other mem => all other (List.mem_cons_of_mem _ mem)) _ later

/-- Some request of the order sent this object id. -/
def SentIn (requests : List NameUpdate) (order : List ℕ) (objectId : String) : Prop :=
  ∃ index ∈ order, ∃ naming, requests[index]? = some (.setName naming) ∧
    naming.objectId = some objectId

/-- The manifests differ in their name and their object id only. -/
def Renamed (initial manifest : Manifest) : Prop :=
  { manifest with nameEnc := initial.nameEnc, objectId := initial.objectId } = initial

theorem Renamed.named {initial manifest : Manifest} (renamed : Renamed initial manifest)
    (naming : SetNameRequest) : Renamed initial (manifest.named naming) :=
  renamed

theorem Renamed.named_eq {initial one other : Manifest} (first : Renamed initial one)
    (second : Renamed initial other) {naming : SetNameRequest}
    (sameId : naming.objectId.isSome ∨ one.objectId = other.objectId) :
    one.named naming = other.named naming := by
  unfold Renamed at first second
  rcases one with ⟨blobId, ns, erasure, shards, ciphertextLen, createdAt, nameEnc, objectId⟩
  rcases other with
    ⟨blobId', ns', erasure', shards', ciphertextLen', createdAt', nameEnc', objectId'⟩
  rw [← second] at first
  simp only [Manifest.mk.injEq, and_true] at first
  rcases first with ⟨rfl, rfl, rfl, rfl, rfl, rfl⟩
  simp only [Manifest.named, Manifest.mk.injEq, true_and]
  rcases sameId with sent | same
  · simp [sent]
  · simp only at same
    rw [same]

theorem sentIn_append_singleton {order : List ℕ} {index : ℕ} {id : String} :
    SentIn requests (order ++ [index]) id ↔ SentIn requests order id ∨
      ∃ naming, requests[index]? = some (.setName naming) ∧ naming.objectId = some id := by
  simp [SentIn, or_and_right, exists_or]

/-- The object id of the last version: one which was sent, if any was. -/
def LastSent (requests : List NameUpdate) (order : List ℕ) (initial last : Manifest) : Prop :=
  (∀ id, ¬SentIn requests order id) ∧ last.objectId = initial.objectId ∨
    ∃ id, SentIn requests order id ∧ last.objectId = some id

theorem LastSent.skip {order : List ℕ} {index : ℕ} {initial last : Manifest}
    (lastSent : LastSent requests order initial last) (nothing : requests[index]? = none) :
    LastSent requests (order ++ [index]) initial last := by
  simpa [LastSent, sentIn_append_singleton, nothing] using lastSent

theorem LastSent.named {order : List ℕ} {index : ℕ} {initial last : Manifest}
    (lastSent : LastSent requests order initial last) {naming : SetNameRequest}
    (listed : requests[index]? = some (.setName naming)) :
    LastSent requests (order ++ [index]) initial (last.named naming) := by
  simp only [LastSent, sentIn_append_singleton, listed, Option.some.injEq,
    NameUpdate.setName.injEq, exists_eq_left', Manifest.named]
  cases sent : naming.objectId with
  | some id => exact Or.inr ⟨id, Or.inr rfl, by simp⟩
  | none => simpa [LastSent] using lastSent

/-- Namings alone all succeed, and the object id at the end is the last one sent. -/
theorem play_names {order : List ℕ}
    (all : ∀ index ∈ order, requests[index]? ≠ some .delete) (initial : Manifest) :
    ∃ last, (play (nameActions requests) order (some initial)).2 = some last ∧
      Renamed initial last ∧ LastSent requests order initial last ∧
      ∀ index result, (index, result) ∈ (play (nameActions requests) order (some initial)).1 →
        result = .ok () := by
  induction order using List.reverseRecOn with
  | nil => exact ⟨initial, rfl, rfl, Or.inl ⟨by simp [SentIn], rfl⟩, by simp [play]⟩
  | append_singleton order index ih =>
      rcases ih fun other mem => all other (List.mem_append_left _ mem) with
        ⟨last, ended, renamed, lastSent, succeeded⟩
      rw [play_append, ended]
      cases listed : requests[index]? with
      | none =>
          rw [play_cons_none (getElem?_nameActions_none listed), play, List.append_nil]
          exact ⟨last, rfl, renamed, lastSent.skip listed, succeeded⟩
      | some request =>
          cases request with
          | delete => exact absurd listed (all index (by simp))
          | setName naming =>
              rw [play_cons (getElem?_nameActions listed)]
              refine ⟨last.named naming, rfl, renamed.named naming, lastSent.named listed, ?_⟩
              intro other result mem
              rcases List.mem_append.mp mem with earlier | here
              · exact succeeded other result earlier
              · exact (Prod.mk.inj (List.mem_singleton.mp here)).2

end Updates

end VaultMesh
