import VaultMesh.Ledger

/-!
# The retention hold

Deletes and prunes enforce the hold in different places: a delete reads the
manifest of its blob, a prune reads the manifests of all versions and condemns
some of them. Both have made the same checks when they remove something
(`Request.holdChecked_of_rule`). The ledger turns what they were answered into
facts about the contract and about the put which stored the blob, since no
renaming changes a creation time.
-/

namespace VaultMesh

open Interaction Coding

theorem PruneVersions.newestFirst_perm (versions : List Manifest) :
    (newestFirst versions).Perm versions := by
  unfold newestFirst
  apply List.perm_insertionSort

theorem PruneVersions.mem_of_mem_tagged {objectId : String} {found : List (Option Manifest)}
    {manifest : Manifest} (present : manifest ∈ tagged objectId found) : some manifest ∈ found := by
  rcases List.mem_filterMap.mp present with ⟨answer, answered, kept⟩
  rcases Option.filter_eq_some_iff.mp kept with ⟨rfl, -⟩
  exact answered

theorem PruneVersions.carries_of_mem_tagged {objectId : String} {found : List (Option Manifest)}
    {manifest : Manifest} (present : manifest ∈ tagged objectId found) :
    manifest.objectId = some objectId := by
  rcases List.mem_filterMap.mp present with ⟨answer, -, kept⟩
  rcases Option.filter_eq_some_iff.mp kept with ⟨-, carries⟩
  exact of_decide_eq_true carries

theorem PruneVersions.exists_key_of_mem {answers : BlobId → Option Manifest → Prop}
    {blobs : List BlobId} {found : List (Option Manifest)}
    (read : List.Forall₂ answers blobs found) {answer : Option Manifest}
    (present : answer ∈ found) : ∃ key ∈ blobs, answers key answer := by
  induction read with
  | nil => cases present
  | @cons key _ blobs _ answered _ ih =>
      rcases List.mem_cons.mp present with rfl | later
      · exact ⟨key, List.mem_cons_self, answered⟩
      · rcases ih later with ⟨other, listed, answeredToo⟩
        exact ⟨other, List.mem_cons_of_mem _ listed, answeredToo⟩

/-- Whom a prune condemns has outlived the hold. -/
theorem PruneVersions.Condemned.holdChecked {ns : NamespaceId} {objectId : String}
    {blobId : BlobId} {past : List PortExchange} (condemned : Condemned ns objectId blobId past) :
    HoldChecked ns blobId past := by
  rcases condemned with ⟨snapshot, time, version, taken, clock, surplus, same⟩
  rcases surplus.beyond with ⟨position, -, sorted⟩
  have present : version ∈ tagged objectId snapshot.found := by
    apply (newestFirst_perm _).mem_iff.mp
    exact List.mem_of_getElem? sorted
  rcases exists_key_of_mem taken.read (mem_of_mem_tagged present) with ⟨key, -, read⟩
  exact ⟨snapshot.owned, snapshot.contract, taken.owner, taken.terms,
    Or.inr ⟨key, version, time, read, Or.inr same, clock, surplus.elapsed⟩⟩

/-- The call removes the shards or the manifest of the blob. -/
def Deletes (ns : NamespaceId) (blobId : BlobId) (call : PortCall) : Prop :=
  call = .deleteBlob ns blobId ∨ call = .deleteManifest ns blobId

theorem Request.holdChecked_of_rule {node : Node} {request : Request} {past : List PortExchange}
    {call : PortCall} {ns : NamespaceId} {blobId : BlobId} (deletes : Deletes ns blobId call)
    (permitted : request.rule node past call) : HoldChecked ns blobId past := by
  cases request with
  | prune ns' objectId =>
      rcases deletes with rfl | rfl
      · rcases permitted with ⟨rfl, condemned⟩
        exact condemned.holdChecked
      · rcases permitted with ⟨rfl, condemned, -⟩
        exact condemned.holdChecked
  | delete ns' token blobId' =>
      rcases deletes with rfl | rfl
      · rcases permitted with ⟨rfl, rfl, held⟩
        exact held
      · rcases permitted with ⟨rfl, rfl, held, -⟩
        exact held
  | _ => rcases deletes with rfl | rfl <;> exact permitted.elim

/--
In every interleaving of puts, gets, repairs, prunes, deletes and renamings, under
any clock, a request which removes the shards or the manifest of a blob has read
a time at which the hold of the owner's contract has elapsed since the creation
time which the put of the blob recorded. The put may come before or after the
removal, and every other manifest written for the blob has the same creation time.
-/
theorem retention_hold_respected {A : Type} {env : Environment}
    (fresh : Function.Injective env.uuid) (anchors : AnchorModel A) (node : Node) {first : World A}
    (none : ∀ ns blobId, first.store.getManifest ns blobId = none)
    (requests : List Request) (schedule : List ℕ)
    {before after : Trace} {index : ℕ} {made : PortExchange}
    (split : (System.exec (world env anchors)
      (System.start first (requests.map (Request.program node))) schedule).trace =
        before ++ (index, made) :: after)
    {ns : NamespaceId} {blobId : BlobId} (deletes : Deletes ns blobId made.1)
    {putter : ℕ} {manifest : Manifest} {answer : PortResult Unit}
    (stored : (putter, ⟨.putManifest manifest, answer⟩) ∈ before ++ (index, made) :: after)
    (sameBlob : manifest.blobId = blobId) :
    ∃ owned contract, first.store.getNamespace ns = some owned ∧
      first.store.getContract owned.appId = some contract ∧
      (contract.retention.minDays = 0 ∨
        ∃ time, (index, ⟨.now, time⟩) ∈ before ∧
          contract.retention.minDays.toNat * millisPerDay + manifest.createdAt.millis.toNat ≤
            time.millis.toNat) := by
  rcases ledger_exec fresh none anchors node requests schedule with ⟨obedient, ledger⟩
  rw [split] at ledger
  have lawful := obedient.lawful
  rw [split] at lawful
  have earlier : before ⊆ before ++ (index, made) :: after := List.subset_append_left _ _
  rcases lawful before index made after rfl with ⟨request, -, permitted⟩
  rcases request.holdChecked_of_rule deletes permitted with
    ⟨owned, contract, owner, terms, elapsed⟩
  refine ⟨owned, contract, ledger.owners index ns owned (earlier (mem_pastOf.mp owner)),
    ledger.terms index _ contract (earlier (mem_pastOf.mp terms)), ?_⟩
  rcases elapsed with noHold | ⟨key, read, time, answered, named, clock, held⟩
  · exact Or.inl noHold
  · -- The manifest read and the manifest put belong to the same blob.
    rcases ledger.read index ns key read (earlier (mem_pastOf.mp answered)) with
      ⟨⟨-, underKey⟩, written⟩
    have sameRead : read.blobId = manifest.blobId := by
      rw [sameBlob]
      rcases named with rfl | same
      · exact underKey
      · exact same
    rcases ledger.origin_unique lawful written ⟨putter, answer, stored⟩ sameRead with
      ⟨original, readOf, putOf⟩
    rcases (contract.retention.holdElapsed_iff _ _).mp held with noHold | longEnough
    · exact Or.inl noHold
    · refine Or.inr ⟨time, mem_pastOf.mp clock, ?_⟩
      rw [putOf.createdAt_eq, ← readOf.createdAt_eq]
      exact longEnough

/-- The clock jumps ahead by more than a day. -/
def jumpingEnvironment : Environment :=
  { sampleEnvironment with clock := fun tick => if tick < 15 then ⟨1000⟩ else ⟨90000000⟩ }

def heldRun : System ports Failure (World ShardMap) :=
  System.exec (world jumpingEnvironment shardMap)
    (System.start ⟨sampleStore ⟨10, 10⟩ ⟨0, 1⟩, fun _ => none, [], 0⟩
      ([samplePut 7,
        .delete ⟨"ns-1"⟩ (sampleToken .delete) ⟨"blob-5"⟩].map (Request.program replicatingNode)))
    [0, 0, 0, 0, 0, 0, 1, 1, 1, 1, 0, 0, 0, 0, 1, 1, 1, 1]

theorem retention_hold_respected_heldRun :
    (1, ⟨.deleteBlob ⟨"ns-1"⟩ ⟨"blob-5"⟩, .ok ()⟩) ∈ heldRun.trace ∧
      ∃ time, (1, ⟨.now, time⟩) ∈ heldRun.trace ∧ 86400000 + 1000 ≤ time.millis.toNat := by
  have split : heldRun.trace = heldRun.trace.take 16 ++
      (1, ⟨.deleteBlob ⟨"ns-1"⟩ ⟨"blob-5"⟩, .ok ()⟩) :: heldRun.trace.drop 17 := rfl
  refine ⟨List.mem_of_getElem? (i := 16) rfl, ?_⟩
  have stored : (0, ⟨.putManifest (sampleManifest [.anchor]), .ok ()⟩) ∈ heldRun.trace :=
    List.mem_of_getElem? (i := 13) rfl
  rw [split] at stored
  rcases retention_hold_respected injective_toString shardMap replicatingNode
    (fun _ _ => rfl) _ _ split (Or.inl rfl) stored rfl with ⟨owned, contract, -, known, hold⟩
  rcases getContract_sampleStore known with rfl
  rcases hold with noHold | ⟨time, clock, longEnough⟩
  · exact absurd noHold (by decide)
  · exact ⟨time, List.mem_of_mem_take clock, longEnough⟩

end VaultMesh
