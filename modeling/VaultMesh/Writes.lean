import VaultMesh.Calls

/-!
# What the use-cases write

For each use-case which changes the store or the anchor, a rule says what the
use-case must have been answered before it makes a changing call. The rules are
properties of the programs alone: they hold whatever the ports answer, so they
hold under every interleaving and every failure. The development derives all
its invariants from them and never looks into a use-case again.

`Manifest.Encodes` ties a manifest to the ciphertext it was made for.
-/

namespace VaultMesh

open Interaction Coding

/-! ## Manifests and the words they describe -/

/-- The shards record the hashes of the word, numbered from `index` on. -/
def RecordsFrom (sha256Hex : Bytes → String) : ℕ → List Bytes → List Shard → Prop
  | _, [], [] => True
  | index, bytes :: word, shard :: shards =>
      shard.index = UInt16.ofNat index ∧ shard.sha256 = sha256Hex bytes ∧
        RecordsFrom sha256Hex (index + 1) word shards
  | _, _, _ => False

/-- The manifest was made for this ciphertext, encoded as this word. -/
structure Manifest.Encodes (coder : ErasureCoder) (sha256Hex : Bytes → String)
    (manifest : Manifest) (ciphertext : Bytes) (word : List Bytes) : Prop where
  encoded : coder.encode ciphertext manifest.erasure = .ok word
  records : RecordsFrom sha256Hex 0 word manifest.shards
  length : manifest.ciphertextLen.toNat = ciphertext.length

theorem Manifest.Encodes.named {coder : ErasureCoder} {sha256Hex : Bytes → String}
    {manifest : Manifest} {ciphertext : Bytes} {word : List Bytes}
    (encodes : manifest.Encodes coder sha256Hex ciphertext word) (request : SetNameRequest) :
    (manifest.named request).Encodes coder sha256Hex ciphertext word :=
  ⟨encodes.encoded, encodes.records, encodes.length⟩

theorem RecordsFrom.length_eq {sha256Hex : Bytes → String} {index : ℕ} {word : List Bytes}
    {shards : List Shard} (records : RecordsFrom sha256Hex index word shards) :
    shards.length = word.length := by
  induction word generalizing index shards with
  | nil =>
      cases shards with
      | nil => rfl
      | cons shard shards => exact records.elim
  | cons bytes word ih =>
      cases shards with
      | nil => exact records.elim
      | cons shard shards => simp [ih records.2.2]

theorem RecordsFrom.getElem? {sha256Hex : Bytes → String} {index : ℕ} {word : List Bytes}
    {shards : List Shard} (records : RecordsFrom sha256Hex index word shards) {position : ℕ}
    {shard : Shard} (found : shards[position]? = some shard) :
    shard.index = UInt16.ofNat (index + position) ∧
      ∃ bytes, word[position]? = some bytes ∧ shard.sha256 = sha256Hex bytes := by
  induction word generalizing index shards position with
  | nil =>
      cases shards with
      | nil => simp at found
      | cons first shards => exact records.elim
  | cons bytes word ih =>
      cases shards with
      | nil => exact records.elim
      | cons first shards =>
          rcases records with ⟨sameIndex, hash, records⟩
          cases position with
          | zero =>
              simp only [List.getElem?_cons_zero, Option.some.injEq] at found
              subst found
              exact ⟨sameIndex, bytes, rfl, hash⟩
          | succ position =>
              simp only [List.getElem?_cons_succ] at found ⊢
              rw [Nat.add_comm position 1, ← Nat.add_assoc]
              exact ih records found

theorem RecordsFrom.mem {sha256Hex : Bytes → String} {word : List Bytes} {shards : List Shard}
    (records : RecordsFrom sha256Hex 0 word shards) (few : word.length ≤ 65536) {shard : Shard}
    (present : shard ∈ shards) :
    shards[shard.index.toNat]? = some shard ∧
      ∃ bytes, word[shard.index.toNat]? = some bytes ∧ shard.sha256 = sha256Hex bytes := by
  rcases List.mem_iff_getElem?.mp present with ⟨position, found⟩
  rcases records.getElem? found with ⟨sameIndex, bytes, symbol, hash⟩
  have inside : position < word.length := (List.getElem?_eq_some_iff.mp symbol).1
  have samePosition : shard.index.toNat = position := by
    rw [sameIndex, Nat.zero_add, UInt16.toNat_ofNat']
    omega
  rw [samePosition]
  exact ⟨found, bytes, symbol, hash⟩

theorem RecordsFrom.nodup {sha256Hex : Bytes → String} {word : List Bytes} {shards : List Shard}
    (records : RecordsFrom sha256Hex 0 word shards) (few : word.length ≤ 65536) :
    (shards.map Shard.index).Nodup := by
  rw [List.nodup_iff_injective_getElem]
  intro first second same
  have position : ∀ place : Fin (shards.map Shard.index).length,
      ((shards.map Shard.index)[place]).toNat = place := by
    intro place
    have bound : (place : ℕ) < shards.length := by simpa using place.isLt
    have found : shards[(place : ℕ)]? = some shards[(place : ℕ)] := by simp [bound]
    have sameIndex := (records.getElem? found).1
    have length := records.length_eq
    simp only [Fin.getElem_fin, List.getElem_map, sameIndex, Nat.zero_add, UInt16.toNat_ofNat']
    omega
  apply Fin.ext
  rw [← position first, ← position second]
  exact congrArg UInt16.toNat same

/-- Slots which hold bytes with the recorded hashes mask the word. -/
theorem RecordsFrom.masks {sha256Hex : Bytes → String} (collisionFree : CollisionFree sha256Hex)
    {index : ℕ} {word : List Bytes} {shards : List Shard} {slots : List (Option Bytes)}
    (records : RecordsFrom sha256Hex index word shards)
    (matching : List.Forall₂
      (fun (shard : Shard) (slot : Option Bytes) =>
        ∀ bytes, slot = some bytes → sha256Hex bytes = shard.sha256) shards slots) :
    Masks slots word := by
  induction matching generalizing index word with
  | nil =>
      cases word with
      | nil => exact List.Forall₂.nil
      | cons bytes word => exact records.elim
  | @cons shard slot shards slots here rest ih =>
      cases word with
      | nil => exact records.elim
      | cons bytes word =>
          rcases records with ⟨-, hash, records⟩
          refine List.Forall₂.cons ?_ (ih records)
          intro value filledWith
          exact collisionFree ((here value filledWith).trans hash)

/-! ## Put -/

/-- Writing the shards of one blob and sending replicas. -/
def ShardTraffic (ns : NamespaceId) (blobId : BlobId) : PortCall → Prop
  | .putShard ref _ => ref.ns = ns ∧ ref.blobId = blobId
  | .sendShard _ _ _ => True
  | _ => False

def Stored (sha256Hex : Bytes → String) (ns : NamespaceId) (blobId : BlobId)
    (past : List PortExchange) (shard : Shard) : Prop :=
  ∃ bytes, ⟨.putShard ⟨ns, blobId, shard.index⟩ bytes, .ok ()⟩ ∈ past ∧
    sha256Hex bytes = shard.sha256

theorem Stored.mono {sha256Hex : Bytes → String} {ns : NamespaceId} {blobId : BlobId}
    {past past' : List PortExchange} {shard : Shard}
    (stored : Stored sha256Hex ns blobId past shard) (subset : past ⊆ past') :
    Stored sha256Hex ns blobId past' shard := by
  rcases stored with ⟨bytes, written, hash⟩
  exact ⟨bytes, subset written, hash⟩

namespace PutBackup

theorem toNat_sliceLen (ciphertext : Slice) :
    (sliceLen ciphertext).toNat = ciphertext.bytes.length := by
  have small := ciphertext.length_lt
  simp only [sliceLen, UInt64.toNat_ofNat']
  omega

/-- What a put has established when it writes a manifest. -/
structure Admitted (writer : PutBackup) (ns : NamespaceId) (token : CapabilityToken)
    (ciphertext : Slice) (past : List PortExchange) (manifest : Manifest) : Prop where
  inside : manifest.ns = ns
  fresh : ⟨.newId "blob", manifest.blobId.value⟩ ∈ past
  dated : ⟨.now, manifest.createdAt⟩ ∈ past
  untagged : manifest.objectId = none
  size : manifest.ciphertextLen = sliceLen ciphertext
  checked : ∃ contract usage,
    ⟨.getContract token.claims.appId, .ok (some contract)⟩ ∈ past ∧
    ⟨.namespaceUsage ns, .ok usage⟩ ∈ past ∧
    contract.quota.admits usage.bytes usage.objects (sliceLen ciphertext) = true ∧
    contract.erasure = manifest.erasure
  owned : ∃ owned, ⟨.getNamespace ns, .ok (some owned)⟩ ∈ past ∧
    owned.ownedBy token.claims.appId = true
  encodes : ∃ word, manifest.Encodes writer.erasure writer.sha256Hex ciphertext.bytes word
  stored : ∀ shard ∈ manifest.shards, Stored writer.sha256Hex ns manifest.blobId past shard

/-- The changing calls of a put, and its reading of the usage. -/
def rule (self : PutBackup) (ns : NamespaceId) (token : CapabilityToken) (ciphertext : Slice)
    (past : List PortExchange) : PortCall → Prop
  | .namespaceUsage id => id = ns ∧ ∀ made ∈ past, ∀ other, made.1 ≠ .namespaceUsage other
  | .putShard ref _ => ref.ns = ns ∧ ⟨.newId "blob", ref.blobId.value⟩ ∈ past
  | .putManifest manifest => self.Admitted ns token ciphertext past manifest ∧
      ∀ made ∈ past, ∀ other, made.1 ≠ .putManifest other
  | .sign _ | .registerApp _ | .createNamespace _ | .deleteManifest _ _ | .deleteBlob _ _ => False
  | _ => True

theorem storeShards_obeys (self : PutBackup) (ns : NamespaceId) (blobId : BlobId) (index : ℕ)
    (word : List Bytes) (past : List PortExchange) :
    (self.storeShards ns blobId index word).Obeys (fun _ => ShardTraffic ns blobId) past
      fun past' result => ∀ shards, result = .ok shards →
        RecordsFrom self.sha256Hex index word shards ∧
          ∀ shard ∈ shards, Stored self.sha256Hex ns blobId past' shard := by
  induction word generalizing index past with
  | nil =>
      rintro shards ⟨⟩
      exact ⟨trivial, by simp⟩
  | cons bytes rest ih =>
      refine Program.Obeys.call_bind ?_ ?_ ?_
      · exact ⟨rfl, rfl⟩
      · rintro _ _ _ _ ⟨⟩
      intro answer written wentWrite
      rcases question_eq_ok wentWrite with rfl
      refine (self.replicate_obeys (fun _ _ _ _ => trivial) _ _ _).bind (by rintro _ _ _ _ ⟨⟩) ?_
      intro _ placed _
      refine (ih _ _).bind (by rintro _ _ _ _ ⟨⟩) ?_
      rintro _ recorded reached shards ⟨⟩
      rcases reached recorded rfl with ⟨records, stored⟩
      refine ⟨⟨rfl, rfl, records⟩, ?_⟩
      intro shard present
      rcases List.mem_cons.mp present with rfl | later
      · exact ⟨bytes, by simp [shardMeta, Shard.new], rfl⟩
      · exact stored shard later

theorem storeShards_obeys_rule (self : PutBackup) {ns : NamespaceId} (token : CapabilityToken)
    (ciphertext : Slice) {blobId : BlobId} (word : List Bytes) {past : List PortExchange}
    (fresh : ⟨.newId "blob", blobId.value⟩ ∈ past) :
    (self.storeShards ns blobId 0 word).Obeys (self.rule ns token ciphertext) past
      fun past' result =>
        (∀ shards, result = .ok shards → RecordsFrom self.sha256Hex 0 word shards ∧
          ∀ shard ∈ shards, Stored self.sha256Hex ns blobId past' shard) ∧
        ∃ suffix, past' = past ++ suffix ∧ ∀ made ∈ suffix, ShardTraffic ns blobId made.1 := by
  have confined := (self.storeShards_obeys ns blobId 0 word past).confined
    (fun _ request (traffic : ShardTraffic ns blobId request) => traffic)
  refine confined.mono ?_ fun _ _ reached => reached
  intro suffix request traffic
  cases request with
  | putShard ref bytes =>
      rcases traffic with ⟨rfl, rfl⟩
      exact ⟨rfl, List.mem_append_left _ fresh⟩
  | _ => first | exact trivial | exact traffic.elim

/-- The manifest written under the id which the put returns. -/
def Returns (ns : NamespaceId) (past : List PortExchange) (result : Except Failure BlobId) : Prop :=
  ∀ blobId, result = .ok blobId →
    ∃ manifest, manifest.ns = ns ∧ manifest.blobId = blobId ∧
      (⟨.putManifest manifest, .ok ()⟩ : PortExchange) ∈ past

theorem returns_error (ns : NamespaceId) (past : List PortExchange) (failure : Failure) :
    Returns ns past (.error failure) := by
  rintro _ ⟨⟩

theorem store_obeys (self : PutBackup) {ns : NamespaceId} {token : CapabilityToken}
    {contract : AppContract} {usage : NamespaceUsage} {owned : Namespace} (ciphertext : Slice)
    {past : List PortExchange}
    (known : ⟨.getContract token.claims.appId, .ok (some contract)⟩ ∈ past)
    (read : ⟨.namespaceUsage ns, .ok usage⟩ ∈ past)
    (admits : contract.quota.admits usage.bytes usage.objects (sliceLen ciphertext) = true)
    (found : ⟨.getNamespace ns, .ok (some owned)⟩ ∈ past)
    (owns : owned.ownedBy token.claims.appId = true)
    (unwritten : ∀ made ∈ past, ∀ other, made.1 ≠ .putManifest other) :
    (self.store ns contract ciphertext).Obeys (self.rule ns token ciphertext) past
      (Returns ns) := by
  refine Program.Obeys.call_bind trivial (fun _ _ _ => returns_error _ _ _) ?_
  rintro id value ⟨⟩
  rw [Program.obeys_bind, Program.obeys_done]
  cases encoded : self.erasure.encode ciphertext.bytes contract.erasure with
  | error failure => exact returns_error _ _ _
  | ok word =>
      rw [Program.thenObeys_ok]
      refine (self.storeShards_obeys_rule token ciphertext word (by simp)).bind
        (fun _ _ _ => returns_error _ _ _) ?_
      rintro grown recorded ⟨reached, suffix, same, traffic⟩
      rcases (List.append_cancel_left same : grown = suffix) with rfl
      rcases reached recorded rfl with ⟨records, stored⟩
      refine Program.Obeys.call_bind trivial (fun _ _ _ => returns_error _ _ _) ?_
      rintro time value ⟨⟩
      refine Program.Obeys.call_bind ?_ (fun _ _ _ => returns_error _ _ _) ?_
      · refine ⟨⟨rfl, by simp [Manifest.new], by simp [Manifest.new], rfl, rfl, ?_, ?_, ?_, ?_⟩, ?_⟩
        · exact ⟨contract, usage, by simp [known], by simp [read], admits, rfl⟩
        · exact ⟨owned, by simp [found], owns⟩
        · exact ⟨word, encoded, records, toNat_sliceLen ciphertext⟩
        · intro shard present
          exact (stored shard present).mono (List.subset_append_left _ _)
        · intro made present other
          simp only [List.append_assoc, List.mem_append, List.mem_cons, List.not_mem_nil,
            or_false] at present
          rcases present with before | rfl | shardCall | rfl
          · exact unwritten made before other
          · simp
          · intro isPut
            have shardOnly := traffic made shardCall
            rw [isPut] at shardOnly
            exact shardOnly
          · simp
      · rintro answer value wentPut blobId ⟨⟩
        rcases question_eq_ok wentPut with rfl
        exact ⟨Manifest.new ⟨id⟩ ns contract.erasure recorded (sliceLen ciphertext) time,
          rfl, rfl, by simp⟩

/-- All that a put does, whatever the ports answer. -/
theorem execute_obeys (self : PutBackup) (ns : NamespaceId) (token : CapabilityToken)
    (ciphertext : Slice) :
    (self.execute ns token ciphertext).Obeys (self.rule ns token ciphertext) []
      (Returns ns) := by
  have guard : ∀ past request, GuardCall request → self.rule ns token ciphertext past request := by
    intro past request guardCall
    cases request <;> first | exact trivial | exact guardCall.elim
  refine (authorize_obeys guard ns token .put []).bind (fun _ _ _ => returns_error _ _ _) ?_
  intro _ app authorized
  rcases authorized app rfl with ⟨rfl, time, owned, grown, -, owns⟩
  rw [grown]
  refine Program.Obeys.call_bind trivial (fun _ _ _ => returns_error _ _ _) ?_
  intro answer found wentContract
  rcases question_eq_ok wentContract with rfl
  cases found with
  | none => exact returns_error _ _ _
  | some contract =>
      refine Program.Obeys.call_bind ?_ (fun _ _ _ => returns_error _ _ _) ?_
      · exact ⟨rfl, by simp [authorizing]⟩
      intro answer usage wentUsage
      rcases question_eq_ok wentUsage with rfl
      dsimp only
      split
      · next admits =>
          refine self.store_obeys ciphertext ?_ ?_ admits ?_ owns ?_
          all_goals simp [authorizing]
      · exact returns_error _ _ _

end PutBackup

/-! ## Names and repairs -/

/-- A request to name a blob writes back the manifest which it read. -/
def namingRule (ns : NamespaceId) (blobId : BlobId) (request : SetNameRequest)
    (past : List PortExchange) : PortCall → Prop
  | .putManifest manifest => ∃ read, ⟨.getManifest ns blobId, .ok (some read)⟩ ∈ past ∧
      manifest = read.named request
  | .sign _ | .registerApp _ | .createNamespace _ | .deleteManifest _ _ | .deleteBlob _ _
  | .putShard _ _ => False
  | _ => True

theorem setManifestName_obeys (ns : NamespaceId) (blobId : BlobId) (request : SetNameRequest) :
    (setManifestName ns blobId request).Obeys (namingRule ns blobId request) []
      fun _ _ => True := by
  refine Program.Obeys.call_bind trivial (fun _ _ _ => trivial) ?_
  intro answer found wentFound
  rcases question_eq_ok wentFound with rfl
  cases found with
  | none => exact trivial
  | some manifest => exact ⟨⟨manifest, by simp, rfl⟩, fun _ => trivial⟩

namespace RepairShards

/-- A repair rewrites shards of the manifest which it read. -/
def rule (ns : NamespaceId) (blobId : BlobId) (past : List PortExchange) : PortCall → Prop
  | .putShard ref _ => ref.ns = ns ∧ ref.blobId = blobId ∧
      ∃ manifest, ⟨.getManifest ns blobId, .ok (some manifest)⟩ ∈ past
  | .sign _ | .registerApp _ | .createNamespace _ | .deleteManifest _ _ | .deleteBlob _ _
  | .putManifest _ => False
  | _ => True

theorem permits_rule (ns : NamespaceId) (blobId : BlobId) : Permits (rule ns blobId) := by
  intro past request reads
  cases request <;> first | exact trivial | exact reads.elim

theorem rewrite_obeys (self : RepairShards) {ns : NamespaceId} {blobId : BlobId}
    (bad : List UInt16) (fresh : List Bytes) (shards : List Shard) {manifest : Manifest}
    {past : List PortExchange}
    (read : ⟨.getManifest ns blobId, .ok (some manifest)⟩ ∈ past) :
    (self.rewrite ns blobId bad fresh shards).Obeys (rule ns blobId) past fun _ _ => True := by
  induction shards generalizing past with
  | nil => exact trivial
  | cons shard shards ih =>
      rw [rewrite]
      split
      · exact ih read
      · split
        · exact trivial
        · refine Program.Obeys.call_bind ?_ (fun _ _ _ => trivial) ?_
          · exact ⟨rfl, rfl, manifest, read⟩
          intro answer written _
          refine (self.reReplicate_obeys (fun _ _ _ _ => trivial) _ _ _ _).bind
            (fun _ _ _ => trivial) ?_
          intro _ _ _
          refine (ih ?_).bind (fun _ _ _ => trivial) fun _ _ _ => trivial
          simp [read]

theorem rebuild_obeys (self : RepairShards) {ns : NamespaceId} {blobId : BlobId}
    {manifest : Manifest} (collected : List (Option Bytes)) (bad : List UInt16)
    {past : List PortExchange}
    (read : ⟨.getManifest ns blobId, .ok (some manifest)⟩ ∈ past) :
    (self.rebuild ns blobId manifest collected bad).Obeys (rule ns blobId) past
      fun _ _ => True := by
  rw [rebuild]
  split
  · rw [Program.obeys_bind, Program.obeys_done]
    cases self.erasure.decode collected manifest.erasure manifest.ciphertextLen.toNat with
    | error failure => exact trivial
    | ok data =>
        rw [Program.thenObeys_ok, Program.obeys_bind, Program.obeys_done]
        cases self.erasure.encode data manifest.erasure with
        | error failure => exact trivial
        | ok fresh =>
            rw [Program.thenObeys_ok]
            exact (self.rewrite_obeys bad fresh manifest.shards read).bind
              (fun _ _ _ => trivial) fun _ _ _ => trivial
  · exact trivial

/-- All that a repair does, whatever the ports answer. -/
theorem execute_obeys (self : RepairShards) (ns : NamespaceId) (blobId : BlobId) :
    (self.execute ns blobId).Obeys (rule ns blobId) [] fun _ _ => True := by
  have permits := permits_rule ns blobId
  refine Program.Obeys.call_bind trivial (fun _ _ _ => trivial) ?_
  intro answer found wentFound
  rcases question_eq_ok wentFound with rfl
  cases found with
  | none => exact trivial
  | some manifest =>
      refine (self.classify_obeys permits ns blobId manifest.shards _).bind
        (fun _ _ _ => trivial) ?_
      rintro _ ⟨collected, bad⟩ _
      dsimp only
      split
      · exact trivial
      · split
        · exact self.rebuild_obeys collected bad (by simp)
        · refine (self.backfillFromPeers_obeys permits ns blobId manifest collected bad _).bind
            (fun _ _ _ => trivial) ?_
          intro _ borrowed _
          exact self.rebuild_obeys borrowed bad (by simp)

end RepairShards

/-! ## Delete -/

/-- The owner's contract is known, and if it has a hold, a manifest of the blob and a clock reading
which satisfy the hold. -/
def HoldChecked (ns : NamespaceId) (blobId : BlobId) (past : List PortExchange) : Prop :=
  ∃ owned contract, ⟨.getNamespace ns, .ok (some owned)⟩ ∈ past ∧
    ⟨.getContract owned.appId, .ok (some contract)⟩ ∈ past ∧
    (contract.retention.minDays = 0 ∨
      ∃ key manifest time, ⟨.getManifest ns key, .ok (some manifest)⟩ ∈ past ∧
        (key = blobId ∨ manifest.blobId = blobId) ∧ ⟨.now, time⟩ ∈ past ∧
        contract.retention.holdElapsed manifest.createdAt time = true)

theorem HoldChecked.mono {ns : NamespaceId} {blobId : BlobId} {past past' : List PortExchange}
    (held : HoldChecked ns blobId past) (subset : past ⊆ past') : HoldChecked ns blobId past' := by
  rcases held with ⟨owned, contract, found, known, elapsed⟩
  refine ⟨owned, contract, subset found, subset known, ?_⟩
  rcases elapsed with none | ⟨key, manifest, time, read, same, clock, held⟩
  · exact Or.inl none
  · exact Or.inr ⟨key, manifest, time, subset read, same, subset clock, held⟩

namespace DeleteBackup

/-- A delete removes one blob, the shards first, once the hold is checked. -/
def rule (ns : NamespaceId) (blobId : BlobId) (past : List PortExchange) : PortCall → Prop
  | .deleteBlob ns' blobId' => ns' = ns ∧ blobId' = blobId ∧ HoldChecked ns blobId past
  | .deleteManifest ns' blobId' => ns' = ns ∧ blobId' = blobId ∧ HoldChecked ns blobId past ∧
      ⟨.deleteBlob ns blobId, .ok ()⟩ ∈ past
  | .sign _ | .registerApp _ | .createNamespace _ | .putShard _ _ | .putManifest _ => False
  | _ => True

theorem permits_rule (ns : NamespaceId) (blobId : BlobId) : Permits (rule ns blobId) := by
  intro past request reads
  cases request <;> first | exact trivial | exact reads.elim

def Removes (ns : NamespaceId) (blobId : BlobId) (past : List PortExchange)
    (result : Except Failure Unit) : Prop :=
  result = .ok () → (⟨.deleteBlob ns blobId, .ok ()⟩ : PortExchange) ∈ past ∧
    (⟨.deleteManifest ns blobId, .ok ()⟩ : PortExchange) ∈ past

theorem removes_error (ns : NamespaceId) (blobId : BlobId) (past : List PortExchange)
    (failure : Failure) : Removes ns blobId past (.error failure) := by
  rintro ⟨⟩

theorem remove_obeys {ns : NamespaceId} {blobId : BlobId} {past : List PortExchange}
    (held : HoldChecked ns blobId past) :
    (remove ns blobId).Obeys (rule ns blobId) past (Removes ns blobId) := by
  refine Program.Obeys.call_bind ⟨rfl, rfl, held⟩ (fun _ _ _ => removes_error _ _ _ _) ?_
  intro answer value wentBlob
  rcases question_eq_ok wentBlob with rfl
  refine ⟨⟨rfl, rfl, held.mono (List.subset_append_left _ _), by simp⟩, ?_⟩
  intro answer wentManifest
  rcases question_eq_ok wentManifest with rfl
  simp

/-- All that a delete does, whatever the ports answer. -/
theorem execute_obeys (ns : NamespaceId) (token : CapabilityToken) (blobId : BlobId) :
    (execute ns token blobId).Obeys (rule ns blobId) [] (Removes ns blobId) := by
  have permits := permits_rule ns blobId
  refine (authorize_obeys permits.guard ns token .delete []).bind
    (fun _ _ _ => removes_error _ _ _ _) ?_
  intro _ app authorized
  rcases authorized app rfl with ⟨rfl, checkedAt, owned, grown, -, owns⟩
  have sameApp : owned.appId = token.claims.appId := by
    simpa [Namespace.ownedBy] using owns
  rw [grown]
  refine Program.Obeys.call_bind trivial (fun _ _ _ => removes_error _ _ _ _) ?_
  intro answer known wentContract
  rcases question_eq_ok wentContract with rfl
  cases known with
  | none => exact removes_error _ _ _ _
  | some contract =>
      simp only [okOr_some, pure_bind]
      split
      · refine Program.Obeys.call_bind trivial (fun _ _ _ => removes_error _ _ _ _) ?_
        intro answer found wentFound
        rcases question_eq_ok wentFound with rfl
        cases found with
        | none => exact removes_error _ _ _ _
        | some manifest =>
            refine Program.Obeys.call_bind trivial (fun _ _ _ => removes_error _ _ _ _) ?_
            rintro time value ⟨⟩
            dsimp only
            split
            · next elapsed =>
                apply remove_obeys
                refine ⟨owned, contract, ?_, ?_, Or.inr
                  ⟨blobId, manifest, time, ?_, Or.inl rfl, ?_, elapsed⟩⟩
                all_goals simp [authorizing, sameApp]
            · exact removes_error _ _ _ _
      · next noHold =>
          apply remove_obeys
          refine ⟨owned, contract, ?_, ?_, Or.inl ?_⟩
          · simp [authorizing]
          · simp [authorizing, sameApp]
          · simpa using noHold

end DeleteBackup

/-! ## Prune -/

namespace PruneVersions

def tagged (objectId : String) (found : List (Option Manifest)) : List Manifest :=
  found.filterMap fun answer => answer.filter fun manifest =>
    decide (manifest.objectId = some objectId)

@[simp]
theorem tagged_cons_none (objectId : String) (found : List (Option Manifest)) :
    tagged objectId (none :: found) = tagged objectId found := by
  simp [tagged]

theorem tagged_cons_of_carries {objectId : String} {manifest : Manifest}
    (carries : manifest.objectId = some objectId) (found : List (Option Manifest)) :
    tagged objectId (some manifest :: found) = manifest :: tagged objectId found := by
  simp [tagged, Option.filter, carries]

theorem tagged_cons_of_differs {objectId : String} {manifest : Manifest}
    (differs : ¬manifest.objectId = some objectId) (found : List (Option Manifest)) :
    tagged objectId (some manifest :: found) = tagged objectId found := by
  simp [tagged, Option.filter, differs]

/-- What a prune knows of the namespace when it starts deleting. -/
structure Snapshot where
  owned : Namespace
  contract : AppContract
  blobs : List BlobId
  found : List (Option Manifest)

structure Snapshot.Taken (snapshot : Snapshot) (ns : NamespaceId) (past : List PortExchange) :
    Prop where
  owner : ⟨.getNamespace ns, .ok (some snapshot.owned)⟩ ∈ past
  terms : ⟨.getContract snapshot.owned.appId, .ok (some snapshot.contract)⟩ ∈ past
  listed : ⟨.listBlobs ns, .ok snapshot.blobs⟩ ∈ past
  read : List.Forall₂ (fun blobId answer =>
    (⟨.getManifest ns blobId, .ok answer⟩ : PortExchange) ∈ past) snapshot.blobs snapshot.found

theorem Snapshot.Taken.mono {snapshot : Snapshot} {ns : NamespaceId}
    {past past' : List PortExchange} (taken : snapshot.Taken ns past) (subset : past ⊆ past') :
    snapshot.Taken ns past' :=
  ⟨subset taken.owner, subset taken.terms, subset taken.listed,
    taken.read.imp fun _ _ answered => subset answered⟩

/-- The blob is a version beyond the newest `keep` of the snapshot, and its hold has elapsed. -/
structure Snapshot.Surplus (snapshot : Snapshot) (objectId : String) (time : Timestamp)
    (version : Manifest) : Prop where
  limited : 0 < snapshot.contract.retention.keepVersions.toNat
  beyond : ∃ position, snapshot.contract.retention.keepVersions.toNat ≤ position ∧
    (newestFirst (tagged objectId snapshot.found))[position]? = some version
  elapsed : snapshot.contract.retention.holdElapsed version.createdAt time = true

/-- A prune deletes only surplus versions of its snapshot. -/
def Condemned (ns : NamespaceId) (objectId : String) (blobId : BlobId)
    (past : List PortExchange) : Prop :=
  ∃ snapshot time version, Snapshot.Taken snapshot ns past ∧ ⟨.now, time⟩ ∈ past ∧
    snapshot.Surplus objectId time version ∧ version.blobId = blobId

theorem Condemned.mono {ns : NamespaceId} {objectId : String} {blobId : BlobId}
    {past past' : List PortExchange} (condemned : Condemned ns objectId blobId past)
    (subset : past ⊆ past') : Condemned ns objectId blobId past' := by
  rcases condemned with ⟨snapshot, time, version, taken, clock, surplus, same⟩
  exact ⟨snapshot, time, version, taken.mono subset, subset clock, surplus, same⟩

/-- The changing calls of a prune. -/
def rule (ns : NamespaceId) (objectId : String) (past : List PortExchange) : PortCall → Prop
  | .deleteBlob ns' blobId => ns' = ns ∧ Condemned ns objectId blobId past
  | .deleteManifest ns' blobId => ns' = ns ∧ Condemned ns objectId blobId past ∧
      ⟨.deleteBlob ns blobId, .ok ()⟩ ∈ past
  | .sign _ | .registerApp _ | .createNamespace _ | .putShard _ _ | .putManifest _ => False
  | _ => True

theorem permits_rule (ns : NamespaceId) (objectId : String) : Permits (rule ns objectId) := by
  intro past request reads
  cases request <;> first | exact trivial | exact reads.elim

/-- Every blob whose shards were deleted lost its manifest too. -/
def Paired (ns : NamespaceId) (past : List PortExchange) : Prop :=
  ∀ blobId answer, (⟨.deleteBlob ns blobId, answer⟩ : PortExchange) ∈ past →
    (⟨.deleteBlob ns blobId, .ok ()⟩ : PortExchange) ∈ past ∧
      (⟨.deleteManifest ns blobId, .ok ()⟩ : PortExchange) ∈ past

theorem collectVersions_obeys (ns : NamespaceId) (objectId : String) (blobs : List BlobId)
    (past : List PortExchange) :
    (collectVersions ns objectId blobs).Obeys (fun _ => ReadOnly) past fun past' result =>
      ∀ versions, result = .ok versions → ∃ found, versions = tagged objectId found ∧
        List.Forall₂ (fun blobId answer =>
          (⟨.getManifest ns blobId, .ok answer⟩ : PortExchange) ∈ past') blobs found := by
  induction blobs generalizing past with
  | nil =>
      rintro _ ⟨⟩
      exact ⟨[], rfl, List.Forall₂.nil⟩
  | cons blobId blobs ih =>
      refine Program.Obeys.call_bind trivial (by rintro _ _ _ _ ⟨⟩) ?_
      intro answer found wentFound
      rcases question_eq_ok wentFound with rfl
      refine (ih _).bind (by rintro _ _ _ _ ⟨⟩) ?_
      intro suffix versions reached
      rcases reached versions rfl with ⟨others, rfl, read⟩
      have here : (⟨.getManifest ns blobId, .ok found⟩ : PortExchange) ∈
          past ++ [⟨.getManifest ns blobId, .ok found⟩] ++ suffix := by simp
      cases found with
      | none =>
          rintro _ ⟨⟩
          exact ⟨none :: others, by simp, List.Forall₂.cons here read⟩
      | some manifest =>
          dsimp only
          split
          · next carries =>
              rintro _ ⟨⟩
              exact ⟨some manifest :: others, (tagged_cons_of_carries carries others).symm,
                List.Forall₂.cons here read⟩
          · next differs =>
              rintro _ ⟨⟩
              exact ⟨some manifest :: others, (tagged_cons_of_differs differs others).symm,
                List.Forall₂.cons here read⟩

theorem Paired.append_of_reads {ns : NamespaceId} {past suffix : List PortExchange}
    (paired : Paired ns past) (reads : ∀ made ∈ suffix, ReadOnly made.1) :
    Paired ns (past ++ suffix) := by
  intro blobId answer present
  rcases List.mem_append.mp present with before | later
  · rcases paired blobId answer before with ⟨blobGone, manifestGone⟩
    exact ⟨List.mem_append_left _ blobGone, List.mem_append_left _ manifestGone⟩
  · exact (reads _ later).elim

theorem Paired.append_pair {ns : NamespaceId} {past : List PortExchange} (paired : Paired ns past)
    (blobId : BlobId) :
    Paired ns (past ++ [⟨.deleteBlob ns blobId, .ok ()⟩] ++
      [⟨.deleteManifest ns blobId, .ok ()⟩]) := by
  intro other answer present
  simp only [List.append_assoc, List.mem_append, List.mem_cons, List.not_mem_nil, or_false]
    at present ⊢
  rcases present with before | same | impossible
  · rcases paired other answer before with ⟨blobGone, manifestGone⟩
    exact ⟨Or.inl blobGone, Or.inl manifestGone⟩
  · cases same
    exact ⟨Or.inr (Or.inl rfl), Or.inr (Or.inr rfl)⟩
  · cases impossible

/-- The walk over the sorted versions: those before `index` are not visited again. -/
theorem deleteOlder_obeys {ns : NamespaceId} (objectId : String) (snapshot : Snapshot)
    {time : Timestamp} {index : ℕ} {versions : List Manifest} {past : List PortExchange}
    (limited : 0 < snapshot.contract.retention.keepVersions.toNat)
    (position : (newestFirst (tagged objectId snapshot.found)).drop index = versions)
    (taken : snapshot.Taken ns past) (clock : ⟨.now, time⟩ ∈ past) (paired : Paired ns past) :
    (deleteOlder ns snapshot.contract.retention time
      snapshot.contract.retention.keepVersions.toNat index versions).Obeys (rule ns objectId) past
      fun past' result => ∀ counts, result = .ok counts → Paired ns past' := by
  induction versions generalizing index past with
  | nil => exact fun _ _ => paired
  | cons version versions ih =>
      have here : (newestFirst (tagged objectId snapshot.found))[index]? = some version := by
        rw [← List.head?_drop, position, List.head?_cons]
      have next : (newestFirst (tagged objectId snapshot.found)).drop (index + 1) = versions := by
        rw [← List.tail_drop, position, List.tail_cons]
      rw [deleteOlder]
      split
      · refine (ih next taken clock paired).bind (by rintro _ _ _ _ ⟨⟩) ?_
        rintro _ counts reached _ ⟨⟩
        exact reached counts rfl
      · next beyond =>
          split
          · next elapsed =>
              have condemned : Condemned ns objectId version.blobId past :=
                ⟨snapshot, time, version, taken, clock,
                  ⟨limited, ⟨index, Nat.le_of_not_lt beyond, here⟩, elapsed⟩, rfl⟩
              refine Program.Obeys.call_bind ⟨rfl, condemned⟩ (by rintro _ _ _ _ ⟨⟩) ?_
              intro answer value wentBlob
              rcases question_eq_ok wentBlob with rfl
              refine Program.Obeys.call_bind
                ⟨rfl, condemned.mono (List.subset_append_left _ _), by simp⟩
                (by rintro _ _ _ _ ⟨⟩) ?_
              intro answer value wentManifest
              rcases question_eq_ok wentManifest with rfl
              have grows : past ⊆ past ++ [⟨.deleteBlob ns version.blobId, .ok ()⟩] ++
                  [⟨.deleteManifest ns version.blobId, .ok ()⟩] := by
                rw [List.append_assoc]
                exact List.subset_append_left _ _
              refine (ih next (taken.mono grows) (grows clock)
                (paired.append_pair version.blobId)).bind (by rintro _ _ _ _ ⟨⟩) ?_
              rintro _ counts reached _ ⟨⟩
              exact reached counts rfl
          · refine (ih next taken clock paired).bind (by rintro _ _ _ _ ⟨⟩) ?_
            rintro _ counts reached _ ⟨⟩
            exact reached counts rfl

/-- All that a prune does, whatever the ports answer. -/
theorem execute_obeys (ns : NamespaceId) (objectId : String) :
    (execute ns objectId).Obeys (rule ns objectId) []
      fun past' result => ∀ report, result = .ok report → Paired ns past' := by
  have permits := permits_rule ns objectId
  have failed : ∀ (past : List PortExchange) (failure : Failure) (report : PruneReport),
      (.error failure : Except Failure PruneReport) = .ok report → Paired ns past := by
    rintro _ _ _ ⟨⟩
  refine Program.Obeys.call_bind trivial (fun _ _ _ => failed _ _) ?_
  intro answer found wentOwner
  rcases question_eq_ok wentOwner with rfl
  cases found with
  | none => exact failed _ _
  | some owned =>
      refine Program.Obeys.call_bind trivial (fun _ _ _ => failed _ _) ?_
      intro answer known wentContract
      rcases question_eq_ok wentContract with rfl
      cases known with
      | none => exact failed _ _
      | some contract =>
          refine Program.Obeys.call_bind trivial (fun _ _ _ => failed _ _) ?_
          intro answer blobs wentList
          rcases question_eq_ok wentList with rfl
          refine (((collectVersions_obeys ns objectId blobs _).confined
            (fun _ request (reads : ReadOnly request) => reads)).weaken permits).bind
            (fun _ _ _ => failed _ _) ?_
          rintro _ versions ⟨reached, suffix, grown, reads⟩
          rcases reached versions rfl with ⟨answers, rfl, read⟩
          rw [grown] at read ⊢
          have untouched : Paired ns ([] ++ [⟨.getNamespace ns, .ok (some owned)⟩] ++
              [⟨.getContract owned.appId, .ok (some contract)⟩] ++
              [⟨.listBlobs ns, .ok blobs⟩] ++ suffix) := by
            refine Paired.append_of_reads ?_ reads
            intro blobId answer present
            simp at present
          dsimp only [sweep]
          split
          · exact fun _ _ => untouched
          · next limited =>
              refine Program.Obeys.call_bind trivial (fun _ _ _ => failed _ _) ?_
              rintro time value ⟨⟩
              have taken : Snapshot.Taken ⟨owned, contract, blobs, answers⟩ ns _ :=
                ⟨by simp, by simp, by simp, read⟩
              refine (deleteOlder_obeys objectId ⟨owned, contract, blobs, answers⟩
                (Nat.pos_of_ne_zero limited) List.drop_zero
                (taken.mono (List.subset_append_left _ _)) (by simp)
                (untouched.append_of_reads (by simp [ReadOnly]))).bind (by rintro _ _ _ _ ⟨⟩) ?_
              rintro _ counts after _ ⟨⟩
              exact after counts rfl

end PruneVersions

end VaultMesh
