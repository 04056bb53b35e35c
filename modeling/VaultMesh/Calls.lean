import VaultMesh.UseCases

/-!
# The calls which the use-cases make

What the use-cases ask of the ports, whatever the answers are. Most of a
use-case only reads; `ReadOnly` collects the calls which leave the store, the
anchor and the signer alone, and the lemmas below are stated for every rule
which permits them (`Permits`). The writing parts of the use-cases are treated
where their effects matter.
-/

namespace VaultMesh

open Interaction Coding

/-- The call changes neither the store nor the anchor nor the signer. -/
def ReadOnly : PortCall → Prop
  | .sign _ | .registerApp _ | .createNamespace _ | .putManifest _ | .deleteManifest _ _
  | .putShard _ _ | .deleteBlob _ _ => False
  | _ => True

def Permits (rule : List PortExchange → PortCall → Prop) : Prop :=
  ∀ past request, ReadOnly request → rule past request

theorem permits_readOnly : Permits fun _ => ReadOnly :=
  fun _ _ reads => reads

variable {rule : List PortExchange → PortCall → Prop}

theorem Permits.ask {α β : Type} {request : PortCall}
    {decode : PortCall.Answer request → Except Failure α} {next : α → UseCase β}
    {past : List PortExchange} {post : List PortExchange → Except Failure β → Prop}
    (permits : Permits rule) (readOnly : ReadOnly request)
    (failed : ∀ answer error, decode answer = .error error →
      post (past ++ [⟨request, answer⟩]) (.error error))
    (went : ∀ answer value, decode answer = .ok value →
      (next value).Obeys rule (past ++ [⟨request, answer⟩]) post) :
    ((Program.call request fun answer => .done (decode answer) : UseCase α) >>= next).Obeys
      rule past post :=
  Program.Obeys.call_bind (permits past request readOnly) failed went

def GuardCall : PortCall → Prop
  | .verifySignature _ | .now | .getNamespace _ => True
  | _ => False

theorem Permits.guard (permits : Permits rule) (past : List PortExchange) (request : PortCall)
    (guardCall : GuardCall request) : rule past request := by
  apply permits past request
  cases request <;> first | exact trivial | exact guardCall.elim

def authorizing (ns : NamespaceId) (token : CapabilityToken) (time : Timestamp)
    (owned : Namespace) : List PortExchange :=
  [⟨.verifySignature token, .ok ()⟩, ⟨.now, time⟩, ⟨.getNamespace ns, .ok (some owned)⟩]

/-- What a successful authorization has established. -/
def Authorized (ns : NamespaceId) (token : CapabilityToken) (operation : Operation)
    (past past' : List PortExchange) (result : Except Failure AppId) : Prop :=
  ∀ app, result = .ok app → app = token.claims.appId ∧
    ∃ time owned, past' = past ++ authorizing ns token time owned ∧
      token.authorize app ns operation time = .ok () ∧ owned.ownedBy app = true

/-- Authorization asks the verifier, the clock and the store, and accepts only on their word. -/
theorem authorize_obeys (guard : ∀ past request, GuardCall request → rule past request)
    (ns : NamespaceId) (token : CapabilityToken) (operation : Operation)
    (past : List PortExchange) :
    (authorize ns token operation).Obeys rule past (Authorized ns token operation past) := by
  refine Program.Obeys.call_bind ?_ ?_ ?_
  · exact guard _ _ trivial
  · rintro _ _ _ _ ⟨⟩
  intro verified value wentVerify
  refine Program.Obeys.call_bind ?_ ?_ ?_
  · exact guard _ _ trivial
  · rintro _ _ ⟨⟩
  intro time time' wentTime
  rcases Except.ok.inj wentTime with rfl
  rw [Program.obeys_bind, Program.obeys_done]
  cases scope : token.authorize token.claims.appId ns operation time with
  | error error => rintro _ ⟨⟩
  | ok _ =>
      simp only [fromDomain, Program.thenObeys_ok]
      refine Program.Obeys.call_bind ?_ ?_ ?_
      · exact guard _ _ trivial
      · rintro _ _ _ _ ⟨⟩
      intro answer found wentFound
      cases found with
      | none => rintro _ ⟨⟩
      | some owned =>
          simp only [okOr_some, pure_bind]
          split
          · next owns =>
              rintro app ⟨⟩
              refine ⟨rfl, time, owned, ?_, scope, owns⟩
              rcases question_eq_ok wentVerify with rfl
              rcases question_eq_ok wentFound with rfl
              simp [authorizing]
          · rintro _ ⟨⟩

/-- Peers are asked for this shard, and nobody for anything else. -/
theorem fetchReplica_obeys {ref : ShardRef}
    (asks : ∀ past peer, rule past (.fetchShard peer ref)) (sha256Hex : Bytes → String)
    (shard : Shard) (locations : List ShardLocation) (past : List PortExchange) :
    (fetchReplica sha256Hex ref shard locations).Obeys rule past fun _ _ => True := by
  induction locations generalizing past with
  | nil => exact trivial
  | cons location locations ih =>
      cases location with
      | anchor => exact ih past
      | peer peer =>
          refine Program.Obeys.call_bind (asks past peer) (fun _ _ _ => trivial) ?_
          intro answer outcome _
          cases outcome with
          | error error => exact ih _
          | ok bytes =>
              simp only
              split
              · exact trivial
              · exact ih _

/-! ## Get -/

namespace GetBackup

theorem loadFromPeers_obeys (permits : Permits rule) (self : GetBackup) (ref : ShardRef)
    (shard : Shard) (past : List PortExchange) :
    (self.loadFromPeers ref shard).Obeys rule past fun _ _ => True := by
  unfold loadFromPeers
  split
  · exact fetchReplica_obeys (fun _ _ => permits _ _ trivial) _ _ _ _
  · exact trivial

theorem loadShard_obeys (permits : Permits rule) (self : GetBackup) (ref : ShardRef)
    (shard : Shard) (past : List PortExchange) :
    (self.loadShard ref shard).Obeys rule past fun _ _ => True := by
  refine (self.loadFromPeers_obeys permits ref shard past).bind (fun _ _ _ => trivial)
    fun suffix replica _ => ?_
  cases replica with
  | some bytes => exact trivial
  | none =>
      refine permits.ask ?_ (fun _ _ _ => trivial) ?_
      · exact trivial
      intro answer outcome _
      cases outcome with
      | error error => exact trivial
      | ok bytes =>
          simp only
          split <;> exact trivial

theorem collect_obeys (permits : Permits rule) (self : GetBackup) (ns : NamespaceId)
    (blobId : BlobId) (shards : List Shard) (past : List PortExchange) :
    (self.collect ns blobId shards).Obeys rule past fun _ _ => True := by
  induction shards generalizing past with
  | nil => exact trivial
  | cons shard shards ih =>
      refine (self.loadShard_obeys permits _ shard past).bind (fun _ _ _ => trivial) ?_
      intro suffix slot _
      exact (ih _).bind (fun _ _ _ => trivial) fun _ _ _ => trivial

theorem reconstruct_obeys (permits : Permits rule) (self : GetBackup) (ns : NamespaceId)
    (blobId : BlobId) (past : List PortExchange) :
    (self.reconstruct ns blobId).Obeys rule past fun _ _ => True := by
  refine permits.ask ?_ (fun _ _ _ => trivial) ?_
  · exact trivial
  intro answer found _
  cases found with
  | none => exact trivial
  | some manifest =>
      exact (self.collect_obeys permits ns blobId manifest.shards _).bind
        (fun _ _ _ => trivial) fun _ _ _ => trivial

theorem restore_obeys (permits : Permits rule) (self : GetBackup) (ns : NamespaceId)
    (token : CapabilityToken) (blobId : BlobId) (past : List PortExchange) :
    (self.restore ns token blobId).Obeys rule past fun _ _ => True :=
  (authorize_obeys permits.guard ns token .get past).bind (fun _ _ _ => trivial)
    fun _ _ _ => self.reconstruct_obeys permits ns blobId _

end GetBackup

/-! ## Put -/

namespace PutBackup

theorem replicate_obeys (sends : ∀ past peer ref bytes, rule past (.sendShard peer ref bytes))
    (self : PutBackup) (ref : ShardRef) (bytes : Bytes) (past : List PortExchange) :
    (self.replicate ref bytes).Obeys rule past fun _ result => ∃ placed, result = .ok placed := by
  have send : ∀ peers past, (sendToPeers ref bytes peers).Obeys rule past
      fun _ result => ∃ placed, result = .ok placed := by
    intro peers
    induction peers with
    | nil => exact fun _ => ⟨[], rfl⟩
    | cons peer peers ih =>
        intro past
        refine Program.Obeys.call_bind ?_ ?_ ?_
        · exact sends _ _ _ _
        · rintro _ _ ⟨⟩
        intro answer outcome _
        refine (ih _).bind (by rintro _ _ ⟨_, ⟨⟩⟩) fun _ placed _ => ?_
        cases outcome with
        | ok _ => exact ⟨_, rfl⟩
        | error _ => exact ⟨_, rfl⟩
  unfold replicate
  split
  · exact ⟨_, rfl⟩
  · split
    · exact ⟨_, rfl⟩
    · exact send _ _

end PutBackup

/-! ## Repair -/

namespace RepairShards

theorem classify_obeys (permits : Permits rule) (self : RepairShards) (ns : NamespaceId)
    (blobId : BlobId) (shards : List Shard) (past : List PortExchange) :
    (self.classify ns blobId shards).Obeys rule past fun _ _ => True := by
  induction shards generalizing past with
  | nil => exact trivial
  | cons shard shards ih =>
      refine permits.ask ?_ (fun _ _ _ => trivial) ?_
      · exact trivial
      intro answer outcome _
      cases outcome with
      | ok bytes =>
          refine (ih _).bind (fun _ _ _ => trivial) fun _ rest _ => ?_
          simp only
          split <;> exact trivial
      | error error =>
          cases error with
          | notFound => exact (ih _).bind (fun _ _ _ => trivial) fun _ _ _ => trivial
          | _ => exact trivial

theorem backfill_obeys (permits : Permits rule) (self : RepairShards) (ns : NamespaceId)
    (blobId : BlobId) (k : ℕ) (bad : List UInt16) (shards : List Shard)
    (collected : List (Option Bytes)) (available : ℕ) (past : List PortExchange) :
    (self.backfill ns blobId k bad shards collected available).Obeys rule past
      fun _ _ => True := by
  induction shards generalizing collected available past with
  | nil => exact trivial
  | cons shard shards ih =>
      rw [backfill]
      split
      · exact trivial
      · split
        · exact ih _ _ _
        · refine (fetchReplica_obeys (fun _ _ => permits _ _ trivial) _ _ _ past).bind
            (fun _ _ _ => trivial) ?_
          intro suffix replica _
          cases replica with
          | none => exact ih _ _ _
          | some bytes =>
              simp only
              split
              · exact ih _ _ _
              · exact trivial

theorem backfillFromPeers_obeys (permits : Permits rule) (self : RepairShards)
    (ns : NamespaceId) (blobId : BlobId) (manifest : Manifest) (collected : List (Option Bytes))
    (bad : List UInt16) (past : List PortExchange) :
    (self.backfillFromPeers ns blobId manifest collected bad).Obeys rule past
      fun _ _ => True := by
  unfold backfillFromPeers
  split
  · exact self.backfill_obeys permits _ _ _ _ _ _ _ _
  · exact trivial

theorem reReplicate_obeys (sends : ∀ past peer ref bytes, rule past (.sendShard peer ref bytes))
    (self : RepairShards) (ref : ShardRef) (bytes : Bytes) (shard : Shard)
    (past : List PortExchange) :
    (self.reReplicate ref bytes shard).Obeys rule past fun _ result => result = .ok () := by
  have send : ∀ locations past, (sendToRecorded ref bytes locations).Obeys rule past
      fun _ result => result = .ok () := by
    intro locations
    induction locations with
    | nil => exact fun _ => rfl
    | cons location locations ih =>
        intro past
        cases location with
        | anchor => exact ih past
        | peer peer =>
            refine Program.Obeys.call_bind ?_ ?_ ?_
            · exact sends _ _ _ _
            · rintro _ _ ⟨⟩
            intro answer outcome _
            exact ih _
  unfold reReplicate
  split
  · exact send _ _
  · exact rfl

end RepairShards

end VaultMesh
