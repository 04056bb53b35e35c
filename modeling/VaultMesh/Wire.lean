import VaultMesh.Coding.Serde
import VaultMesh.Domain

/-!
# Wire types

The domain types as they travel: the JSON which derived serialization writes for
each and reads back.
-/

namespace VaultMesh

open Coding Coding.Serde

/-! ## Identifiers -/

instance : Serde AppId :=
  newtype AppId.mk AppId.value fun _ => rfl

instance : Serde NamespaceId :=
  newtype NamespaceId.mk NamespaceId.value fun _ => rfl

instance : Serde BlobId :=
  newtype BlobId.mk BlobId.value fun _ => rfl

instance : Serde Nonce :=
  newtype Nonce.mk Nonce.value fun _ => rfl

instance : Serde Timestamp :=
  newtype Timestamp.mk Timestamp.millis fun _ => rfl

/-! ## Contracts -/

instance : Serde ProtocolVersion :=
  struct ["major", "minor"]
    (fun version => [toJson version.major, toJson version.minor])
    (fun
      | [major, minor] => do
          some ⟨← required major, ← required minor⟩
      | _ => none)
    (by decide) (fun _ => rfl) (by simp)

instance : Serde Quota :=
  struct ["max_bytes", "max_objects"]
    (fun quota => [toJson quota.maxBytes, toJson quota.maxObjects])
    (fun
      | [maxBytes, maxObjects] => do
          some ⟨← required maxBytes, ← required maxObjects⟩
      | _ => none)
    (by decide) (fun _ => rfl) (by simp)

instance : Serde RetentionPolicy :=
  struct ["keep_versions", "min_days"]
    (fun policy => [toJson policy.keepVersions, toJson policy.minDays])
    (fun
      | [keepVersions, minDays] => do
          some ⟨← required keepVersions, ← required minDays⟩
      | _ => none)
    (by decide) (fun _ => rfl) (by simp)

instance : Serde ErasureParams :=
  struct ["k", "n"]
    (fun params => [toJson params.k, toJson params.n])
    (fun
      | [k, n] => do
          some ⟨← required k, ← required n⟩
      | _ => none)
    (by decide) (fun _ => rfl) (by simp)

instance : Serde EncryptionMode where
  toJson
    | .clientSideOnly => .string "ClientSideOnly"
  fromJson json := do
    let (name, content) ← variant json
    if isUnit content ∧ name = "ClientSideOnly" then some .clientSideOnly else none
  fromJson_toJson mode := by
    cases mode
    rfl

instance : Serde AppContract :=
  struct ["app_id", "protocol_version", "quota", "retention", "erasure", "encryption"]
    (fun contract => [toJson contract.appId, toJson contract.protocolVersion, toJson contract.quota,
      toJson contract.retention, toJson contract.erasure, toJson contract.encryption])
    (fun
      | [appId, protocolVersion, quota, retention, erasure, encryption] => do
          some ⟨← required appId, ← required protocolVersion, ← required quota,
            ← required retention, ← required erasure, ← required encryption⟩
      | _ => none)
    (by decide) (fun _ => rfl) (by simp)

instance : Serde Namespace :=
  struct ["id", "app_id"]
    (fun ns => [toJson ns.id, toJson ns.appId])
    (fun
      | [id, appId] => do
          some ⟨← required id, ← required appId⟩
      | _ => none)
    (by decide) (fun _ => rfl) (by simp)

instance : Serde NamespaceUsage :=
  struct ["bytes", "objects"]
    (fun usage => [toJson usage.bytes, toJson usage.objects])
    (fun
      | [bytes, objects] => do
          some ⟨← required bytes, ← required objects⟩
      | _ => none)
    (by decide) (fun _ => rfl) (by simp)

instance : Solid AppContract where
  toJson_ne_null _ := nofun

instance : Solid Namespace where
  toJson_ne_null _ := nofun

/-! ## Capability tokens -/

/-- The variants of `Operation` as the wire names them. -/
def Operation.variantName : Operation → String
  | .put => "Put"
  | .get => "Get"
  | .list => "List"
  | .delete => "Delete"

instance : Serde Operation where
  toJson operation := .string operation.variantName
  fromJson json := do
    let (name, content) ← variant json
    if isUnit content then
      [Operation.put, .get, .list, .delete].find? fun operation => operation.variantName = name
    else
      none
  fromJson_toJson operation := by
    cases operation <;> rfl

instance : Serde CapabilityClaims :=
  struct ["app_id", "namespace", "operation", "nonce", "expires_at"]
    (fun claims => [toJson claims.appId, toJson claims.ns, toJson claims.operation,
      toJson claims.nonce, toJson claims.expiresAt])
    (fun
      | [appId, ns, operation, nonce, expiresAt] => do
          some ⟨← required appId, ← required ns, ← required operation, ← required nonce,
            ← required expiresAt⟩
      | _ => none)
    (by decide) (fun _ => rfl) (by simp)

instance : Serde CapabilityToken :=
  struct ["claims", "signature"]
    (fun token => [toJson token.claims, toJson token.signature])
    (fun
      | [claims, signature] => do
          some ⟨← required claims, ← required signature⟩
      | _ => none)
    (by decide) (fun _ => rfl) (by simp)

/-! ## Backups -/

instance : Serde ShardLocation where
  toJson
    | .anchor => .string "Anchor"
    | .peer address => .object [("Peer", toJson address)]
  fromJson json := do
    let (name, content) ← variant json
    if name = "Anchor" then
      if isUnit content then some .anchor else none
    else if name = "Peer" then do
      let address ← required content
      some (.peer address)
    else
      none
  fromJson_toJson location := by
    cases location <;> rfl

instance : Serde Shard :=
  struct ["index", "sha256", "size", "locations"]
    (fun shard => [toJson shard.index, toJson shard.sha256, toJson shard.size,
      toJson shard.locations])
    (fun
      | [index, sha256, size, locations] => do
          some ⟨← required index, ← required sha256, ← required size, ← required locations⟩
      | _ => none)
    (by decide) (fun _ => rfl) (by simp)

instance : Serde Manifest :=
  struct ["blob_id", "namespace", "erasure", "shards", "ciphertext_len", "created_at",
      "name_enc", "object_id"]
    (fun manifest => [toJson manifest.blobId, toJson manifest.ns, toJson manifest.erasure,
      toJson manifest.shards, toJson manifest.ciphertextLen, toJson manifest.createdAt,
      toJson manifest.nameEnc, toJson manifest.objectId])
    (fun
      | [blobId, ns, erasure, shards, ciphertextLen, createdAt, nameEnc, objectId] => do
          some ⟨← required blobId, ← required ns, ← required erasure, ← required shards,
            ← required ciphertextLen, ← required createdAt, ← defaulted nameEnc,
            ← defaulted objectId⟩
      | _ => none)
    (by decide) (fun _ => rfl) (by simp)

instance : Solid Manifest where
  toJson_ne_null _ := nofun

end VaultMesh
