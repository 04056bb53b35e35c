import VaultMesh.Coding.Erasures
import VaultMesh.Coding.Lines
import VaultMesh.Coding.Texts
import VaultMesh.Coding.HashChains
import VaultMesh.Coding.Base64
import VaultMesh.Coding.Json
import VaultMesh.Coding.Serde
import VaultMesh.Coding.Urls
import VaultMesh.Coding.Decoding
import VaultMesh.Coding.Frames
import VaultMesh.Interaction.Interleaving
import VaultMesh.Domain
import VaultMesh.ReedSolomon
import VaultMesh.UseCases
import VaultMesh.World
import VaultMesh.Restore
import VaultMesh.MeshReads
import VaultMesh.Requests
import VaultMesh.Integrity
import VaultMesh.Durability
import VaultMesh.Authority
import VaultMesh.Ledger
import VaultMesh.Retention
import VaultMesh.Removal
import VaultMesh.Quota
import VaultMesh.Pruning
import VaultMesh.Confinement
import VaultMesh.PeerTraffic
import VaultMesh.Degradation
import VaultMesh.Serializability
import VaultMesh.Onboarding
import VaultMesh.ShardProtocol
import VaultMesh.IntrusionLedger
import VaultMesh.DataPlane
import VaultMesh.Router
import VaultMesh.RemoteRefinement
import VaultMesh.SignedText
import VaultMesh.ShardAddresses
import VaultMesh.Replays
import VaultMesh.FailedPuts
import VaultMesh.Retries
import VaultMesh.Survivors
import VaultMesh.RepairPass
import VaultMesh.Escalation
import VaultMesh.Passthrough
import VaultMesh.Billing
import VaultMesh.Envelope
import VaultMesh.PaddedNames
import VaultMesh.RepairBounds
import VaultMesh.Files.Replacement
import VaultMesh.ShardFiles
import VaultMesh.FsRefinement
import VaultMesh.RustFs
import VaultMesh.Healing
import VaultMesh.RemoteNode
import VaultMesh.Tenants
import VaultMesh.PresignedGrants
