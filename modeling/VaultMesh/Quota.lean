import Mathlib.Algebra.Order.BigOperators.Group.List
import VaultMesh.Ledger

/-!
# Quota

A put reads the usage of its namespace, compares it with the quota, writes its
shards and only then its manifest. Between the reading and the writing another
put may read the same usage, and both are admitted. `Pending` is this window.
While no put reads the usage of a namespace in the window of another put, the
usage stays below what the pending put has read, and the quota is kept.

The usage counters are 64 bits wide and wrap around, so the invariant is about
the true sum, which the quota bounds unless it is the largest number.
-/

namespace VaultMesh

open Interaction Coding

/-! ## Usage -/

namespace MemoryMetadataStore

def lengthsIn (store : MemoryMetadataStore) (ns : NamespaceId) : List ℕ :=
  (store.manifests.entries.filter fun entry => decide (entry.1.1 = ns)).map
    fun entry => entry.2.ciphertextLen.toNat

theorem toNat_foldl_countUsage (ns : NamespaceId)
    (entries : List (Σ _ : NamespaceId × BlobId, Manifest)) (usage : NamespaceUsage) :
    (entries.foldl (countUsage ns) usage).bytes.toNat =
        (usage.bytes.toNat + ((entries.filter fun entry => decide (entry.1.1 = ns)).map
          fun entry => entry.2.ciphertextLen.toNat).sum) % 2 ^ 64 ∧
      (entries.foldl (countUsage ns) usage).objects.toNat =
        (usage.objects.toNat +
          (entries.filter fun entry => decide (entry.1.1 = ns)).length) % 2 ^ 64 := by
  induction entries generalizing usage with
  | nil =>
      have bytes := usage.bytes.toNat_lt
      have objects := usage.objects.toNat_lt
      simp only [List.foldl_nil, List.filter_nil, List.map_nil, List.sum_nil, List.length_nil]
      omega
  | cons entry entries ih =>
      rw [List.foldl_cons]
      rcases ih (countUsage ns usage entry) with ⟨sameBytes, sameObjects⟩
      rw [sameBytes, sameObjects]
      by_cases inside : entry.1.1 = ns
      · simp only [countUsage, inside, if_true, decide_true, List.filter_cons_of_pos,
          List.map_cons, List.sum_cons, List.length_cons, UInt64.toNat_add, UInt64.toNat_one]
        omega
      · simp [countUsage, inside]

/-- The counters are the true sum and the true number, modulo their width. -/
theorem toNat_namespaceUsage (store : MemoryMetadataStore) (ns : NamespaceId) :
    (store.namespaceUsage ns).bytes.toNat = (store.lengthsIn ns).sum % 2 ^ 64 ∧
      (store.namespaceUsage ns).objects.toNat = (store.lengthsIn ns).length % 2 ^ 64 := by
  have counted := toNat_foldl_countUsage ns store.manifests.entries ⟨0, 0⟩
  simpa [namespaceUsage, lengthsIn] using counted

/-- A new manifest adds its length; the one it replaces, if any, is gone. -/
theorem lengthsIn_putManifest_self (store : MemoryMetadataStore) (manifest : Manifest) :
    ∃ kept, (store.putManifest manifest).lengthsIn manifest.ns =
        manifest.ciphertextLen.toNat :: kept ∧
      kept.Sublist (store.lengthsIn manifest.ns) := by
  refine ⟨_, ?_, ((List.kerase_sublist (manifest.ns, manifest.blobId) _).filter _).map _⟩
  simp [lengthsIn, putManifest]

/-- Every other call adds nothing. -/
theorem lengthsIn_after_sublist {call : PortCall} {ns : NamespaceId}
    (other : ∀ manifest, call = .putManifest manifest → manifest.ns ≠ ns)
    (store : MemoryMetadataStore) :
    ((store.after call).lengthsIn ns).Sublist (store.lengthsIn ns) := by
  cases call with
  | putManifest manifest =>
      have outside := other manifest rfl
      simp only [lengthsIn, after, putManifest, AList.entries_insert, outside, decide_false,
        Bool.false_eq_true, not_false_eq_true, List.filter_cons_of_neg]
      exact ((List.kerase_sublist _ _).filter _).map _
  | deleteManifest ns' blobId => exact ((List.kerase_sublist _ _).filter _).map _
  | _ => exact List.Sublist.refl _

end MemoryMetadataStore

/-- Ciphertexts of these lengths fit the quota; the largest byte quota is no limit. -/
structure Quota.Covers (quota : Quota) (lengths : List ℕ) : Prop where
  bytes : quota.maxBytes.toNat = 2 ^ 64 - 1 ∨ lengths.sum ≤ quota.maxBytes.toNat
  objects : lengths.length ≤ quota.maxObjects.toNat

/-- The counters read are not below the true usage, as far as the quota limits it. -/
structure NamespaceUsage.Bounds (quota : Quota) (usage : NamespaceUsage) (lengths : List ℕ) :
    Prop where
  bytes : quota.maxBytes.toNat = 2 ^ 64 - 1 ∨ lengths.sum ≤ usage.bytes.toNat
  objects : lengths.length ≤ usage.objects.toNat

theorem NamespaceUsage.Bounds.sublist {quota : Quota} {usage : NamespaceUsage}
    {lengths kept : List ℕ} (bounds : usage.Bounds quota lengths) (fewer : kept.Sublist lengths) :
    usage.Bounds quota kept := by
  refine ⟨?_, fewer.length_le.trans bounds.objects⟩
  rcases bounds.bytes with unlimited | enough
  · exact Or.inl unlimited
  · exact Or.inr ((fewer.sum_le_sum fun _ _ => Nat.zero_le _).trans enough)

namespace Quota.Covers

variable {quota : Quota} {lengths kept : List ℕ}

theorem sublist (covers : quota.Covers lengths) (fewer : kept.Sublist lengths) :
    quota.Covers kept := by
  refine ⟨?_, fewer.length_le.trans covers.objects⟩
  rcases covers.bytes with unlimited | enough
  · exact Or.inl unlimited
  · exact Or.inr ((fewer.sum_le_sum fun _ _ => Nat.zero_le _).trans enough)

theorem read {store : MemoryMetadataStore} {ns : NamespaceId}
    (covers : quota.Covers (store.lengthsIn ns)) :
    (store.namespaceUsage ns).Bounds quota (store.lengthsIn ns) := by
  rcases store.toNat_namespaceUsage ns with ⟨bytes, objects⟩
  have maxBytes := quota.maxBytes.toNat_lt
  have maxObjects := quota.maxObjects.toNat_lt
  have fewObjects := covers.objects
  constructor
  · rw [bytes]
    rcases covers.bytes with unlimited | enough <;> omega
  · rw [objects]
    omega

theorem within {store : MemoryMetadataStore} {ns : NamespaceId}
    (covers : quota.Covers (store.lengthsIn ns)) :
    (store.namespaceUsage ns).bytes ≤ quota.maxBytes ∧
      (store.namespaceUsage ns).objects ≤ quota.maxObjects := by
  rcases store.toNat_namespaceUsage ns with ⟨bytes, objects⟩
  rw [UInt64.le_iff_toNat_le, UInt64.le_iff_toNat_le, bytes, objects]
  have fewObjects := covers.objects
  rcases covers.bytes with unlimited | enough <;> omega

theorem admitted {usage : NamespaceUsage} {size : UInt64}
    (admits : quota.admits usage.bytes usage.objects size = true)
    (bounds : usage.Bounds quota lengths) : quota.Covers (size.toNat :: lengths) := by
  simp only [Quota.admits, Bool.and_eq_true, decide_eq_true_eq, UInt64.le_iff_toNat_le,
    UInt64.lt_iff_toNat_lt, toNat_saturatingAdd] at admits
  have maxBytes := quota.maxBytes.toNat_lt
  constructor
  · rw [List.sum_cons]
    rcases bounds.bytes with unlimited | enough <;> omega
  · rw [List.length_cons]
    have fewObjects := bounds.objects
    omega

end Quota.Covers

/-! ## The window of a put -/

abbrev Requests (A : Type) := System ports Failure (World A)

/-- A put has read the usage of the namespace and neither written its manifest nor ended. -/
structure Pending {A : Type} (requests : List Request) (ns : NamespaceId) (system : Requests A)
    (index : ℕ) : Prop where
  isPut : ∃ mesh token ciphertext, requests[index]? = some (.put mesh ns token ciphertext)
  read : ∃ usage, (index, ⟨.namespaceUsage ns, usage⟩) ∈ system.trace
  unwritten : ∀ manifest answer, (index, ⟨.putManifest manifest, answer⟩) ∉ system.trace
  running : ∃ call rest, system.programs[index]? = some (.call call rest)

/-- A step which reads the usage of the namespace is taken in no other put's window. -/
def Exclusive {A : Type} (requests : List Request) (ns : NamespaceId) (system : Requests A)
    (index : ℕ) : Prop :=
  ∀ rest, system.programs[index]? = some (.call (.namespaceUsage ns) rest) →
    ∀ other, other ≠ index → ¬Pending requests ns system other

section Window

variable {A : Type} {env : Environment} {anchors : AnchorModel A} {node : Node}
  {requests : List Request} {ns : NamespaceId} {system : Requests A} {index : ℕ} {call : PortCall}
  {rest : call.Answer → UseCase Unit}

/-- Only reading the usage opens a window. -/
theorem Pending.of_afterCall {other : ℕ}
    (found : system.programs[index]? = some (.call call rest))
    (pending : Pending requests ns (system.afterCall (world env anchors) index call rest) other) :
    Pending requests ns system other ∨ other = index ∧ call = .namespaceUsage ns := by
  rcases pending with ⟨isPut, ⟨usage, read⟩, unwritten, running⟩
  rcases mem_trace_append read with before | ⟨rfl, rfl, -⟩
  · left
    refine ⟨isPut, ⟨usage, before⟩, ?_, ?_⟩
    · intro manifest answer written
      exact unwritten manifest answer (List.mem_append_left _ written)
    · by_cases same : index = other
      · subst same
        exact ⟨call, rest, found⟩
      · simp only [System.afterCall, List.getElem?_set_ne same] at running
        exact running
  · exact Or.inr ⟨rfl, rfl⟩

theorem not_pending_afterCall {manifest : Manifest}
    {rest : (PortCall.putManifest manifest).Answer → UseCase Unit} :
    ¬Pending requests ns
      (system.afterCall (world env anchors) index (.putManifest manifest) rest) index := by
  intro pending
  exact pending.unwritten manifest _ (List.mem_append_right _ List.mem_cons_self)

theorem pending_of_putManifest {manifest : Manifest}
    {rest : (PortCall.putManifest manifest).Answer → UseCase Unit}
    {mesh : Mesh} {token : CapabilityToken} {ciphertext : Slice}
    (found : system.programs[index]? = some (.call (.putManifest manifest) rest))
    (listed : requests[index]? = some (.put mesh ns token ciphertext))
    (permitted : (node.put mesh).rule ns token ciphertext (pastOf index system.trace)
      (.putManifest manifest)) :
    Pending requests ns system index := by
  rcases permitted with ⟨admitted, once⟩
  rcases admitted.checked with ⟨contract, usage, -, read, -, -⟩
  refine ⟨⟨mesh, token, ciphertext, listed⟩, ⟨_, mem_pastOf.mp read⟩, ?_, ⟨_, _, found⟩⟩
  intro other answer written
  exact once _ (mem_pastOf.mpr written) other rfl

/-- The quota is kept, and so is what the pending put relies on. -/
structure QuotaKept (quota : Quota) (requests : List Request) (ns : NamespaceId)
    (system : Requests A) : Prop where
  covers : quota.Covers (system.state.store.lengthsIn ns)
  alone : ∀ one other, Pending requests ns system one → Pending requests ns system other →
    one = other
  bounded : ∀ index usage, Pending requests ns system index →
    (index, ⟨.namespaceUsage ns, .ok usage⟩) ∈ system.trace →
    usage.Bounds quota (system.state.store.lengthsIn ns)

variable {first : World A} {owned : Namespace} {contract : AppContract}

/-- A put's manifest fits the quota which the owner's contract grants. -/
theorem QuotaKept.put {manifest : Manifest}
    {rest : (PortCall.putManifest manifest).Answer → UseCase Unit}
    {mesh : Mesh} {token : CapabilityToken} {ciphertext : Slice}
    (kept : QuotaKept contract.quota requests ns system)
    (standing : Standing first system.state system.trace)
    (owner : first.store.getNamespace ns = some owned)
    (terms : first.store.getContract owned.appId = some contract)
    (found : system.programs[index]? = some (.call (.putManifest manifest) rest))
    (listed : requests[index]? = some (.put mesh ns token ciphertext))
    (permitted : (node.put mesh).rule ns token ciphertext (pastOf index system.trace)
      (.putManifest manifest)) :
    contract.quota.Covers ((system.state.store.putManifest manifest).lengthsIn ns) := by
  have pending := pending_of_putManifest found listed permitted
  rcases permitted with ⟨admitted, -⟩
  rcases admitted.checked with ⟨known, usage, knownRead, usageRead, admits, -⟩
  rcases admitted.owned with ⟨holder, holderRead, owns⟩
  have sameContract : known = contract := by
    have sameHolder := standing.owners index ns holder (mem_pastOf.mp holderRead)
    rcases Option.some.inj (sameHolder.symm.trans owner) with rfl
    have sameApp : holder.appId = token.claims.appId := by simpa [Namespace.ownedBy] using owns
    have sameTerms := standing.terms index _ known (mem_pastOf.mp knownRead)
    rw [← sameApp] at sameTerms
    exact Option.some.inj (sameTerms.symm.trans terms)
  subst sameContract
  rcases system.state.store.lengthsIn_putManifest_self manifest with ⟨others, grown, fewer⟩
  rw [admitted.inside] at grown fewer
  rw [grown, admitted.size]
  exact Quota.Covers.admitted admits
    ((kept.bounded index usage pending (mem_pastOf.mp usageRead)).sublist fewer)

theorem Request.put_of_rules (noNaming : ∀ ns blobId naming, .setName ns blobId naming ∉ requests)
    {past : List PortExchange} {manifest : Manifest}
    (permitted : Request.rules node requests index past (.putManifest manifest)) :
    ∃ mesh token ciphertext, requests[index]? = some (.put mesh manifest.ns token ciphertext) ∧
      (node.put mesh).rule manifest.ns token ciphertext past (.putManifest manifest) := by
  rcases permitted with ⟨request, listed, rule⟩
  cases request with
  | put mesh ns token ciphertext =>
      rcases rule.1.inside with rfl
      exact ⟨mesh, token, ciphertext, listed, rule⟩
  | setName ns blobId naming =>
      exact absurd (List.mem_of_getElem? listed) (noNaming ns blobId naming)
  | _ => exact rule.elim

theorem Pending.not_reading (pending : Pending requests ns system index)
    (permitted : Request.rules node requests index (pastOf index system.trace)
      (.namespaceUsage ns)) : False := by
  rcases pending.isPut with ⟨mesh, token, ciphertext, isPut⟩
  rcases permitted with ⟨request, listed, rule⟩
  rcases Option.some.inj (listed.symm.trans isPut) with rfl
  rcases pending.read with ⟨usage, read⟩
  exact rule.2 _ (mem_pastOf.mpr read) ns rfl

theorem QuotaKept.step (kept : QuotaKept contract.quota requests ns system)
    (standing : Standing first system.state system.trace)
    (owner : first.store.getNamespace ns = some owned)
    (terms : first.store.getContract owned.appId = some contract)
    (noNaming : ∀ ns blobId naming, .setName ns blobId naming ∉ requests)
    (found : system.programs[index]? = some (.call call rest))
    (permitted : Request.rules node requests index (pastOf index system.trace) call)
    (exclusive : Exclusive requests ns system index) :
    QuotaKept contract.quota requests ns
      (system.afterCall (world env anchors) index call rest) := by
  by_cases writes : ∃ manifest, call = .putManifest manifest ∧ manifest.ns = ns
  · rcases writes with ⟨manifest, rfl, rfl⟩
    rcases Request.put_of_rules noNaming permitted with ⟨mesh, token, ciphertext, listed, rule⟩
    have mine := pending_of_putManifest found listed rule
    -- The writing put was the only one in its window, and it leaves it.
    have nobody : ∀ other, ¬Pending requests manifest.ns
        (system.afterCall (world env anchors) index (.putManifest manifest) rest) other := by
      intro other pending
      rcases pending.of_afterCall found with before | ⟨-, impossible⟩
      · rcases kept.alone other index before mine with rfl
        exact not_pending_afterCall pending
      · cases impossible
    refine ⟨kept.put standing owner terms found listed rule, ?_, ?_⟩
    · intro one other pending
      exact absurd pending (nobody one)
    · intro other usage pending
      exact absurd pending (nobody other)
  · have fewer : ((system.state.store.after call).lengthsIn ns).Sublist
        (system.state.store.lengthsIn ns) := by
      apply MemoryMetadataStore.lengthsIn_after_sublist
      intro manifest isPut inside
      exact writes ⟨manifest, isPut, inside⟩
    refine ⟨kept.covers.sublist fewer, ?_, ?_⟩
    · intro one other onePending otherPending
      rcases onePending.of_afterCall found with oneBefore | ⟨rfl, rfl⟩
      · rcases otherPending.of_afterCall found with otherBefore | ⟨rfl, rfl⟩
        · exact kept.alone one other oneBefore otherBefore
        · by_contra different
          exact exclusive rest found one different oneBefore
      · rcases otherPending.of_afterCall found with otherBefore | ⟨rfl, -⟩
        · by_contra different
          exact exclusive rest found other (Ne.symm different) otherBefore
        · rfl
    · intro other usage pending read
      rcases mem_trace_append read with readBefore | ⟨rfl, rfl, answered⟩
      · rcases pending.of_afterCall found with before | ⟨rfl, rfl⟩
        · exact (kept.bounded other usage before readBefore).sublist fewer
        · exact (Pending.not_reading ⟨pending.isPut, ⟨_, readBefore⟩, fun manifest answer written =>
            pending.unwritten manifest answer (List.mem_append_left _ written), ⟨_, _, found⟩⟩
            permitted).elim
      · rcases Except.ok.inj answered with rfl
        exact kept.covers.read.sublist fewer

/--
From any state within the quota, in every interleaving of puts, gets, repairs,
prunes and deletes in which no put reads the usage of the namespace while another
put is between its reading and its writing, the usage is within the quota of the
owner's contract at every moment.
-/
theorem quota_is_kept (env : Environment) (anchors : AnchorModel A) (node : Node)
    (owner : first.store.getNamespace ns = some owned)
    (terms : first.store.getContract owned.appId = some contract)
    (covers : contract.quota.Covers (first.store.lengthsIn ns))
    (noNaming : ∀ ns blobId naming, .setName ns blobId naming ∉ requests) {schedule : List ℕ}
    (exclusive : System.Along (world env anchors) (Exclusive requests ns)
      (System.start first (requests.map (Request.program node))) schedule) :
    let usage := (System.exec (world env anchors)
      (System.start first (requests.map (Request.program node)))
        schedule).state.store.namespaceUsage ns
    usage.bytes ≤ contract.quota.maxBytes ∧ usage.objects ≤ contract.quota.maxObjects := by
  have start : QuotaKept contract.quota requests ns
      (System.start first (requests.map (Request.program node))) := by
    refine ⟨covers, ?_, ?_⟩
    · rintro one other ⟨-, ⟨usage, read⟩, -, -⟩
      cases read
    · rintro index usage - read
      cases read
  have always := System.exec_invariant_along
    (fun system => System.Obedient (Request.rules node requests) system ∧
      Standing first system.state system.trace ∧
      QuotaKept contract.quota requests ns system) exclusive
    ⟨Request.obedient_start node requests first, standing_start first, start⟩
    (by
      rintro system index ⟨obedient, standing, kept⟩ exclusive
      rcases System.step_cases (world env anchors) system index with
        same | ⟨call, rest, found, called⟩
      · rw [same]
        exact ⟨obedient, standing, kept⟩
      · rw [called]
        have permitted := obedient.permitted found
        exact ⟨obedient.afterCall found, standing.step permitted,
          kept.step standing owner terms noNaming found permitted exclusive⟩)
  exact always.2.2.covers.within

theorem exclusive_of_other (found : system.programs[index]? = some (.call call rest))
    (other : call ≠ .namespaceUsage ns) : Exclusive requests ns system index := by
  intro later reads
  rw [found] at reads
  cases reads
  exact absurd rfl other

end Window

def rivalPuts : List Request :=
  [samplePut 7, samplePut 9]

def rivalStart (quota : Quota) : World ShardMap :=
  ⟨sampleStore quota ⟨0, 0⟩, fun _ => none, [], 0⟩

def rivalRun (quota : Quota) (schedule : List ℕ) : Requests ShardMap :=
  System.exec (world sampleEnvironment shardMap)
    (System.start (rivalStart quota) (rivalPuts.map (Request.program replicatingNode))) schedule

theorem quota_is_kept_inTurn :
    let final := rivalRun ⟨2, 2⟩ (List.replicate 10 0 ++ List.replicate 10 1)
    (final.state.store.namespaceUsage ⟨"ns-1"⟩).bytes ≤ 2 ∧
      (final.state.store.namespaceUsage ⟨"ns-1"⟩).objects ≤ 2 := by
  have owner : (rivalStart ⟨2, 2⟩).store.getNamespace ⟨"ns-1"⟩ = some ⟨⟨"ns-1"⟩, ⟨"app-1"⟩⟩ := rfl
  have terms : (rivalStart ⟨2, 2⟩).store.getContract ⟨"app-1"⟩ =
      some (AppContract.new ⟨"app-1"⟩ ⟨2, 2⟩ ⟨0, 0⟩ ⟨1, 2⟩) := rfl
  have unnamed : ∀ ns blobId naming, .setName ns blobId naming ∉ rivalPuts := by
    simp [rivalPuts, samplePut]
  apply quota_is_kept sampleEnvironment shardMap replicatingNode owner terms
    ⟨Or.inr (by decide), by decide⟩ unnamed
  iterate 4 refine ⟨exclusive_of_other rfl (by decide), ?_⟩
  refine ⟨?_, ?_⟩
  · rintro rest - other different ⟨-, ⟨usage, read⟩, -, -⟩
    have started : other ∈ [0, 0, 0, 0] := List.mem_map_of_mem (f := Prod.fst) read
    simp [different] at started
  iterate 9 refine ⟨exclusive_of_other rfl (by decide), ?_⟩
  refine ⟨?_, ?_⟩
  · rintro rest - other different ⟨⟨mesh, token, ciphertext, listed⟩, -, unwritten, -⟩
    rcases List.getElem?_eq_some_iff.mp listed with ⟨bound, -⟩
    have isFirst : other = 0 := by
      simp only [rivalPuts, List.length_cons, List.length_nil] at bound
      omega
    subst isFirst
    exact unwritten (sampleManifest [.anchor]) (.ok ()) (List.mem_of_getElem? (i := 9) rfl)
  iterate 5 refine ⟨exclusive_of_other rfl (by decide), ?_⟩
  exact trivial

/-- Both puts read the usage before either writes its manifest. -/
theorem quota_exceeded_by_rivals :
    let final := rivalRun ⟨1, 1⟩
      (List.replicate 5 0 ++ List.replicate 5 1 ++ List.replicate 5 0 ++ List.replicate 5 1)
    (sampleStore ⟨1, 1⟩ ⟨0, 0⟩).getContract ⟨"app-1"⟩ =
        some (AppContract.new ⟨"app-1"⟩ ⟨1, 1⟩ ⟨0, 0⟩ ⟨1, 2⟩) ∧
      ¬((final.state.store.namespaceUsage ⟨"ns-1"⟩).bytes ≤ 1 ∧
        (final.state.store.namespaceUsage ⟨"ns-1"⟩).objects ≤ 1) := by
  intro final
  have usage : final.state.store.namespaceUsage ⟨"ns-1"⟩ = ⟨2, 2⟩ := by
    decide +kernel
  refine ⟨rfl, ?_⟩
  rw [usage]
  decide

end VaultMesh
