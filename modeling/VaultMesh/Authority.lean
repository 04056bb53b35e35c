import VaultMesh.Coding.Lines
import VaultMesh.Requests

/-!
# Authority

Tokens are signed over a text with one tagged field per line. The coordinator
only ever signs claims whose fields are fresh ids, which contain no line break,
and such a text determines its claims even among claims with arbitrary fields.
With an ideal signature scheme a token which passes the guard therefore carries
the claims of a token which was issued, and the checks of the guard and of the
issuer add up to the scope and the lifetime promised.
-/

namespace VaultMesh

open Interaction Coding

/-! ## What is signed -/

def CapabilityClaims.lines (claims : CapabilityClaims) : List (List Char) :=
  ["vaultmesh.cap.v1".toList, "app=".toList ++ claims.appId.value.toList,
    "ns=".toList ++ claims.ns.value.toList, "op=".toList ++ claims.operation.asStr.toList,
    "nonce=".toList ++ claims.nonce.value.toList,
    "exp=".toList ++ (toString claims.expiresAt.millis.toNat).toList]

theorem CapabilityClaims.toList_canonicalText (claims : CapabilityClaims) :
    claims.canonicalText.toList = unlines '\n' claims.lines := by
  have header : "vaultmesh.cap.v1\napp=".toList =
      "vaultmesh.cap.v1".toList ++ '\n' :: "app=".toList := by decide
  have ns : "\nns=".toList = '\n' :: "ns=".toList := by decide
  have op : "\nop=".toList = '\n' :: "op=".toList := by decide
  have nonce : "\nnonce=".toList = '\n' :: "nonce=".toList := by decide
  have exp : "\nexp=".toList = '\n' :: "exp=".toList := by decide
  have final : "\n".toList = ['\n'] := by decide
  unfold canonicalText lines
  generalize toString claims.expiresAt.millis.toNat = expiry
  simp only [String.toList_append, header, ns, op, nonce, exp, final, unlines, List.append_assoc,
    List.cons_append]

def Unbroken (text : String) : Prop :=
  '\n' ∉ text.toList

theorem unbroken_toString (number : ℕ) : Unbroken (toString number) := by
  intro broken
  rw [Nat.toString_eq_ofList_toDigits, String.toList_ofList] at broken
  have digit := Nat.isDigit_of_mem_toDigits (by decide) (by decide) broken
  simp at digit

/-- The claims which a coordinator signs. -/
structure CapabilityClaims.Plain (claims : CapabilityClaims) : Prop where
  appId : Unbroken claims.appId.value
  ns : Unbroken claims.ns.value
  nonce : Unbroken claims.nonce.value

theorem Operation.asStr_injective : Function.Injective Operation.asStr := by
  intro left right same
  cases left <;> cases right <;> first | rfl | exact absurd same (by decide)

theorem CapabilityClaims.Plain.eq_of_canonicalBytes {claims presented : CapabilityClaims}
    (plain : claims.Plain) (same : claims.canonicalBytes = presented.canonicalBytes) :
    claims = presented := by
  have texts : unlines '\n' claims.lines = unlines '\n' presented.lines := by
    rw [← toList_canonicalText, ← toList_canonicalText]
    exact congrArg String.toList (String.toByteArray_inj.mp same)
  have free : '\n' ∉ claims.lines.flatten := by
    have operation : '\n' ∉ claims.operation.asStr.toList := by
      cases claims.operation <;> decide
    have appId := plain.appId
    have ns := plain.ns
    have nonce := plain.nonce
    have expiry := unbroken_toString claims.expiresAt.millis.toNat
    unfold lines
    generalize toString claims.expiresAt.millis.toNat = digits at expiry ⊢
    simp only [Unbroken] at appId ns nonce expiry
    simp [appId, ns, nonce, expiry, operation]
  have sameLength : claims.lines.length = presented.lines.length := rfl
  have sameLines := unlines_injective_of_free free sameLength texts
  unfold lines at sameLines
  simp only [List.cons.injEq, List.append_cancel_left_eq, String.toList_inj, true_and, and_true]
    at sameLines
  rcases sameLines with ⟨sameApp, sameNs, sameOperation, sameNonce, sameExpiry⟩
  have sameMillis := UInt64.toNat_inj.mp (injective_toString sameExpiry)
  have sameKind := Operation.asStr_injective sameOperation
  rcases claims with ⟨⟨app⟩, ⟨ns⟩, operation, ⟨nonce⟩, ⟨millis⟩⟩
  rcases presented with ⟨⟨app'⟩, ⟨ns'⟩, operation', ⟨nonce'⟩, ⟨millis'⟩⟩
  simp only at sameApp sameNs sameKind sameNonce sameMillis
  subst sameApp sameNs sameKind sameNonce sameMillis
  rfl

/-! ## The control plane -/

/-- One step of a run: a control-plane request, or any request to the data plane. -/
inductive Action where
  | registerApp (quota : Quota) (retention : RetentionPolicy) (erasure : ErasureParams)
  | createNamespace (app : AppId)
  | issueCapability (app : AppId) (ns : NamespaceId) (operation : Operation) (ttlSecs : UInt64)
  | data (request : Request)

/-- An execution of `IssueCapability` which returned a token, with its exchanges. -/
structure Issuance where
  app : AppId
  ns : NamespaceId
  operation : Operation
  ttlSecs : UInt64
  transcript : List PortExchange
  token : CapabilityToken

section Run

variable {A : Type} (node : Node) (env : Environment) (anchors : AnchorModel A)

def Action.perform : Action → World A → List Issuance × World A
  | .registerApp quota retention erasure, state =>
      ([], ((RegisterApp.execute quota retention erasure).run (world env anchors) state).2)
  | .createNamespace app, state =>
      ([], ((CreateNamespace.execute app).run (world env anchors) state).2)
  | .issueCapability app ns operation ttlSecs, state =>
      let execution := IssueCapability.execute app ns operation ttlSecs
      match execution.run (world env anchors) state with
      | (.ok token, last) => ([⟨app, ns, operation, ttlSecs,
          execution.transcript (world env anchors) state, token⟩], last)
      | (.error _, last) => ([], last)
  | .data request, state => ([], ((request.serve node).run (world env anchors) state).2)

/-- Perform actions one after another: the tokens issued, in order, and the last state. -/
def Action.performAll : List Action → World A → List Issuance × World A
  | [], state => ([], state)
  | action :: actions, state =>
      let (issued, state') := action.perform node env anchors state
      let (later, last) := performAll actions state'
      (issued ++ later, last)

end Run

/-- What an issued token promises: it was signed as it is, and lives for 15 minutes at most. -/
structure Issuance.Proper (issuance : Issuance) : Prop where
  plain : issuance.token.claims.Plain
  lifetime : ∃ time, ⟨.now, time⟩ ∈ issuance.transcript ∧
    issuance.token.claims.expiresAt.millis.toNat ≤ time.millis.toNat + 900 * 1000

/-- Every name in the store is a fresh id, and every signature stems from an issuance. -/
structure Chartered {A : Type} (issued : List Issuance) (state : World A) : Prop where
  apps : ∀ app contract, state.store.getContract app = some contract → Unbroken app.value
  namespaces : ∀ id ns, state.store.getNamespace id = some ns →
    Unbroken id.value ∧ Unbroken ns.appId.value
  signed : ∀ message ∈ state.signed, ∃ issuance ∈ issued,
    issuance.token.claims.canonicalBytes = message ∧ issuance.Proper

section Steps

variable {A : Type} {env : Environment} {anchors : AnchorModel A} {issued : List Issuance}
  {state : World A}

theorem unbroken_freshId (unbroken : ∀ tick, Unbroken (env.uuid tick)) (tick : ℕ) {kind : String}
    (plain : Unbroken kind) : Unbroken (env.freshId tick kind) := by
  have rest := unbroken tick
  simp only [Unbroken, Environment.freshId, String.toList_append, List.mem_append, not_or]
    at plain rest ⊢
  exact ⟨⟨plain, by decide⟩, rest⟩

theorem Chartered.registerApp (unbroken : ∀ tick, Unbroken (env.uuid tick)) (quota : Quota)
    (retention : RetentionPolicy) (erasure : ErasureParams) (chartered : Chartered issued state) :
    Chartered issued
      ((RegisterApp.execute quota retention erasure).run (world env anchors) state).2 := by
  refine ⟨?_, chartered.namespaces, chartered.signed⟩
  intro app contract known
  let fresh : AppId := ⟨env.freshId state.tick "app"⟩
  by_cases same : app = fresh
  · subst same
    exact unbroken_freshId unbroken state.tick (by unfold Unbroken; decide)
  · have before : (state.store.registerApp
        (AppContract.new fresh quota retention erasure)).getContract app = some contract := known
    rw [MemoryMetadataStore.getContract_registerApp_of_ne _ same] at before
    exact chartered.apps app contract before

theorem Chartered.createNamespace (unbroken : ∀ tick, Unbroken (env.uuid tick)) (app : AppId)
    (chartered : Chartered issued state) :
    Chartered issued ((CreateNamespace.execute app).run (world env anchors) state).2 := by
  cases known : state.store.getContract app with
  | none =>
      have ended : (CreateNamespace.execute app).run (world env anchors) state =
          (.error (.port .notFound), state.after anchors (.getContract app)) := by
        simp only [CreateNamespace.execute, VaultMesh.getContract, Program.call_bind,
          Program.run_call, world_answer_fst, world_answer_snd, World.reply, known, question_ok,
          Program.done_ok_bind]
        rfl
      rw [ended]
      exact ⟨chartered.apps, chartered.namespaces, chartered.signed⟩
  | some contract =>
      let fresh : Namespace := ⟨⟨env.freshId (state.tick + 1) "ns"⟩, app⟩
      have ended : (CreateNamespace.execute app).run (world env anchors) state =
          (.ok fresh, ((state.after anchors (.getContract app)).after anchors (.newId "ns")).after
            anchors (.createNamespace fresh)) := by
        simp only [CreateNamespace.execute, VaultMesh.getContract, Program.call_bind,
          Program.run_call, world_answer_fst, world_answer_snd, World.reply, known, question_ok,
          Program.done_ok_bind]
        rfl
      rw [ended]
      refine ⟨chartered.apps, ?_, chartered.signed⟩
      intro id ns found
      by_cases same : id = fresh.id
      · subst same
        have stored : (state.store.createNamespace fresh).getNamespace fresh.id = some ns := found
        rw [MemoryMetadataStore.getNamespace_createNamespace_self] at stored
        rcases Option.some.inj stored with rfl
        refine ⟨?_, chartered.apps app contract known⟩
        exact unbroken_freshId unbroken (state.tick + 1) (by unfold Unbroken; decide)
      · have stored : (state.store.createNamespace fresh).getNamespace id = some ns := found
        rw [MemoryMetadataStore.getNamespace_createNamespace_of_ne _ same] at stored
        exact chartered.namespaces id ns stored

theorem lifetime_clamped (time : Timestamp) (ttlSecs : UInt64) :
    (time.plusSecs (clampTtl ttlSecs)).millis.toNat ≤ time.millis.toNat + 900 * 1000 := by
  have clamped : (clampTtl ttlSecs).toNat ≤ 900 := by
    unfold clampTtl
    split
    · decide
    · split
      · decide
      · next small => exact UInt64.le_iff_toNat_le.mp (UInt64.not_lt.mp small)
  have thousand : (1000 : UInt64).toNat = 1000 := rfl
  simp only [Timestamp.plusSecs, toNat_saturatingAdd, toNat_saturatingMul, thousand]
  omega

/-- Issuing signs plain claims which expire in time, or signs nothing. -/
theorem Chartered.issueCapability (unbroken : ∀ tick, Unbroken (env.uuid tick)) (node : Node)
    (app : AppId) (ns : NamespaceId) (operation : Operation) (ttlSecs : UInt64)
    (chartered : Chartered issued state) :
    Chartered
      (issued ++ ((Action.issueCapability app ns operation ttlSecs).perform node env anchors
        state).1)
      ((Action.issueCapability app ns operation ttlSecs).perform node env anchors state).2 := by
  simp only [Action.perform]
  have unsigned : ∀ {moment : World A}, moment.store = state.store → moment.signed = state.signed →
      Chartered (issued ++ []) moment := by
    intro moment sameStore sameSigned
    rw [List.append_nil]
    exact ⟨by rw [sameStore]; exact chartered.apps, by rw [sameStore]; exact chartered.namespaces,
      by rw [sameSigned]; exact chartered.signed⟩
  cases found : state.store.getNamespace ns with
  | none =>
      have ended : (IssueCapability.execute app ns operation ttlSecs).run (world env anchors)
          state =
          (.error (.port .notFound), state.after anchors (.getNamespace ns)) := by
        simp only [IssueCapability.execute, VaultMesh.getNamespace, Program.call_bind,
          Program.run_call, world_answer_fst, world_answer_snd, World.reply, found, question_ok,
          Program.done_ok_bind, okOr_none]
        rfl
      rw [ended]
      exact unsigned rfl rfl
  | some owned =>
      by_cases owns : owned.ownedBy app = true
      · let time := env.clock (state.tick + 1)
        let claims : CapabilityClaims := ⟨app, ns, operation,
          ⟨env.freshId (state.tick + 2) "nonce"⟩, time.plusSecs (clampTtl ttlSecs)⟩
        let last := (((state.after anchors (.getNamespace ns)).after anchors .now).after anchors
          (.newId "nonce")).after anchors (.sign claims)
        have ended : (IssueCapability.execute app ns operation ttlSecs).run (world env anchors)
            state = (.ok ⟨claims, env.signature claims.canonicalBytes⟩, last) := by
          simp only [IssueCapability.execute, VaultMesh.getNamespace, Program.call_bind,
            Program.run_call, world_answer_fst, world_answer_snd, World.reply, found, question_ok,
            Program.done_ok_bind, okOr_some, pure_bind, owns, if_true]
          rfl
        have clock : (⟨.now, time⟩ : PortExchange) ∈
            (IssueCapability.execute app ns operation ttlSecs).transcript (world env anchors)
              state := by
          simp only [IssueCapability.execute, VaultMesh.getNamespace, Program.call_bind,
            Program.transcript, world_answer_fst, world_answer_snd, World.reply, found, question_ok,
            Program.done_ok_bind, okOr_some, pure_bind, owns, if_true]
          exact List.mem_cons_of_mem _ List.mem_cons_self
        rw [ended]
        refine ⟨chartered.apps, chartered.namespaces, ?_⟩
        intro message mem
        have mem : message ∈ claims.canonicalBytes :: state.signed := mem
        rcases List.mem_cons.mp mem with rfl | before
        · refine ⟨_, List.mem_append_right _ List.mem_cons_self, rfl, ⟨?_, ?_, ?_⟩, time, clock, ?_⟩
          · have sameApp : owned.appId = app := by simpa [Namespace.ownedBy] using owns
            have plainApp := (chartered.namespaces ns owned found).2
            rw [sameApp] at plainApp
            exact plainApp
          · exact (chartered.namespaces ns owned found).1
          · exact unbroken_freshId unbroken (state.tick + 2) (by unfold Unbroken; decide)
          · exact lifetime_clamped time ttlSecs
        · rcases chartered.signed message before with ⟨issuance, issuedBefore, same, proper⟩
          exact ⟨issuance, List.mem_append_left _ issuedBefore, same, proper⟩
      · have ended : (IssueCapability.execute app ns operation ttlSecs).run (world env anchors)
            state = (.error (.port (.domain .unauthorized)),
              state.after anchors (.getNamespace ns)) := by
          simp only [IssueCapability.execute, VaultMesh.getNamespace, Program.call_bind,
            Program.run_call, world_answer_fst, world_answer_snd, World.reply, found, question_ok,
            Program.done_ok_bind, okOr_some, pure_bind, owns]
          rfl
        rw [ended]
        exact unsigned rfl rfl

theorem Chartered.perform (unbroken : ∀ tick, Unbroken (env.uuid tick)) (node : Node)
    (action : Action) (chartered : Chartered issued state) :
    Chartered (issued ++ (action.perform node env anchors state).1)
      (action.perform node env anchors state).2 := by
  cases action with
  | registerApp quota retention erasure =>
      simp only [Action.perform, List.append_nil]
      exact chartered.registerApp unbroken quota retention erasure
  | createNamespace app =>
      simp only [Action.perform, List.append_nil]
      exact chartered.createNamespace unbroken app
  | issueCapability app ns operation ttlSecs =>
      exact chartered.issueCapability unbroken node app ns operation ttlSecs
  | data request =>
      simp only [Action.perform, List.append_nil]
      rcases request.serve_frame node env anchors state with ⟨contracts, namespaces, signed⟩
      refine ⟨?_, ?_, ?_⟩
      · simp only [MemoryMetadataStore.getContract, contracts]
        exact chartered.apps
      · simp only [MemoryMetadataStore.getNamespace, namespaces]
        exact chartered.namespaces
      · rw [signed]
        exact chartered.signed

theorem Chartered.performAll (unbroken : ∀ tick, Unbroken (env.uuid tick))
    (anchors : AnchorModel A) (node : Node) (actions : List Action)
    (chartered : Chartered issued state) :
    Chartered (issued ++ (Action.performAll node env anchors actions state).1)
      (Action.performAll node env anchors actions state).2 := by
  induction actions generalizing issued state with
  | nil =>
      simp only [Action.performAll, List.append_nil]
      exact chartered
  | cons action actions ih =>
      simp only [Action.performAll]
      rw [← List.append_assoc]
      exact ih (chartered.perform unbroken node action)

end Steps

/-! ## The guarded use-cases -/

/-- The use-cases behind the guard, with their arguments beside namespace and token. -/
inductive Guarded where
  | put (mesh : Mesh) (ciphertext : Slice)
  | get (transport : Bool) (blobId : BlobId)
  | list
  | delete (blobId : BlobId)

namespace Guarded

def operation : Guarded → Operation
  | .put _ _ => .put
  | .get _ _ => .get
  | .list => .list
  | .delete _ => .delete

def serve (node : Node) (ns : NamespaceId) (token : CapabilityToken) : Guarded → UseCase Unit
  | .put mesh ciphertext => ((node.put mesh).execute ns token ciphertext).void
  | .get transport blobId => ((node.get transport).restore ns token blobId).void
  | .list => (ListBackups.execute ns token).void
  | .delete blobId => DeleteBackup.execute ns token blobId

theorem exists_serve_eq (node : Node) (ns : NamespaceId) (token : CapabilityToken)
    (useCase : Guarded) :
    ∃ rest, useCase.serve node ns token = authorize ns token useCase.operation >>= rest := by
  cases useCase with
  | put mesh ciphertext => exact ⟨_, bind_assoc _ _ _⟩
  | get transport blobId => exact ⟨_, bind_assoc _ _ _⟩
  | list => exact ⟨_, bind_assoc _ _ _⟩
  | delete blobId => exact ⟨_, rfl⟩

end Guarded

/-- Of an ideal scheme, only what was signed is verified. -/
theorem Environment.mem_signed_of_verify {env : Environment}
    (ideal : ∀ signed message signature, env.accepts signed message signature = true →
      message ∈ signed)
    {signed : List ByteArray} {token : CapabilityToken}
    (verified : env.verify signed token = .ok ()) : token.claims.canonicalBytes ∈ signed := by
  unfold Environment.verify at verified
  split at verified
  · cases verified
  · split at verified
    · next accepts => exact ideal _ _ _ accepts
    · cases verified

/--
In every run from the empty store, a token which passes the guard has the claims
of a token issued before, for the owner of the namespace, still fresh and issued
at most 15 minutes before it expires. A use-case whose guard fails returns the
error and changes neither the store nor the anchor.
-/
theorem authorization_sound {A : Type} (node : Node) (env : Environment) (anchors : AnchorModel A)
    (unbroken : ∀ tick, Unbroken (env.uuid tick))
    (ideal : ∀ signed message signature, env.accepts signed message signature = true →
      message ∈ signed)
    (actions : List Action) {first last : World A} (empty : first.store = .empty)
    (unsigned : first.signed = []) {issued : List Issuance}
    (performed : Action.performAll node env anchors actions first = (issued, last))
    (ns : NamespaceId) (token : CapabilityToken) (useCase : Guarded) :
    (∀ app checked,
      (authorize ns token useCase.operation).run (world env anchors) last = (.ok app, checked) →
      ∃ issuance ∈ issued, ∃ time issueTime,
        ⟨.now, time⟩ ∈ (authorize ns token useCase.operation).transcript (world env anchors) last ∧
        ⟨.now, issueTime⟩ ∈ issuance.transcript ∧
        issuance.token.claims = token.claims ∧ token.claims.ns = ns ∧
        token.claims.operation = useCase.operation ∧
        time.millis.toNat < token.claims.expiresAt.millis.toNat ∧
        token.claims.expiresAt.millis.toNat ≤ issueTime.millis.toNat + 900 * 1000 ∧
        ∃ owned, last.store.getNamespace ns = some owned ∧ owned.appId = token.claims.appId) ∧
    (∀ failure checked,
      (authorize ns token useCase.operation).run (world env anchors) last =
        (.error failure, checked) →
      ∃ final, (useCase.serve node ns token).run (world env anchors) last =
          (.error failure, final) ∧
        final.store = last.store ∧ final.anchor = last.anchor) := by
  have chartered : Chartered issued last := by
    have start : Chartered [] first := by
      refine ⟨?_, ?_, ?_⟩
      · rw [empty]
        rintro app contract ⟨⟩
      · rw [empty]
        rintro id ns ⟨⟩
      · rw [unsigned]
        simp
    have ended := start.performAll unbroken anchors node actions
    rw [performed] at ended
    exact ended
  constructor
  · intro app checked accepted
    have authorized := (authorize_obeys permits_readOnly.guard ns token useCase.operation []).run
      (world env anchors) last
    rw [accepted, List.nil_append] at authorized
    rcases authorized app rfl with ⟨rfl, time, owned, made, scope, owns⟩
    rw [List.nil_append] at made
    rcases (CapabilityToken.authorize_eq_ok_iff ..).mp scope with
      ⟨notExpired, -, sameNs, sameOperation⟩
    have verified : env.verify last.signed token = .ok () := by
      have first : (⟨.verifySignature token, env.verify last.signed token⟩ : PortExchange) =
          ⟨.verifySignature token, .ok ()⟩ := (List.cons.inj made).1
      exact eq_of_heq (Sigma.mk.inj first).2
    have signed := Environment.mem_signed_of_verify ideal verified
    have stored : last.store.getNamespace ns = some owned := by
      have asked : (⟨.getNamespace ns, .ok (some owned)⟩ : PortExchange) ∈
          (authorize ns token useCase.operation).transcript (world env anchors) last := by
        rw [made]
        simp [authorizing]
      rcases Program.exists_visit_of_mem_transcript asked with ⟨moment, visited, answered⟩
      rcases (readOnly_run (authorize_obeys permits_readOnly.guard ns token useCase.operation [])
        env anchors last).2 moment visited with ⟨sameStore, -⟩
      simp only [world_answer_fst, World.reply, sameStore] at answered
      exact (Except.ok.inj answered).symm
    rcases chartered.signed _ signed with ⟨issuance, issuedBefore, sameBytes, proper⟩
    rcases proper.lifetime with ⟨issueTime, issueClock, lifetime⟩
    have sameClaims := proper.plain.eq_of_canonicalBytes sameBytes
    refine ⟨issuance, issuedBefore, time, issueTime, ?_, issueClock, sameClaims, sameNs,
      sameOperation, UInt64.lt_iff_toNat_lt.mp notExpired, ?_, owned, stored, ?_⟩
    · rw [made]
      simp [authorizing]
    · rw [← sameClaims]
      exact lifetime
    · simpa [Namespace.ownedBy] using owns
  · intro failure checked refused
    rcases useCase.exists_serve_eq node ns token with ⟨rest, shape⟩
    rcases authorize_run_unchanged refused with ⟨sameStore, sameAnchor⟩
    refine ⟨checked, ?_, sameStore, sameAnchor⟩
    rw [shape, Program.run_bind_of_error refused]

/-- Signatures are accepted for exactly the messages which were signed. -/
def signingEnvironment : Environment :=
  { sampleEnvironment with
    accepts := fun signed message _ =>
      signed.any fun known => decide (known.data.toList = message.data.toList) }

theorem signingEnvironment_ideal (signed : List ByteArray) (message : ByteArray)
    (signature : Bytes) (accepts : signingEnvironment.accepts signed message signature = true) :
    message ∈ signed := by
  rcases List.any_eq_true.mp accepts with ⟨known, present, same⟩
  have sameBytes : known = message := by
    apply ByteArray.ext
    exact Array.toList_inj.mp (of_decide_eq_true same)
  exact sameBytes ▸ present

def issuingRun : List Issuance × World ShardMap :=
  Action.performAll replicatingNode signingEnvironment shardMap
    [.registerApp ⟨10, 10⟩ ⟨1, 0⟩ ⟨1, 2⟩, .createNamespace ⟨"app-0"⟩,
      .issueCapability ⟨"app-0"⟩ ⟨"ns-3"⟩ .put 60]
    ⟨.empty, fun _ => none, [], 0⟩

def issuedToken : CapabilityToken :=
  ⟨⟨⟨"app-0"⟩, ⟨"ns-3"⟩, .put, ⟨"nonce-7"⟩, ⟨61000⟩⟩, List.replicate 64 0⟩

theorem authorization_sound_issuingRun :
    ∃ issuance ∈ issuingRun.1, issuance.token.claims = issuedToken.claims := by
  have accepted : (authorize ⟨"ns-3"⟩ issuedToken .put).run (world signingEnvironment shardMap)
      issuingRun.2 = (.ok ⟨"app-0"⟩, _) := Prod.ext rfl rfl
  rcases (authorization_sound replicatingNode signingEnvironment shardMap unbroken_toString
    signingEnvironment_ideal _
    rfl rfl (rfl : issuingRun = (issuingRun.1, issuingRun.2)) ⟨"ns-3"⟩ issuedToken
    (.put ⟨false, [], ⟨none, false⟩⟩ (oneByte 7))).1 _ _ accepted with
    ⟨issuance, issued, -, -, -, -, sameClaims, -⟩
  exact ⟨issuance, issued, sameClaims⟩

end VaultMesh
