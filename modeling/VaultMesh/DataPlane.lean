import VaultMesh.Http
import VaultMesh.Restore

/-!
# The data plane and its client

The four data-plane handlers of a node-agent and the client of the SDK which
talks to them. The client's request travels as text through the extractor to the
handler, and the handler's response travels back as text, so that both ends of
the protocol are modelled as they are written.

A handler which panics drops the connection, and the client sees a transport
error. The repair which a degraded read spawns is a request of its own and takes
no part in the answer.
-/

namespace VaultMesh

open Interaction Coding Coding.Serde

/-! ## Messages -/

structure PutRequest where
  ns : NamespaceId
  token : CapabilityToken
  ciphertextB64 : String
  deriving DecidableEq, Repr

structure PutResponse where
  blobId : BlobId
  deriving DecidableEq, Repr

structure GetRequest where
  ns : NamespaceId
  token : CapabilityToken
  blobId : BlobId
  deriving DecidableEq, Repr

structure RestoredBlob where
  blobId : BlobId
  ciphertextB64 : String
  deriving DecidableEq, Repr

structure ListRequest where
  ns : NamespaceId
  token : CapabilityToken
  deriving DecidableEq, Repr

structure ListResponse where
  blobIds : List BlobId
  deriving DecidableEq, Repr

structure DeleteRequest where
  ns : NamespaceId
  token : CapabilityToken
  blobId : BlobId
  deriving DecidableEq, Repr

instance : Serde PutRequest :=
  struct ["namespace", "token", "ciphertext_b64"]
    (fun request => [toJson request.ns, toJson request.token, toJson request.ciphertextB64])
    (fun
      | [ns, token, ciphertextB64] => do
          some ⟨← required ns, ← required token, ← required ciphertextB64⟩
      | _ => none)
    (by decide) (fun _ => rfl) (by simp)

instance : Serde PutResponse :=
  struct ["blob_id"]
    (fun response => [toJson response.blobId])
    (fun
      | [blobId] => do
          some ⟨← required blobId⟩
      | _ => none)
    (by decide) (fun _ => rfl) (by simp)

instance : Serde GetRequest :=
  struct ["namespace", "token", "blob_id"]
    (fun request => [toJson request.ns, toJson request.token, toJson request.blobId])
    (fun
      | [ns, token, blobId] => do
          some ⟨← required ns, ← required token, ← required blobId⟩
      | _ => none)
    (by decide) (fun _ => rfl) (by simp)

instance : Serde RestoredBlob :=
  struct ["blob_id", "ciphertext_b64"]
    (fun response => [toJson response.blobId, toJson response.ciphertextB64])
    (fun
      | [blobId, ciphertextB64] => do
          some ⟨← required blobId, ← required ciphertextB64⟩
      | _ => none)
    (by decide) (fun _ => rfl) (by simp)

instance : Serde ListRequest :=
  struct ["namespace", "token"]
    (fun request => [toJson request.ns, toJson request.token])
    (fun
      | [ns, token] => do
          some ⟨← required ns, ← required token⟩
      | _ => none)
    (by decide) (fun _ => rfl) (by simp)

instance : Serde ListResponse :=
  struct ["blob_ids"]
    (fun response => [toJson response.blobIds])
    (fun
      | [blobIds] => do
          some ⟨← required blobIds⟩
      | _ => none)
    (by decide) (fun _ => rfl) (by simp)

instance : Serde DeleteRequest :=
  struct ["namespace", "token", "blob_id"]
    (fun request => [toJson request.ns, toJson request.token, toJson request.blobId])
    (fun
      | [ns, token, blobId] => do
          some ⟨← required ns, ← required token, ← required blobId⟩
      | _ => none)
    (by decide) (fun _ => rfl) (by simp)

/-! ## The node-agent -/

/-- What the handlers share: the use-cases which have configuration, and the libraries' wording. -/
structure NodeAgent where
  put : PutBackup
  get : GetBackup
  words : Wording

/-- A vector has no more bytes than an object may have. -/
def Slice.ofBytes (bytes : Bytes) : Option Slice :=
  if fits : bytes.length < 2 ^ 63 then some ⟨bytes, fits⟩ else none

@[simp]
theorem Slice.ofBytes_bytes (slice : Slice) : Slice.ofBytes slice.bytes = some slice :=
  dif_pos slice.length_lt

namespace NodeAgent

def putBackup (agent : NodeAgent) (req : PutRequest) : UseCase (Except ApiError PutResponse) :=
  match (agent.words.decode64 req.ciphertextB64).bind Slice.ofBytes with
  | none =>
      pure (.error (badRequest ("ciphertext base64: " ++ agent.words.base64 req.ciphertextB64)))
  | some ciphertext => do
      let result ← mapErr (agent.put.execute req.ns req.token ciphertext)
      pure (result.map PutResponse.mk)

def getBackup (agent : NodeAgent) (req : GetRequest) : UseCase (Except ApiError RestoredBlob) := do
  let result ← mapErr (agent.get.restore req.ns req.token req.blobId)
  pure (result.map fun outcome => ⟨req.blobId, agent.words.encode64 outcome.ciphertext⟩)

def listBackups (req : ListRequest) : UseCase (Except ApiError ListResponse) := do
  let result ← mapErr (ListBackups.execute req.ns req.token)
  pure (result.map ListResponse.mk)

def deleteBackup (req : DeleteRequest) : UseCase (Except ApiError Unit) :=
  mapErr (DeleteBackup.execute req.ns req.token req.blobId)

/-- The data-plane routes of the router, all of them `POST`. -/
def respond (agent : NodeAgent) (path body : String) : UseCase Response :=
  if path = "/v1/backups" then
    withBody agent.words body fun req => do return jsonResponse agent.words (← agent.putBackup req)
  else if path = "/v1/backups/get" then
    withBody agent.words body fun req => do return jsonResponse agent.words (← agent.getBackup req)
  else if path = "/v1/backups/list" then
    withBody agent.words body fun req => do return jsonResponse agent.words (← listBackups req)
  else if path = "/v1/backups/delete" then
    withBody agent.words body fun req => do return emptyResponse agent.words (← deleteBackup req)
  else
    pure ⟨404, ""⟩

end NodeAgent

/-! ## The client -/

inductive ClientError where
  | transport (message : String)
  | server (status : ℕ) (body : String)
  | encoding (message : String)
  | crypto (message : String)
  deriving DecidableEq, Repr

/-- `serde_json::Value` is read from every JSON text. -/
instance : Serde Json where
  toJson := id
  fromJson := some
  fromJson_toJson _ := rfl

/-- `serde_json::from_str`. -/
def fromStr {α : Type} [Serde α] (words : Wording) (text : String) : Except ClientError α :=
  match (words.parse text).bind fromJson with
  | some value => .ok value
  | none => .error (.encoding (words.json text))

def b64Decode (words : Wording) (text : String) : Except ClientError Bytes :=
  match words.decode64 text with
  | some bytes => .ok bytes
  | none => .error (.encoding (words.base64 text))

namespace NodeAgentClient

variable (agent : NodeAgent)

def postJson {β ρ : Type} [Serde β] [Serde ρ] (path : String) (body : β) :
    UseCase (Except ClientError ρ) := do
  match ← (agent.respond path (agent.words.toText (toJson body))).attempt with
  | .error _ => pure (.error (.transport agent.words.transport))
  | .ok response =>
      if response.isSuccess then
        pure (fromStr agent.words response.body)
      else
        pure (.error (.server response.status response.body))

def put (ns : NamespaceId) (token : CapabilityToken) (ciphertext : Slice) :
    UseCase (Except ClientError BlobId) := do
  let resp ← postJson agent "/v1/backups"
    (⟨ns, token, agent.words.encode64 ciphertext.bytes⟩ : PutRequest)
  pure (resp.map PutResponse.blobId)

def get (ns : NamespaceId) (token : CapabilityToken) (blobId : BlobId) :
    UseCase (Except ClientError Bytes) := do
  let resp ← postJson agent "/v1/backups/get" (⟨ns, token, blobId⟩ : GetRequest)
  pure (resp.bind fun blob : RestoredBlob => b64Decode agent.words blob.ciphertextB64)

def list (ns : NamespaceId) (token : CapabilityToken) :
    UseCase (Except ClientError (List BlobId)) := do
  let resp ← postJson agent "/v1/backups/list" (⟨ns, token⟩ : ListRequest)
  pure (resp.map ListResponse.blobIds)

def delete (ns : NamespaceId) (token : CapabilityToken) (blobId : BlobId) :
    UseCase (Except ClientError Unit) := do
  let resp ← postJson agent "/v1/backups/delete" (⟨ns, token, blobId⟩ : DeleteRequest)
  pure (resp.map fun _ : Json => ())

end NodeAgentClient

/-! ## Requests of the client -/

/-- A call of the client. -/
inductive DataCall where
  | put (ns : NamespaceId) (token : CapabilityToken) (ciphertext : Slice)
  | get (ns : NamespaceId) (token : CapabilityToken) (blobId : BlobId)
  | list (ns : NamespaceId) (token : CapabilityToken)
  | delete (ns : NamespaceId) (token : CapabilityToken) (blobId : BlobId)

namespace DataCall

/-- What a call is for: the id stored, the bytes restored, the ids listed, or nothing. -/
abbrev Value : DataCall → Type
  | .put _ _ _ => BlobId
  | .get _ _ _ => Bytes
  | .list _ _ => List BlobId
  | .delete _ _ _ => Unit

/-- What the client makes of a call. -/
def client (agent : NodeAgent) : (call : DataCall) → UseCase (Except ClientError call.Value)
  | .put ns token ciphertext => NodeAgentClient.put agent ns token ciphertext
  | .get ns token blobId => NodeAgentClient.get agent ns token blobId
  | .list ns token => NodeAgentClient.list agent ns token
  | .delete ns token blobId => NodeAgentClient.delete agent ns token blobId

/-- The use-case behind the handler, on the client's own arguments. -/
def useCase (agent : NodeAgent) : (call : DataCall) → UseCase call.Value
  | .put ns token ciphertext => agent.put.execute ns token ciphertext
  | .get ns token blobId => agent.get.execute ns token blobId
  | .list ns token => ListBackups.execute ns token
  | .delete ns token blobId => DeleteBackup.execute ns token blobId

/-- The type of the handler's result. -/
abbrev Reply : DataCall → Type
  | .put _ _ _ => PutResponse
  | .get _ _ _ => RestoredBlob
  | .list _ _ => ListResponse
  | .delete _ _ _ => Unit

/-- The handler's result which carries a value. -/
def reply (words : Wording) : (call : DataCall) → call.Value → call.Reply
  | .put _ _ _, blobId => ⟨blobId⟩
  | .get _ _ blobId, ciphertext => ⟨blobId, words.encode64 ciphertext⟩
  | .list _ _, blobIds => ⟨blobIds⟩
  | .delete _ _ _, _ => ()

/-- The handler, on the request which the client posts. -/
def handler (agent : NodeAgent) : (call : DataCall) → UseCase (Except ApiError call.Reply)
  | .put ns token ciphertext => agent.putBackup ⟨ns, token, agent.words.encode64 ciphertext.bytes⟩
  | .get ns token blobId => agent.getBackup ⟨ns, token, blobId⟩
  | .list ns token => NodeAgent.listBackups ⟨ns, token⟩
  | .delete ns token blobId => NodeAgent.deleteBackup ⟨ns, token, blobId⟩

/-- The text which the client posts. -/
def body (words : Wording) : DataCall → String
  | .put ns token ciphertext =>
      words.toText (toJson (⟨ns, token, words.encode64 ciphertext.bytes⟩ : PutRequest))
  | .get ns token blobId => words.toText (toJson (⟨ns, token, blobId⟩ : GetRequest))
  | .list ns token => words.toText (toJson (⟨ns, token⟩ : ListRequest))
  | .delete ns token blobId => words.toText (toJson (⟨ns, token, blobId⟩ : DeleteRequest))

/-- The extractor reads the whole body. -/
def Fits (words : Wording) (call : DataCall) : Prop :=
  (utf8 (call.body words)).length ≤ bodyLimit

instance (words : Wording) (call : DataCall) : Decidable (call.Fits words) :=
  inferInstanceAs (Decidable (_ ≤ _))

def isDelete : DataCall → Bool
  | .delete _ _ _ => true
  | _ => false

/-- What the handler returns for a call, if the call gets past the extractor. -/
def handled (agent : NodeAgent) (call : DataCall) :
    UseCase (Option (Except ApiError call.Reply)) :=
  if call.Fits agent.words then do
    let result ← call.handler agent
    pure (some result)
  else
    pure none

end DataCall

/-! ## One call -/

variable {σ : Type} (agent : NodeAgent) (host : Handler ports σ)

/-- What the client makes of the answer to a post, which may be missing. -/
def heard {ρ : Type} [Serde ρ] (words : Wording) :
    Except Failure Response → Except ClientError ρ
  | .error _ => .error (.transport words.transport)
  | .ok response =>
      if response.isSuccess then
        fromStr words response.body
      else
        .error (.server response.status response.body)

theorem postJson_run {β ρ : Type} [Serde β] [Serde ρ] (path : String) (body : β) (state : σ) :
    (NodeAgentClient.postJson agent path body : UseCase (Except ClientError ρ)).run host state =
      (.ok (heard agent.words ((agent.respond path (agent.words.toText (toJson body))).run
          host state).1),
        ((agent.respond path (agent.words.toText (toJson body))).run host state).2) := by
  rw [NodeAgentClient.postJson, Program.run_bind, Program.run_attempt]
  rcases (agent.respond path (agent.words.toText (toJson body))).run host state with
    ⟨answer, last⟩
  cases answer with
  | error failure => rfl
  | ok response =>
      simp only [heard]
      split <;> rfl

theorem returned_map {α β : Type} (result : Except Failure α) (next : α → β) :
    (returned result).map (Except.map next) = returned (result.map next) := by
  cases result with
  | ok value => rfl
  | error failure => cases failure <;> rfl

theorem heard_of_ok {ρ : Type} [Serde ρ] (words : Wording) (value : ρ) :
    heard words (.ok (jsonResponse words (.ok value))) = .ok value := by
  simp [heard, jsonResponse, Response.isSuccess, fromStr]

theorem heard_of_err {ρ : Type} [Serde ρ] (words : Wording) (error : PortError) :
    (heard words (.ok ((err error).response words)) : Except ClientError ρ) =
      .error (.server ((err error).response words).status ((err error).response words).body) := by
  simp [heard, err_not_success]

theorem withBody_run {ρ : Type} [Serde ρ] (words : Wording) (request : ρ)
    (handler : ρ → UseCase Response) (state : σ) :
    (withBody words (words.toText (toJson request)) handler).run host state =
      if (utf8 (words.toText (toJson request))).length ≤ bodyLimit then
        (handler request).run host state
      else
        (.ok ⟨413, words.rejection (words.toText (toJson request))⟩, state) := by
  rw [withBody, extract_toText]
  by_cases fits : (utf8 (words.toText (toJson request))).length ≤ bodyLimit
  · simp [fits, Nat.not_lt.mpr fits]
  · simp [fits, Nat.not_le.mp fits]

namespace DataCall

/-- The handler does what the use-case does on the client's own arguments. -/
theorem handler_run (call : DataCall) (state : σ) :
    (call.handler agent).run host state =
      (returned (((call.useCase agent).run host state).1.map (call.reply agent.words)),
        ((call.useCase agent).run host state).2) := by
  cases call with
  | put ns token ciphertext =>
      simp only [handler, NodeAgent.putBackup, Base64.Library.decode64_encode64, Option.bind_some,
        Slice.ofBytes_bytes, Program.run_bind_pure, mapErr_run, returned_map]
      rfl
  | get ns token blobId =>
      simp only [handler, useCase, NodeAgent.getBackup, GetBackup.execute, Program.run_bind_pure,
        mapErr_run, returned_map]
      rcases (agent.get.restore ns token blobId).run host state with ⟨result, last⟩
      cases result <;> rfl
  | list ns token =>
      simp only [handler, NodeAgent.listBackups, Program.run_bind_pure, mapErr_run, returned_map]
      rfl
  | delete ns token blobId =>
      simp only [handler, useCase, NodeAgent.deleteBackup, mapErr_run]
      rcases (DeleteBackup.execute ns token blobId).run host state with ⟨result, last⟩
      cases result <;> rfl

def path : DataCall → String
  | .put _ _ _ => "/v1/backups"
  | .get _ _ _ => "/v1/backups/get"
  | .list _ _ => "/v1/backups/list"
  | .delete _ _ _ => "/v1/backups/delete"

/-- The response to a call, from what the handler returns. -/
def response (words : Wording) : (call : DataCall) → Except ApiError call.Reply → Response
  | .put _ _ _, result => jsonResponse words result
  | .get _ _ _, result => jsonResponse words result
  | .list _ _, result => jsonResponse words result
  | .delete _ _ _, result => emptyResponse words result

theorem respond_run (call : DataCall) (state : σ) :
    (agent.respond call.path (call.body agent.words)).run host state =
      if call.Fits agent.words then
        (((call.handler agent).run host state).1.map (call.response agent.words),
          ((call.handler agent).run host state).2)
      else
        (.ok ⟨413, agent.words.rejection (call.body agent.words)⟩, state) := by
  cases call with
  | put ns token ciphertext =>
      simp only [NodeAgent.respond, path, if_true]
      rw [body, withBody_run, Program.run_bind_pure]
      rfl
  | get ns token blobId =>
      simp only [NodeAgent.respond, path, String.reduceEq, if_false, if_true]
      rw [body, withBody_run, Program.run_bind_pure]
      rfl
  | list ns token =>
      simp only [NodeAgent.respond, path, String.reduceEq, if_false, if_true]
      rw [body, withBody_run, Program.run_bind_pure]
      rfl
  | delete ns token blobId =>
      simp only [NodeAgent.respond, path, String.reduceEq, if_false, if_true]
      rw [body, withBody_run, Program.run_bind_pure]
      rfl

/-- What the client returns, from the answer it receives. -/
def told (words : Wording) :
    (call : DataCall) → Except Failure Response → Except ClientError call.Value
  | .put _ _ _, answer => (heard words answer).map PutResponse.blobId
  | .get _ _ _, answer =>
      (heard words answer).bind fun blob : RestoredBlob => b64Decode words blob.ciphertextB64
  | .list _ _, answer => (heard words answer).map ListResponse.blobIds
  | .delete _ _ _, answer => (heard words answer).map fun _ : Json => ()

theorem client_run (call : DataCall) (state : σ) :
    (call.client agent).run host state =
      (.ok (call.told agent.words
          ((agent.respond call.path (call.body agent.words)).run host state).1),
        ((agent.respond call.path (call.body agent.words)).run host state).2) := by
  cases call with
  | put ns token ciphertext =>
      simp only [client, NodeAgentClient.put, Program.run_bind_pure, postJson_run]
      rfl
  | get ns token blobId =>
      simp only [client, NodeAgentClient.get, Program.run_bind_pure, postJson_run]
      rfl
  | list ns token =>
      simp only [client, NodeAgentClient.list, Program.run_bind_pure, postJson_run]
      rfl
  | delete ns token blobId =>
      simp only [client, NodeAgentClient.delete, Program.run_bind_pure, postJson_run]
      rfl

/-- Of all results, only a successful delete is not read back. -/
theorem told_of_ok (words : Wording) (call : DataCall) (value : call.Value) :
    call.told words (.ok (call.response words (.ok (call.reply words value)))) =
      if call.isDelete then .error (.encoding (words.json "")) else .ok value := by
  cases call with
  | put ns token ciphertext => simp [told, response, reply, heard_of_ok, Except.map, isDelete]
  | get ns token blobId =>
      simp [told, response, reply, heard_of_ok, Except.bind, isDelete, b64Decode]
  | list ns token => simp [told, response, reply, heard_of_ok, Except.map, isDelete]
  | delete ns token blobId =>
      simp [told, response, emptyResponse, heard, Response.isSuccess, fromStr, Except.map, isDelete]

theorem told_of_err (words : Wording) (call : DataCall) (error : PortError) :
    call.told words (.ok (call.response words (.error (err error)))) =
      .error (.server ((err error).response words).status ((err error).response words).body) := by
  cases call with
  | put ns token ciphertext => simp [told, response, jsonResponse, heard_of_err, Except.map]
  | get ns token blobId => simp [told, response, jsonResponse, heard_of_err, Except.bind]
  | list ns token => simp [told, response, jsonResponse, heard_of_err, Except.map]
  | delete ns token blobId => simp [told, response, emptyResponse, heard_of_err, Except.map]

theorem told_of_dropped (words : Wording) (call : DataCall) (failure : Failure) :
    call.told words (.error failure) = .error (.transport words.transport) := by
  cases call <;> rfl

theorem told_of_refused (words : Wording) (call : DataCall) (text : String) :
    call.told words (.ok ⟨413, text⟩) = .error (.server 413 text) := by
  cases call <;> rfl

/-- The client and the handler of a call agree on its outcome. -/
structure Agrees (agent : NodeAgent) (host : Handler ports σ) (state : σ) (call : DataCall) :
    Prop where
  ok_iff : ∀ value, ((call.client agent).run host state).1 = .ok (.ok value) ↔
    ((call.handled agent).run host state).1 = .ok (some (.ok (call.reply agent.words value)))
  used : ∀ value, ((call.client agent).run host state).1 = .ok (.ok value) →
    ((call.useCase agent).run host state).1 = .ok value
  server_iff : (∃ status body,
      ((call.client agent).run host state).1 = .ok (.error (.server status body))) ↔
    ∃ error, ((call.handled agent).run host state).1 = .ok (some (.error error))

theorem handled_of_fits {call : DataCall} (fits : call.Fits agent.words) (state : σ) :
    ((call.handled agent).run host state).1 =
      (returned (((call.useCase agent).run host state).1.map
        (call.reply agent.words))).map some := by
  rw [handled, if_pos fits, Program.run_bind_pure, handler_run]

theorem handled_of_not_fits {call : DataCall} (large : ¬call.Fits agent.words) (state : σ) :
    ((call.handled agent).run host state).1 = .ok none := by
  rw [handled, if_neg large, Program.run_pure]

/-- What the client returns when the use-case ends with a result. -/
def reported (words : Wording) (call : DataCall) :
    Except Failure call.Value → Except ClientError call.Value
  | .ok value => if call.isDelete then .error (.encoding (words.json "")) else .ok value
  | .error (.port error) =>
      .error (.server ((err error).response words).status ((err error).response words).body)
  | .error (.panicked _) => .error (.transport words.transport)

theorem client_of_fits {call : DataCall} (fits : call.Fits agent.words) (state : σ) :
    ((call.client agent).run host state).1 =
      .ok (call.reported agent.words ((call.useCase agent).run host state).1) := by
  rw [client_run, respond_run, if_pos fits, handler_run]
  cases ((call.useCase agent).run host state).1 with
  | ok value => exact congrArg Except.ok (told_of_ok agent.words call value)
  | error failure =>
      cases failure with
      | port error => exact congrArg Except.ok (told_of_err agent.words call error)
      | panicked message => exact congrArg Except.ok (told_of_dropped agent.words call _)

theorem client_of_not_fits {call : DataCall} (large : ¬call.Fits agent.words) (state : σ) :
    ((call.client agent).run host state).1 =
      .ok (.error (.server 413 (agent.words.rejection (call.body agent.words)))) := by
  rw [client_run, respond_run, if_neg large, told_of_refused]

theorem reply_injective (words : Wording) (call : DataCall) :
    Function.Injective (call.reply words) := by
  intro left right same
  cases call with
  | put ns token ciphertext => exact congrArg PutResponse.blobId same
  | get ns token blobId =>
      have decoded := congrArg words.decode64 (congrArg RestoredBlob.ciphertextB64 same)
      simpa [reply] using decoded
  | list ns token => exact congrArg ListResponse.blobIds same
  | delete ns token blobId => rfl

theorem agrees_of_reported {call : DataCall} {state : σ} (fits : call.Fits agent.words)
    (read : call.isDelete = true → ∀ value, ((call.useCase agent).run host state).1 ≠ .ok value) :
    call.Agrees agent host state := by
  have client := client_of_fits agent host fits state
  have handled := handled_of_fits agent host fits state
  cases used : ((call.useCase agent).run host state).1 with
  | ok value =>
      have kept : call.isDelete = false := by
        by_contra deletes
        exact read (by simpa using deletes) value used
      simp only [used, reported, kept, Bool.false_eq_true, if_false] at client
      simp only [used, returned, Except.map] at handled
      refine ⟨?_, ?_, ?_⟩
      · intro other
        simp [client, handled, (call.reply_injective agent.words).eq_iff]
      · intro other same
        simpa [client, used] using same
      · simp [client, handled]
  | error failure =>
      cases failure with
      | port error =>
          simp only [used, reported] at client
          simp only [used, returned, Except.map] at handled
          refine ⟨?_, ?_, ?_⟩
          · intro other
            simp [client, handled]
          · intro other same
            simp [client] at same
          · simp [client, handled]
      | panicked message =>
          simp only [used, reported] at client
          simp only [used, returned, Except.map] at handled
          refine ⟨?_, ?_, ?_⟩
          · intro other
            simp [client, handled]
          · intro other same
            simp [client] at same
          · simp [client, handled]

/-- The client and the handler agree, unless the body is too long or a delete succeeds. -/
theorem client_and_handler_agree_iff (agent : NodeAgent) (host : Handler ports σ) (state : σ)
    (call : DataCall) :
    call.Agrees agent host state ↔
      call.Fits agent.words ∧ (call.isDelete = true →
        ∀ reply, ((call.handler agent).run host state).1 ≠ .ok (.ok reply)) := by
  constructor
  · intro agrees
    have fits : call.Fits agent.words := by
      by_contra large
      have refused := client_of_not_fits agent host large state
      rcases agrees.server_iff.mp ⟨_, _, refused⟩ with ⟨error, handled⟩
      rw [handled_of_not_fits agent host large] at handled
      cases handled
    refine ⟨fits, ?_⟩
    intro deletes reply ended
    have client := client_of_fits agent host fits state
    have handled := handled_of_fits agent host fits state
    rw [handler_run] at ended
    cases used : ((call.useCase agent).run host state).1 with
    | ok value =>
        simp only [used, reported, deletes, if_true] at client
        simp only [used, returned, Except.map] at handled
        have told := (agrees.ok_iff value).mpr handled
        rw [client] at told
        cases told
    | error failure =>
        rw [used] at ended
        cases failure <;> cases ended
  · rintro ⟨fits, unread⟩
    apply agrees_of_reported agent host fits
    intro deletes value used
    apply unread deletes (call.reply agent.words value)
    rw [handler_run, used]
    rfl

/-! ## A delete which succeeds -/

def sampleAgent : NodeAgent where
  put := replicatingNode.put ⟨false, [], ⟨none, false⟩⟩
  get := replicatingNode.get false
  words := plainWords

def deletingWorld : World ShardMap where
  store := sampleStore ⟨1000, 10⟩ ⟨3, 0⟩
  anchor _ := none
  signed := []
  tick := 0

def sampleDelete : DataCall :=
  .delete ⟨"ns-1"⟩ (sampleToken .delete) ⟨"blob-1"⟩

/-- The handler deletes and returns `Ok`; the client reports an error. -/
theorem successful_delete_is_an_error :
    ((sampleDelete.handler sampleAgent).run (world sampleEnvironment shardMap) deletingWorld).1 =
        .ok (.ok ()) ∧
      ((sampleDelete.client sampleAgent).run (world sampleEnvironment shardMap) deletingWorld).1 =
        .ok (.error (.encoding "")) ∧
      ¬sampleDelete.Agrees sampleAgent (world sampleEnvironment shardMap) deletingWorld := by
  have fits : sampleDelete.Fits sampleAgent.words := by
    decide +kernel
  have handled : ((sampleDelete.handler sampleAgent).run (world sampleEnvironment shardMap)
      deletingWorld).1 = .ok (.ok ()) := by
    rfl
  have told : ((sampleDelete.client sampleAgent).run (world sampleEnvironment shardMap)
      deletingWorld).1 = .ok (.error (.encoding "")) := by
    rw [client_of_fits _ _ fits]
    rfl
  refine ⟨handled, told, ?_⟩
  intro agrees
  have returned := (agrees.ok_iff ()).mpr (by
    rw [DataCall.handled, if_pos fits, Program.run_bind_pure, handled]
    rfl)
  rw [told] at returned
  cases returned

end DataCall

end VaultMesh
