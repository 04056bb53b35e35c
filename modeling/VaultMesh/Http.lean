import VaultMesh.Coding.Base64
import VaultMesh.Coding.JsonText
import VaultMesh.Interaction.Run
import VaultMesh.Ports
import VaultMesh.Wire

/-!
# Answering over HTTP

What both servers share: the error envelope, the status of each `PortError`, the
JSON extractor in front of a handler, and how a handler's result becomes a
response. The libraries for JSON and base64 are a parameter, and so are the texts
of errors which they and the HTTP library word, since nothing branches on those.
-/

namespace VaultMesh

open Interaction Coding Coding.Serde

/-- A response, with the text of its body. -/
structure Response where
  status : ℕ
  body : String
  deriving DecidableEq, Repr

/-- `StatusCode::is_success`. -/
def Response.isSuccess (response : Response) : Bool :=
  200 ≤ response.status && response.status < 300

/-- The libraries for texts, and the texts which they and the HTTP library word: errors, given the
text at fault, and statuses. -/
structure Wording extends jsonTexts : Json.Library, base64Texts : Base64.Library where
  json : String → String
  base64 : String → String
  rejection : String → String
  status : ℕ → String
  transport : String

/-- Compact JSON and standard base64; what is worded is the text at fault itself. -/
def plainWords : Wording :=
  ⟨Json.compact, Base64.standard, id, id, id, toString, "connection closed"⟩

/-! ## Errors -/

def DomainError.display : DomainError → String
  | .invalidErasureParams k n =>
      s!"invalid erasure params: k={k.toNat}, n={n.toNat} (require k>=1 and n>=k)"
  | .tokenExpired => "capability token is expired"
  | .unauthorized => "caller is not authorized (app mismatch)"
  | .namespaceMismatch => "token namespace does not match the requested namespace"
  | .operationNotPermitted granted requested =>
      "token grants '" ++ granted.asStr ++ "' but '" ++ requested.asStr ++ "' was requested"
  | .quotaExceeded => "namespace quota exceeded"
  | .retentionHold minDays =>
      s!"retention hold: blob must be kept at least {minDays.toNat} day(s) before deletion"
  | .invalidContract message => "invalid contract: " ++ message

def PortError.display : PortError → String
  | .notFound => "not found"
  | .domain error => error.display
  | .crypto message => "crypto error: " ++ message
  | .integrity message => "integrity error: " ++ message
  | .serialization message => "serialization error: " ++ message
  | .unavailable message => "backend unavailable: " ++ message
  | .backend message => "backend error: " ++ message

/-- The error envelope of both planes. -/
structure WireError where
  code : String
  message : String
  deriving DecidableEq, Repr

instance : Serde WireError :=
  struct ["code", "message"]
    (fun error => [toJson error.code, toJson error.message])
    (fun
      | [code, message] => do
          some ⟨← required code, ← required message⟩
      | _ => none)
    (by decide) (fun _ => rfl) (by simp)

/-- A status and the envelope sent with it. -/
structure ApiError where
  status : ℕ
  error : WireError
  deriving DecidableEq, Repr

def badRequest (message : String) : ApiError :=
  ⟨400, "bad_request", message⟩

def domainStatus : DomainError → ℕ × String
  | .tokenExpired => (401, "token_expired")
  | .unauthorized => (403, "unauthorized")
  | .namespaceMismatch => (403, "namespace_mismatch")
  | .operationNotPermitted _ _ => (403, "operation_not_permitted")
  | .quotaExceeded => (429, "quota_exceeded")
  | .retentionHold _ => (403, "retention_hold")
  | .invalidErasureParams _ _ => (400, "invalid_erasure")
  | .invalidContract _ => (400, "invalid_contract")

def errStatus : PortError → ℕ × String
  | .notFound => (404, "not_found")
  | .domain error => domainStatus error
  | .crypto _ => (401, "invalid_signature")
  | .integrity _ => (422, "integrity")
  | .serialization _ => (400, "bad_request")
  | .unavailable _ => (503, "unavailable")
  | .backend _ => (500, "backend")

def err (error : PortError) : ApiError :=
  ⟨(errStatus error).1, (errStatus error).2, error.display⟩

theorem err_status_range (error : PortError) :
    400 ≤ (err error).status ∧ (err error).status < 600 := by
  cases error with
  | domain error => cases error <;> simp [err, errStatus, domainStatus]
  | _ => simp [err, errStatus]

/-! ## Handlers -/

/-- `.map_err(err)`: an error of the use-case becomes the handler's. -/
def mapErr {α : Type} (program : UseCase α) : UseCase (Except ApiError α) := do
  match ← program.attempt with
  | .ok value => pure (.ok value)
  | .error (.port error) => pure (.error (err error))
  | .error (.panicked message) => Program.fail (.panicked message)

/-- The handler's result when the use-case ends with `result`. -/
def returned {α : Type} : Except Failure α → Except Failure (Except ApiError α)
  | .ok value => .ok (.ok value)
  | .error (.port error) => .ok (.error (err error))
  | .error (.panicked message) => .error (.panicked message)

theorem mapErr_run {α σ : Type} (handler : Handler ports σ) (program : UseCase α) (state : σ) :
    (mapErr program).run handler state =
      (returned (program.run handler state).1, (program.run handler state).2) := by
  rw [mapErr, Program.run_bind, Program.run_attempt]
  rcases program.run handler state with ⟨result, last⟩
  cases result with
  | ok value => rfl
  | error failure => cases failure <;> rfl

def ApiError.response (words : Wording) (error : ApiError) : Response :=
  ⟨error.status, words.toText (toJson error.error)⟩

/-- `Result<Json<T>, ApiError>` as a response. -/
def jsonResponse {α : Type} [Serde α] (words : Wording) : Except ApiError α → Response
  | .ok value => ⟨200, words.toText (toJson value)⟩
  | .error error => error.response words

/-- `Result<(), ApiError>` as a response: success has no body. -/
def emptyResponse (words : Wording) : Except ApiError Unit → Response
  | .ok _ => ⟨200, ""⟩
  | .error error => error.response words

theorem err_not_success (words : Wording) (error : PortError) :
    ((err error).response words).isSuccess = false := by
  have range := err_status_range error
  have large : ¬(err error).status < 300 := by omega
  simp [Response.isSuccess, ApiError.response, large]

/-- The largest body which the JSON extractor reads, in bytes. -/
def bodyLimit : ℕ := 2097152

/-- `Json<T>` as an extractor: the request, or the response which refuses it. What follows the value
in the body is not looked at. -/
def extract {ρ : Type} [Serde ρ] (words : Wording) (body : String) : Except Response ρ :=
  if bodyLimit < (utf8 body).length then
    .error ⟨413, words.rejection body⟩
  else
    match words.parseFront body with
    | none => .error ⟨400, words.rejection body⟩
    | some json =>
        match fromJson json with
        | none => .error ⟨422, words.rejection body⟩
        | some request => .ok request

theorem extract_toText {ρ : Type} [Serde ρ] {words : Wording} (request : ρ) :
    extract words (words.toText (toJson request)) =
      if bodyLimit < (utf8 (words.toText (toJson request))).length then
        .error ⟨413, words.rejection (words.toText (toJson request))⟩
      else
        .ok request := by
  simp [extract]

/-- Run a handler on the body which the extractor accepts. -/
def withBody {ρ : Type} [Serde ρ] (words : Wording) (body : String)
    (handler : ρ → UseCase Response) : UseCase Response :=
  match (extract words body : Except Response ρ) with
  | .error refused => pure refused
  | .ok request => handler request

end VaultMesh
