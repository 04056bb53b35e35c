import VaultMesh.Http
import VaultMesh.Interaction.Interleaving
import VaultMesh.IntrusionLedger
import VaultMesh.Responder

/-!
# The active perimeter

Every request to the coordinator passes `guard`, which asks the responder whether
the fingerprint is blocked, runs the handler if it is not, and leaves a record in
the ledger for every rejection. `perimeterSimulate` strikes with one fingerprint
again and again. Both take the locks of the responder and of the ledger once for
every call, so any number of them may run in between each other; what they call is
an interface of its own, and the handlers behind the guard answer as they like.
-/

namespace VaultMesh

open Interaction

namespace Perimeter

/-- A request as the middleware sees it. -/
structure Incoming where
  headers : List (String × Bytes)
  path : String

/-- `HeaderValue::to_str`, for visible ASCII characters and tabs only. -/
def toStr (value : Bytes) : Option String :=
  if value.all fun byte => (32 ≤ byte && byte < 127) || byte == 9 then
    some (String.ofList (value.map fun byte => Char.ofNat byte.toNat))
  else
    none

def fingerprint (request : Incoming) : String :=
  ((request.headers.lookup "x-vault-fingerprint").bind toStr).getD "anonymous"

def classify : ℕ → String
  | 401 => "bad_or_forged_credential"
  | 403 => "authorization_violation"
  | 429 => "abuse_or_dos"
  | _ => "suspicious"

/-- The statuses which leave a footprint. -/
def isRejection (status : ℕ) : Bool :=
  status == 401 || status == 403 || status == 429

/-! ## Calls -/

/-- What the middleware and the simulation share with each other, and the handler behind. -/
inductive Call where
  | now
  | newId (kind : String)
  | isBlocked (fingerprint : String)
  | handle (request : Incoming)
  | assess (signalFingerprint attackClass : String)
  | record (entry : IntrusionRecord)

@[reducible]
def Call.Answer : Call → Type
  | .now => Timestamp
  | .newId _ => String
  | .isBlocked _ => Bool
  | .handle _ => Response
  | .assess _ _ => ThreatDecision
  | .record _ => Except Failure Unit

@[reducible]
def calls : Interface where
  Call := Call
  Answer := Call.Answer

abbrev Task (α : Type) := Program calls Failure α

abbrev Made := Exchange calls

def now : Task Timestamp :=
  .call .now fun answer => .done (.ok answer)

def newId (kind : String) : Task String :=
  .call (.newId kind) fun answer => .done (.ok answer)

def isBlocked (fingerprint : String) : Task Bool :=
  .call (.isBlocked fingerprint) fun answer => .done (.ok answer)

/-- `next.run(req)`. -/
def handle (request : Incoming) : Task Response :=
  .call (.handle request) fun answer => .done (.ok answer)

def assess (signalFingerprint attackClass : String) : Task ThreatDecision :=
  .call (.assess signalFingerprint attackClass) fun answer => .done (.ok answer)

/-- `let _ =` drops an error, but not a panic. -/
def dropped : Except Failure Unit → Except Failure Unit
  | .error (.panicked message) => .error (.panicked message)
  | _ => .ok ()

def record (entry : IntrusionRecord) : Task Unit :=
  .call (.record entry) fun answer => .done (dropped answer)

/-! ## The middleware -/

def blockedRecord (request : Incoming) (time : Timestamp) : IntrusionRecord where
  sourceIp := fingerprint request
  ja3 := some (fingerprint request)
  attackClass := "blocked_fingerprint"
  rejectionReason := "blocklisted; path=" ++ request.path
  atMillis := time.millis

def rejectionRecord (request : Incoming) (time : Timestamp) (status : ℕ)
    (decision : ThreatDecision) : IntrusionRecord where
  sourceIp := fingerprint request
  ja3 := some (fingerprint request)
  attackClass := classify status
  rejectionReason :=
    "status=" ++ toString status ++ " path=" ++ request.path ++ " decision=" ++ decision.debug
  atMillis := time.millis

/-- What a blocked caller gets, in compact JSON. -/
def refusal : Response :=
  ApiError.response plainWords ⟨403, "blocked", "fingerprint is blocked"⟩

def guard (request : Incoming) : Task Response := do
  let time ← now
  if ← isBlocked (fingerprint request) then
    record (blockedRecord request time)
    pure refusal
  else
    let response ← handle request
    if isRejection response.status then
      let decision ← assess (fingerprint request) (classify response.status)
      record (rejectionRecord request time response.status decision)
    pure response

/-! ## The simulation -/

structure SimulateRequest where
  fingerprint : Option String
  strikes : Option UInt32

structure SimulateResponse where
  fingerprint : String
  strikes : UInt32
  blocked : Bool
  decisions : List String

/-- `char::is_whitespace`. -/
def isWhitespace (char : Char) : Bool :=
  char == ' ' || (0x09 ≤ char.toNat && char.toNat ≤ 0x0d) || char.toNat == 0x85 ||
    char.toNat == 0xa0 || char.toNat == 0x1680 || (0x2000 ≤ char.toNat && char.toNat ≤ 0x200a) ||
    char.toNat == 0x2028 || char.toNat == 0x2029 || char.toNat == 0x202f ||
    char.toNat == 0x205f || char.toNat == 0x3000

/-- `trim().is_empty()`. -/
def isBlank (text : String) : Bool :=
  text.toList.all isWhitespace

/-- The number of strikes, `clamp(1, 20)` of the number asked for. -/
def SimulateRequest.count (request : SimulateRequest) : UInt32 :=
  min (max (request.strikes.getD 3) 1) 20

/-- The fingerprint to strike with, a new one unless one is given. -/
def SimulateRequest.attacker (request : SimulateRequest) : Task String :=
  match request.fingerprint.filter fun text => !isBlank text with
  | some text => pure text
  | none => newId "sim-attacker"

def simulatedRecord (fingerprint : String) (time : Timestamp) (decision : ThreatDecision) :
    IntrusionRecord where
  sourceIp := fingerprint
  ja3 := some fingerprint
  attackClass := "authorization_violation"
  rejectionReason := "simulated attack; decision=" ++ decision.debug
  atMillis := time.millis

def strike (fingerprint : String) (time : Timestamp) : ℕ → Task (List String)
  | 0 => pure []
  | count + 1 => do
      let decision ← assess fingerprint "authorization_violation"
      record (simulatedRecord fingerprint time decision)
      let decisions ← strike fingerprint time count
      pure (decision.debug :: decisions)

def perimeterSimulate (request : SimulateRequest) : Task SimulateResponse := do
  let fingerprint ← request.attacker
  let time ← now
  let decisions ← strike fingerprint time request.count.toNat
  let blocked ← isBlocked fingerprint
  pure ⟨fingerprint, request.count, blocked, decisions⟩

/-! ## What they share -/

/-- The state behind the calls, and the number of calls answered so far. -/
structure Shared where
  responder : EscalatingThreatResponder
  ledger : LedgerIntrusionSink
  tick : ℕ

def Shared.new (blockAfter : UInt32) : Shared :=
  ⟨.new blockAfter, .new, 0⟩

/-- What is chosen freely at every call: times, ids and what the handlers answer. -/
structure Outside where
  clock : ℕ → Timestamp
  uuid : ℕ → String
  respond : ℕ → Incoming → Response

def Shared.answer (outside : Outside) (sha256 : Bytes → Digest) (shared : Shared) :
    (call : Call) → call.Answer × Shared
  | .now => (outside.clock shared.tick, { shared with tick := shared.tick + 1 })
  | .newId kind =>
      (kind ++ "-" ++ outside.uuid shared.tick, { shared with tick := shared.tick + 1 })
  | .isBlocked fingerprint =>
      (shared.responder.isBlocked fingerprint, { shared with tick := shared.tick + 1 })
  | .handle request =>
      (outside.respond shared.tick request, { shared with tick := shared.tick + 1 })
  | .assess signalFingerprint attackClass =>
      let assessed := shared.responder.assess signalFingerprint attackClass
      (assessed.1, { shared with responder := assessed.2, tick := shared.tick + 1 })
  | .record entry =>
      match shared.ledger.append sha256 entry with
      | .ok grown => (.ok (), { shared with ledger := grown, tick := shared.tick + 1 })
      | .error failure => (.error failure, { shared with tick := shared.tick + 1 })

def perimeter (outside : Outside) (sha256 : Bytes → Digest) : Handler calls Shared where
  answer := Shared.answer outside sha256

/-- What the coordinator may be asked to do. -/
inductive Job where
  | guard (request : Incoming)
  | simulate (request : SimulateRequest)

def Job.program : Job → Task Unit
  | .guard request => (Perimeter.guard request).void
  | .simulate request => (perimeterSimulate request).void

/-! ## Inside the guard -/

/-- How far a guard has come, by the calls it has made, and what it returns if it has ended. -/
inductive Stage (request : Incoming) : List Made → Option (Except Failure Response) → Prop where
  | arrived : Stage request [] none
  | timed (time : Timestamp) : Stage request [⟨.now, time⟩] none
  | stopped (time : Timestamp) :
      Stage request [⟨.now, time⟩, ⟨.isBlocked (fingerprint request), true⟩] none
  | refused (time : Timestamp) (answer : Except Failure Unit) :
      Stage request
        [⟨.now, time⟩, ⟨.isBlocked (fingerprint request), true⟩,
          ⟨.record (blockedRecord request time), answer⟩]
        (some ((dropped answer).map fun _ => refusal))
  | admitted (time : Timestamp) :
      Stage request [⟨.now, time⟩, ⟨.isBlocked (fingerprint request), false⟩] none
  | served (time : Timestamp) (response : Response)
      (accepted : isRejection response.status = false) :
      Stage request
        [⟨.now, time⟩, ⟨.isBlocked (fingerprint request), false⟩, ⟨.handle request, response⟩]
        (some (.ok response))
  | rejected (time : Timestamp) (response : Response)
      (rejection : isRejection response.status = true) :
      Stage request
        [⟨.now, time⟩, ⟨.isBlocked (fingerprint request), false⟩, ⟨.handle request, response⟩]
        none
  | assessed (time : Timestamp) (response : Response) (decision : ThreatDecision)
      (rejection : isRejection response.status = true) :
      Stage request
        [⟨.now, time⟩, ⟨.isBlocked (fingerprint request), false⟩, ⟨.handle request, response⟩,
          ⟨.assess (fingerprint request) (classify response.status), decision⟩]
        none
  | recorded (time : Timestamp) (response : Response) (decision : ThreatDecision)
      (answer : Except Failure Unit) (rejection : isRejection response.status = true) :
      Stage request
        [⟨.now, time⟩, ⟨.isBlocked (fingerprint request), false⟩, ⟨.handle request, response⟩,
          ⟨.assess (fingerprint request) (classify response.status), decision⟩,
          ⟨.record (rejectionRecord request time response.status decision), answer⟩]
        (some ((dropped answer).map fun _ => response))

theorem stage_of_reaches {request : Incoming} {made : List Made} {rest : Task Response}
    (reaches : (guard request).Reaches made rest) : Stage request made rest.result? := by
  rcases reaches.of_call with ⟨rfl, rfl⟩ | ⟨time, _, rfl, afterNow⟩
  · exact .arrived
  rcases afterNow.of_call with ⟨rfl, rfl⟩ | ⟨isBlocked, _, rfl, afterCheck⟩
  · exact .timed time
  cases isBlocked with
  | true =>
      rcases afterCheck.of_call with ⟨rfl, rfl⟩ | ⟨answer, _, rfl, afterRecord⟩
      · exact .stopped time
      rcases Program.Reaches.of_done_bind afterRecord with ⟨rfl, rfl⟩
      exact .refused time answer
  | false =>
      rcases afterCheck.of_call with ⟨rfl, rfl⟩ | ⟨response, _, rfl, afterHandle⟩
      · exact .admitted time
      change (if isRejection response.status = true then _ else _ : Task Response).Reaches _ rest
        at afterHandle
      by_cases rejection : isRejection response.status = true
      · rw [if_pos rejection] at afterHandle
        rcases afterHandle.of_call with ⟨rfl, rfl⟩ | ⟨decision, _, rfl, afterAssess⟩
        · exact .rejected time response rejection
        rcases afterAssess.of_call with ⟨rfl, rfl⟩ | ⟨answer, _, rfl, afterRecord⟩
        · exact .assessed time response decision rejection
        rcases Program.Reaches.of_done_bind afterRecord with ⟨rfl, rfl⟩
        exact .recorded time response decision answer rejection
      · rw [if_neg rejection] at afterHandle
        rcases afterHandle.of_done with ⟨rfl, rfl⟩
        exact .served time response (by simpa using rejection)

/-! ## What is counted -/

/-- The fingerprint assessed. -/
def struck : Made → Option String
  | ⟨.assess signalFingerprint _, _⟩ => some signalFingerprint
  | _ => none

/-- The record entered, if recording did not panic. -/
def entered : Made → Option IntrusionRecord
  | ⟨.record entry, answer⟩ => (dropped answer).toOption.map fun _ => entry
  | _ => none

def strikes (made : List Made) : ℕ :=
  (made.filterMap struck).length

def entries (made : List Made) : ℕ :=
  (made.filterMap entered).length

theorem strikes_append (made : List Made) (last : Made) :
    strikes (made ++ [last]) = strikes made + (struck last).toList.length := by
  rw [strikes, strikes, List.filterMap_append, List.length_append]
  cases outcome : struck last <;> simp [outcome]

theorem entries_append (made : List Made) (last : Made) :
    entries (made ++ [last]) = entries made + (entered last).toList.length := by
  rw [entries, entries, List.filterMap_append, List.length_append]
  cases outcome : entered last <;> simp [outcome]

/-- All fingerprints assessed in a run, in order. -/
def assessedIn (trace : List (ℕ × Made)) : List String :=
  trace.filterMap fun event => struck event.2

def enteredIn (trace : List (ℕ × Made)) : List IntrusionRecord :=
  trace.filterMap fun event => entered event.2

/-- The guard has returned, and the caller was blocked or the handler rejected the request. -/
def Rejected (request : Incoming) (made : List Made) : Prop :=
  ∃ response, (guard request).Reaches made (.done (.ok response)) ∧
    ((⟨.isBlocked (fingerprint request), true⟩ : Made) ∈ made ∨
      isRejection response.status = true)

theorem result?_eq_some {rest : Task Response} {result : Except Failure Response}
    (ended : rest.result? = some result) : rest = .done result := by
  cases rest with
  | done other =>
      rcases Option.some.inj ended with rfl
      rfl
  | call request next => cases ended

open Classical in
theorem Stage.entries {request : Incoming} {made : List Made}
    {result : Option (Except Failure Response)} (stage : Stage request made result) :
    Perimeter.entries made =
      if ∃ response, result = some (.ok response) ∧
        ((⟨.isBlocked (fingerprint request), true⟩ : Made) ∈ made ∨
          isRejection response.status = true) then 1 else 0 := by
  cases stage with
  | refused time answer =>
      cases answer with
      | ok done =>
          rw [if_pos ⟨refusal, rfl, Or.inl (by simp)⟩]
          rfl
      | error failure =>
          cases failure with
          | port error =>
              rw [if_pos ⟨refusal, rfl, Or.inl (by simp)⟩]
              rfl
          | panicked message =>
              rw [if_neg (by simp [dropped, Except.map])]
              rfl
  | recorded time response decision answer rejection =>
      cases answer with
      | ok done =>
          rw [if_pos ⟨response, rfl, Or.inr rejection⟩]
          rfl
      | error failure =>
          cases failure with
          | port error =>
              rw [if_pos ⟨response, rfl, Or.inr rejection⟩]
              rfl
          | panicked message =>
              rw [if_neg (by simp [dropped, Except.map])]
              rfl
  | served time response accepted =>
      rw [if_neg (by simp [accepted])]
      rfl
  | _ =>
      rw [if_neg (by simp)]
      rfl

open Classical in
/-- A guard leaves one record exactly if it returns and the request was rejected. -/
theorem guard_entries {request : Incoming} {made : List Made} {rest : Task Response}
    (reaches : (guard request).Reaches made rest) :
    entries made = if Rejected request made then 1 else 0 := by
  rw [(stage_of_reaches reaches).entries]
  congr 1
  apply propext
  apply exists_congr
  intro response
  apply and_congr_left'
  constructor
  · intro ended
    rw [← result?_eq_some ended]
    exact reaches
  · intro returned
    rw [reaches.unique returned]
    rfl

/-! ## Inside the simulation -/

/-- Every strike but the one under way has left a record. -/
structure Striking (made : List Made) : Prop where
  lower : entries made ≤ strikes made
  upper : strikes made ≤ entries made + 1

/-- So many strikes are over. -/
structure Struck (count : ℕ) (made : List Made) : Prop where
  entries : entries made = count
  strikes : strikes made = count

theorem Struck.striking {count : ℕ} {made : List Made} (finished : Struck count made) :
    Striking made := by
  have entries := finished.entries
  have strikes := finished.strikes
  constructor <;> omega

/-- A call of another kind is no strike. -/
theorem Struck.append {count : ℕ} {made : List Made} (finished : Struck count made) {last : Made}
    (unstruck : struck last = none) (unentered : entered last = none) :
    Struck count (made ++ [last]) := by
  constructor
  · rw [entries_append, unentered]
    exact finished.entries
  · rw [strikes_append, unstruck]
    exact finished.strikes

theorem strike_obeys (fingerprint : String) (time : Timestamp) (count : ℕ) {before : ℕ}
    {past : List Made} (finished : Struck before past) :
    (strike fingerprint time count).Obeys (fun made _ => Striking made) past
      fun made result => Striking made ∧
        ∀ decisions, result = .ok decisions → Struck (before + count) made := by
  induction count generalizing before past with
  | zero => exact ⟨finished.striking, fun _ _ => finished⟩
  | succ count ih =>
      refine Program.Obeys.call_bind finished.striking (by rintro _ _ ⟨⟩) ?_
      intro answer decision _
      have entriesNow : entries (past ++
          [⟨.assess fingerprint "authorization_violation", answer⟩]) = before := by
        rw [entries_append]
        exact finished.entries
      have strikesNow : strikes (past ++
          [⟨.assess fingerprint "authorization_violation", answer⟩]) = before + 1 := by
        rw [strikes_append, finished.strikes]
        rfl
      generalize past ++ [⟨.assess fingerprint "authorization_violation", answer⟩] = judged
        at entriesNow strikesNow
      have strikesLater (noted : Except Failure Unit) : strikes (judged ++
          [⟨.record (simulatedRecord fingerprint time decision), noted⟩]) = before + 1 := by
        rw [strikes_append]
        exact strikesNow
      refine Program.Obeys.call_bind ⟨by omega, by omega⟩ ?_ ?_
      · intro noted failure failed
        have entriesLater : entries (judged ++
            [⟨.record (simulatedRecord fingerprint time decision), noted⟩]) = before := by
          rw [entries_append, entriesNow, entered, failed]
          rfl
        have strikesToo := strikesLater noted
        exact ⟨⟨by omega, by omega⟩, by simp⟩
      · intro noted done kept
        have entriesLater : entries (judged ++
            [⟨.record (simulatedRecord fingerprint time decision), noted⟩]) = before + 1 := by
          rw [entries_append, entriesNow, entered, kept]
          rfl
        refine (ih ⟨entriesLater, strikesLater noted⟩).bind ?_ ?_
        · rintro suffix failure ⟨striking, _⟩
          exact ⟨striking, by simp⟩
        · rintro suffix decisions ⟨striking, ended⟩
          refine ⟨striking, ?_⟩
          intro _ _
          rw [Nat.add_comm count, ← Nat.add_assoc]
          exact ended decisions rfl

theorem perimeterSimulate_obeys (request : SimulateRequest) :
    (perimeterSimulate request).Obeys (fun made _ => Striking made) [] fun made result =>
      Striking made ∧ ∀ response, result = .ok response → Struck request.count.toNat made := by
  have start : Struck 0 [] := ⟨rfl, rfl⟩
  have chosen : request.attacker.Obeys (fun made _ => Striking made) []
      fun made result => Struck 0 made ∧ ∃ text, result = .ok text := by
    unfold SimulateRequest.attacker
    split
    · exact ⟨start, _, rfl⟩
    · exact ⟨start.striking, fun _ => ⟨⟨rfl, rfl⟩, _, rfl⟩⟩
  refine chosen.bind ?_ ?_
  · rintro _ _ ⟨_, _, impossible⟩
    cases impossible
  rintro made fingerprint ⟨unstruck, _⟩
  refine Program.Obeys.call_bind unstruck.striking (by rintro _ _ ⟨⟩) ?_
  intro answer time _
  refine (strike_obeys fingerprint time request.count.toNat (unstruck.append rfl rfl)).bind ?_ ?_
  · rintro suffix failure ⟨striking, _⟩
    exact ⟨striking, by simp⟩
  rintro suffix decisions ⟨striking, ended⟩
  have finished := ended decisions rfl
  rw [Nat.zero_add] at finished
  refine Program.Obeys.call_bind striking (by rintro _ _ ⟨⟩) ?_
  intro answer blocked _
  have still := finished.append (rfl : struck ⟨.isBlocked fingerprint, answer⟩ = none) rfl
  exact ⟨still.striking, fun _ _ => still⟩

end Perimeter

end VaultMesh
