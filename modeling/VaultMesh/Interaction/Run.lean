import VaultMesh.Interaction.Program

/-!
# Running one program against a handler

A handler answers each call from a state and updates the state. `Program.run`
executes a program alone, `Program.visits` lists the states in which it issued
its calls, and `Program.transcript` the exchanges it made. Two rules carry
facts from one exchange to a whole run: an invariant kept by every permitted
exchange, and the conclusion of `Program.Obeys` at the transcript of the run.

`Handler.disturbed` lets something else act on the state before every call, and
`Handler.failing` answers some of the calls in the handler's place.
-/

namespace Interaction

/-- Who answers the calls: each answer may read and change the state. -/
structure Handler (I : Interface) (σ : Type) where
  answer : σ → (request : I.Call) → I.Answer request × σ

/-- Let `event` act on the state before every call is answered. -/
def Handler.disturbed {I : Interface} {σ : Type} (handler : Handler I σ) (event : σ → σ) :
    Handler I σ where
  answer state request := handler.answer (event state) request

/-- Where `fault` has an answer, this is the answer. -/
def Handler.failing {I : Interface} {σ : Type} (handler : Handler I σ)
    (fault : σ → (request : I.Call) → Option (I.Answer request × σ)) : Handler I σ where
  answer state request := (fault state request).getD (handler.answer state request)

namespace Program

variable {I : Interface} {ε α β σ : Type} (handler : Handler I σ)

def run : Program I ε α → σ → Except ε α × σ
  | .done result, state => (result, state)
  | .call request rest, state =>
      (rest (handler.answer state request).1).run (handler.answer state request).2

/-- The states in which the program issued its calls, in order. -/
def visits : Program I ε α → σ → List σ
  | .done _, _ => []
  | .call request rest, state =>
      state :: (rest (handler.answer state request).1).visits (handler.answer state request).2

def transcript : Program I ε α → σ → List (Exchange I)
  | .done _, _ => []
  | .call request rest, state =>
      ⟨request, (handler.answer state request).1⟩ ::
        (rest (handler.answer state request).1).transcript (handler.answer state request).2

variable {handler}

@[simp]
theorem run_done (result : Except ε α) (state : σ) :
    (Program.done result : Program I ε α).run handler state = (result, state) :=
  rfl

theorem run_done_of_eq {outcome result : Except ε α} (same : outcome = result) (state : σ) :
    (Program.done outcome : Program I ε α).run handler state = (result, state) := by
  rw [same, run_done]

@[simp]
theorem run_pure (value : α) (state : σ) :
    (pure value : Program I ε α).run handler state = (.ok value, state) :=
  rfl

@[simp]
theorem run_call (request : I.Call) (rest : I.Answer request → Program I ε α) (state : σ) :
    (Program.call request rest).run handler state =
      (rest (handler.answer state request).1).run handler (handler.answer state request).2 :=
  rfl

@[simp]
theorem visits_pure (value : α) (state : σ) :
    (pure value : Program I ε α).visits handler state = [] :=
  rfl

theorem run_bind (program : Program I ε α) (next : α → Program I ε β) (state : σ) :
    (program >>= next).run handler state =
      match program.run handler state with
      | (.ok value, state') => (next value).run handler state'
      | (.error error, state') => (.error error, state') := by
  induction program generalizing state with
  | done result => cases result <;> rfl
  | call request rest ih =>
      simp only [call_bind, run_call]
      exact ih _ _

theorem run_bind_of_ok {program : Program I ε α} {state state' : σ} {value : α}
    (first : program.run handler state = (.ok value, state')) (next : α → Program I ε β) :
    (program >>= next).run handler state = (next value).run handler state' := by
  rw [run_bind, first]

theorem run_bind_of_error {program : Program I ε α} {state state' : σ} {error : ε}
    (first : program.run handler state = (.error error, state')) (next : α → Program I ε β) :
    (program >>= next).run handler state = (.error error, state') := by
  rw [run_bind, first]

/-- A run which only transforms what its first part returns. -/
theorem run_bind_pure (program : Program I ε α) (next : α → β) (state : σ) :
    (program >>= fun value => pure (next value)).run handler state =
      ((program.run handler state).1.map next, (program.run handler state).2) := by
  rw [run_bind]
  rcases program.run handler state with ⟨result, last⟩
  cases result <;> rfl

/-- A sequence which ends well ran its first part to a value. -/
theorem run_bind_eq_ok {program : Program I ε α} {next : α → Program I ε β} {state last : σ}
    {value : β} (ended : (program >>= next).run handler state = (.ok value, last)) :
    ∃ middle state', program.run handler state = (.ok middle, state') ∧
      (next middle).run handler state' = (.ok value, last) := by
  rw [run_bind] at ended
  rcases reached : program.run handler state with ⟨result, state'⟩
  cases result with
  | ok middle =>
      rw [reached] at ended
      exact ⟨middle, state', rfl, ended⟩
  | error error =>
      rw [reached] at ended
      simp at ended

theorem run_attempt (program : Program I ε α) (state : σ) :
    program.attempt.run handler state =
      (.ok (program.run handler state).1, (program.run handler state).2) := by
  induction program generalizing state with
  | done result => rfl
  | call request rest ih =>
      simp only [attempt, run_call]
      exact ih _ _

theorem visits_bind (program : Program I ε α) (next : α → Program I ε β) (state : σ) :
    (program >>= next).visits handler state =
      program.visits handler state ++
        match program.run handler state with
        | (.ok value, state') => (next value).visits handler state'
        | (.error _, _) => [] := by
  induction program generalizing state with
  | done result => cases result <;> rfl
  | call request rest ih =>
      simp only [call_bind, visits, run_call, List.cons_append, List.cons.injEq, true_and]
      exact ih _ _

theorem visits_bind_of_ok {program : Program I ε α} {state state' : σ} {value : α}
    (first : program.run handler state = (.ok value, state')) (next : α → Program I ε β) :
    (program >>= next).visits handler state =
      program.visits handler state ++ (next value).visits handler state' := by
  rw [visits_bind, first]

theorem transcript_bind (program : Program I ε α) (next : α → Program I ε β) (state : σ) :
    (program >>= next).transcript handler state =
      program.transcript handler state ++
        match program.run handler state with
        | (.ok value, state') => (next value).transcript handler state'
        | (.error _, _) => [] := by
  induction program generalizing state with
  | done result => cases result <;> rfl
  | call request rest ih =>
      simp only [call_bind, transcript, run_call, List.cons_append, List.cons.injEq, true_and]
      exact ih _ _

theorem transcript_bind_of_ok {program : Program I ε α} {state state' : σ} {value : α}
    (first : program.run handler state = (.ok value, state')) (next : α → Program I ε β) :
    (program >>= next).transcript handler state =
      program.transcript handler state ++ (next value).transcript handler state' := by
  rw [transcript_bind, first]

/-- Every exchange of a run was answered in one of the states visited. -/
theorem exists_visit_of_mem_transcript {program : Program I ε α} {state : σ} {made : Exchange I}
    (present : made ∈ program.transcript handler state) :
    ∃ moment ∈ program.visits handler state, made.2 = (handler.answer moment made.1).1 := by
  induction program generalizing state with
  | done result => simp [transcript] at present
  | call request rest ih =>
      simp only [transcript, List.mem_cons] at present
      rcases present with rfl | later
      · exact ⟨state, List.mem_cons_self, rfl⟩
      · rcases ih _ later with ⟨moment, visited, answered⟩
        exact ⟨moment, List.mem_cons_of_mem _ visited, answered⟩

/-- The conclusion of `Obeys` holds of the transcript of every run. -/
theorem Obeys.run {rule : List (Exchange I) → I.Call → Prop} {program : Program I ε α}
    {past : List (Exchange I)} {post : List (Exchange I) → Except ε α → Prop}
    (obeys : program.Obeys rule past post) (handler : Handler I σ) (state : σ) :
    post (past ++ program.transcript handler state) (program.run handler state).1 := by
  induction program generalizing past state with
  | done result => simpa [transcript] using obeys
  | call request rest ih =>
      have later := ih _ (obeys.2 (handler.answer state request).1)
        (handler.answer state request).2
      simpa [transcript] using later

/-- Every exchange of a run was permitted after those made before it. -/
theorem Obeys.permitted_after {rule : List (Exchange I) → I.Call → Prop} {program : Program I ε α}
    {past : List (Exchange I)} {post : List (Exchange I) → Except ε α → Prop}
    (obeys : program.Obeys rule past post) (handler : Handler I σ) (state : σ)
    {made : Exchange I} (present : made ∈ program.transcript handler state) :
    ∃ before, before ⊆ past ++ program.transcript handler state ∧ rule before made.1 := by
  induction program generalizing past state with
  | done result => simp [transcript] at present
  | call request rest ih =>
      simp only [transcript, List.mem_cons] at present
      rcases present with rfl | later
      · exact ⟨past, List.subset_append_left _ _, obeys.1⟩
      · rcases ih _ (obeys.2 _) _ later with ⟨before, within, permitted⟩
        refine ⟨before, ?_, permitted⟩
        simpa [transcript] using within

/-- Every exchange of a run was permitted when it was made. -/
theorem Obeys.permitted {rule : List (Exchange I) → I.Call → Prop} {program : Program I ε α}
    {past : List (Exchange I)} {post : List (Exchange I) → Except ε α → Prop}
    (obeys : program.Obeys rule past post) (handler : Handler I σ) (state : σ)
    {made : Exchange I} (present : made ∈ program.transcript handler state) :
    ∃ before, rule before made.1 := by
  rcases obeys.permitted_after handler state present with ⟨before, -, permitted⟩
  exact ⟨before, permitted⟩

/--
An invariant of the exchanges and the state which every permitted call
preserves holds throughout the run of an obedient program.
-/
theorem Obeys.run_invariant {rule : List (Exchange I) → I.Call → Prop}
    (invariant : List (Exchange I) → σ → Prop) {program : Program I ε α}
    {past : List (Exchange I)} {post : List (Exchange I) → Except ε α → Prop}
    (obeys : program.Obeys rule past post) (handler : Handler I σ) (state : σ)
    (start : invariant past state)
    (preserved : ∀ past request state, rule past request → invariant past state →
      invariant (past ++ [⟨request, (handler.answer state request).1⟩])
        (handler.answer state request).2) :
    invariant (past ++ program.transcript handler state) (program.run handler state).2 ∧
      ∀ visited ∈ program.visits handler state, ∃ before, invariant before visited := by
  induction program generalizing past state with
  | done result => exact ⟨by simpa [transcript] using start, by simp [visits]⟩
  | call request rest ih =>
      have next := preserved past request state obeys.1 start
      rcases ih _ (obeys.2 (handler.answer state request).1) _ next with ⟨atEnd, onTheWay⟩
      refine ⟨by simpa [transcript] using atEnd, ?_⟩
      intro visited visitedMem
      simp only [visits, List.mem_cons] at visitedMem
      rcases visitedMem with rfl | later
      · exact ⟨past, start⟩
      · exact onTheWay visited later

end Program

end Interaction
