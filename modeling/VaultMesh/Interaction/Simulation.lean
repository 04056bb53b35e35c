import VaultMesh.Interaction.Interleaving

/-!
# Two handlers in lockstep

A handler simulates another one when both answer every permitted call alike and
keep a relation between their states. The relation may speak about the trace,
so it can carry what the calls made so far have established. One step at a time
is enough: programs which share either handler then make the same calls, get
the same answers and end with the same results under every schedule.
-/

namespace Interaction

namespace System

variable {I : Interface} {ε σ τ : Type}

theorem Lawful.imp {rule rule' : ℕ → List (Exchange I) → I.Call → Prop}
    {trace : List (ℕ × Exchange I)} (lawful : Lawful rule trace)
    (weaken : ∀ index past request, rule index past request → rule' index past request) :
    Lawful rule' trace :=
  fun before index made after split => weaken _ _ _ (lawful before index made after split)

/-- The same programs after the same exchanges, over related states. -/
structure Lockstep (related : σ → τ → List (ℕ × Exchange I) → Prop) (system : System I ε σ)
    (other : System I ε τ) : Prop where
  programs : system.programs = other.programs
  trace : system.trace = other.trace
  states : related system.state other.state system.trace

/-- A permitted call is answered alike, and the states stay related. -/
def Matches (handler : Handler I σ) (handler' : Handler I τ)
    (rule : ℕ → List (Exchange I) → I.Call → Prop)
    (related : σ → τ → List (ℕ × Exchange I) → Prop) : Prop :=
  ∀ state state' trace index request, Lawful rule trace → related state state' trace →
    rule index (pastOf index trace) request →
      (handler.answer state request).1 = (handler'.answer state' request).1 ∧
        related (handler.answer state request).2 (handler'.answer state' request).2
          (trace ++ [(index, ⟨request, (handler.answer state request).1⟩)])

variable {handler : Handler I σ} {handler' : Handler I τ}
  {rule : ℕ → List (Exchange I) → I.Call → Prop}
  {related : σ → τ → List (ℕ × Exchange I) → Prop}

/-- In lockstep and in the same state, two systems are the same. -/
theorem Lockstep.eq {same : σ → σ → List (ℕ × Exchange I) → Prop} {system other : System I ε σ}
    (lockstep : Lockstep same system other) (state : system.state = other.state) :
    system = other := by
  rcases lockstep with ⟨programs, trace, -⟩
  cases system
  cases other
  simp_all

theorem lockstep_start {state : σ} {state' : τ} (programs : List (Program I ε Unit))
    (initial : related state state' []) :
    Lockstep related (start state programs) (start state' programs) :=
  ⟨rfl, rfl, initial⟩

theorem Lockstep.step {system : System I ε σ} {other : System I ε τ}
    (lockstep : Lockstep related system other) (obedient : Obedient rule system)
    (matched : Matches handler handler' rule related) (index : ℕ) :
    Lockstep related (System.step handler system index) (System.step handler' other index) := by
  rcases step_cases handler system index with same | ⟨request, rest, found, called⟩
  · have idle : System.step handler' other index = other := by
      rcases step_cases handler' other index with sameToo | ⟨request, rest, found, -⟩
      · exact sameToo
      · rw [← lockstep.programs] at found
        have grown := congrArg (fun system => system.trace.length) same
        simp [step_of_call found, System.afterCall] at grown
    rw [same, idle]
    exact lockstep
  · have foundToo := found
    rw [lockstep.programs] at foundToo
    rcases matched _ _ _ _ _ obedient.lawful lockstep.states (obedient.permitted found) with
      ⟨answered, kept⟩
    rw [called, step_of_call foundToo]
    refine ⟨?_, ?_, kept⟩
    · simp only [System.afterCall, answered, lockstep.programs]
    · simp only [System.afterCall, answered, lockstep.trace]

/-- Programs which keep to their rules cannot tell the two handlers apart, in any interleaving. -/
theorem Lockstep.exec {system : System I ε σ} {other : System I ε τ}
    (lockstep : Lockstep related system other) (obedient : Obedient rule system)
    (matched : Matches handler handler' rule related) (schedule : List ℕ) :
    Lockstep related (System.exec handler system schedule)
      (System.exec handler' other schedule) := by
  induction schedule generalizing system other with
  | nil => exact lockstep
  | cons index rest ih => exact ih (lockstep.step obedient matched index) (obedient.step index)

end System

end Interaction
