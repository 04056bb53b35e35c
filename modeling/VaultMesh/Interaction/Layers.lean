import VaultMesh.Interaction.Interleaving

/-!
# Calls carried out by calls of a lower interface

A call of one interface may be carried out by a program over another one, so
that calls of other programs come in between. If only the last call of each
such program does anything that others can see, then the layer above runs as
if its calls were atomic: every interleaving of the lower calls is one of the
upper calls, each of which takes place at the last of its lower calls.

What is chosen freely at a call is chosen by its time, and the lower layer
makes more calls. So above there is one more program, which only lets time
pass.
-/

namespace Interaction

namespace Program

variable {I J : Interface} {ε α : Type}

/-- Every call is carried out by the program which stands for it. -/
def carriedOut (carry : (request : I.Call) → Program J ε (I.Answer request)) :
    Program I ε α → Program J ε α
  | .done result => .done result
  | .call request rest => carry request >>= fun answer => (rest answer).carriedOut carry

variable {carry : (request : I.Call) → Program J ε (I.Answer request)}

/-- A program and how far the layer below has got with it. -/
inductive Underway (carry : (request : I.Call) → Program J ε (I.Answer request))
    (past : List (Exchange J)) : Program I ε α → Program J ε α → Prop where
  | ended (result : Except ε α) : Underway carry past (.done result) (.done result)
  | within (request : I.Call) (rest : I.Answer request → Program I ε α)
      {made : List (Exchange J)} {later : Program J ε (I.Answer request)}
      (reaches : (carry request).Reaches made later) (subset : made ⊆ past)
      (waits : later.result? = none) :
      Underway carry past (.call request rest)
        (later >>= fun answer => (rest answer).carriedOut carry)

/-- A rule which each call is carried out by is followed by the whole. -/
theorem obeys_carriedOut {rule : List (Exchange J) → J.Call → Prop}
    (carried : ∀ request past, (carry request).Obeys rule past fun _ _ => True)
    (program : Program I ε α) (past : List (Exchange J)) :
    (program.carriedOut carry).Obeys rule past fun _ _ => True := by
  induction program generalizing past with
  | done result => trivial
  | call request rest ih =>
      refine (carried request past).bind ?_ ?_
      · intro suffix error _
        trivial
      · intro suffix answer _
        exact ih answer (past ++ suffix)

theorem underway_carriedOut (asks : ∀ request, (carry request).result? = none)
    (past : List (Exchange J)) (program : Program I ε α) :
    Underway carry past program (program.carriedOut carry) := by
  cases program with
  | done result => exact .ended result
  | call request rest => exact .within request rest (.refl _) (List.nil_subset _) (asks request)

theorem Underway.mono {past past' : List (Exchange J)} {program : Program I ε α}
    {lower : Program J ε α} (underway : Underway carry past program lower)
    (grown : past ⊆ past') : Underway carry past' program lower := by
  cases underway with
  | ended result => exact .ended result
  | within request rest reaches subset waits =>
      exact .within request rest reaches (List.Subset.trans subset grown) waits

/-- Both have ended, or neither has. -/
theorem Underway.done_iff {past : List (Exchange J)} {program : Program I ε α}
    {lower : Program J ε α} (underway : Underway carry past program lower)
    (result : Except ε α) : lower = .done result ↔ program = .done result := by
  cases underway with
  | ended ended =>
      constructor <;>
        rintro ⟨⟩ <;>
        rfl
  | @within request rest made later reaches subset waits =>
      constructor
      · intro ended
        cases later with
        | done value => cases waits
        | call call next => cases ended
      · rintro ⟨⟩

/-- A lower call is made for a call of the program. -/
theorem Underway.of_call {past : List (Exchange J)} {program : Program I ε α} {call : J.Call}
    {rest : J.Answer call → Program J ε α}
    (underway : Underway carry past program (.call call rest)) :
    ∃ request above made next, program = .call request above ∧
      (carry request).Reaches made (.call call next) ∧ made ⊆ past ∧
        rest = fun answer => next answer >>= fun value => (above value).carriedOut carry := by
  generalize same : Program.call call rest = lower at underway
  cases underway with
  | ended result => cases same
  | @within request above made later reaches subset waits =>
      cases later with
      | done value => cases waits
      | call asked next =>
          rw [call_bind] at same
          cases same
          exact ⟨request, above, made, next, rfl, reaches, subset, rfl⟩

end Program

namespace System

variable {I J : Interface} {ε σ τ : Type}

/-- A program which lets time pass. -/
def pauses (pause : I.Call) : ℕ → Program I ε Unit
  | 0 => pure ()
  | count + 1 => .call pause fun _ => pauses pause count

/-- One lower call: it is the last one for the upper call, which takes place now, or nothing is
seen of it above. The whole trace of the run below is known, since what is chosen above may
depend on it. -/
structure Carries (handler : Handler J σ) (direct : Handler I τ)
    (carry : (request : I.Call) → Program J ε (I.Answer request)) (pause : I.Call)
    (whole : List (ℕ × Exchange J)) (related : σ → τ → List (ℕ × Exchange J) → Prop) : Prop where
  asks : ∀ request, (carry request).result? = none
  step : ∀ state mirror trace index request made call next, related state mirror trace →
    (carry request).Reaches made (.call call next) → made ⊆ pastOf index trace →
    trace ++ [(index, ⟨call, (handler.answer state call).1⟩)] <+: whole →
    (next (handler.answer state call).1 = .done (.ok (direct.answer mirror request).1) ∧
        related (handler.answer state call).2 (direct.answer mirror request).2
          (trace ++ [(index, ⟨call, (handler.answer state call).1⟩)])) ∨
      ((next (handler.answer state call).1).result? = none ∧
        related (handler.answer state call).2 (direct.answer mirror pause).2
          (trace ++ [(index, ⟨call, (handler.answer state call).1⟩)]))

/-- The same programs in both layers; above there is also time to pass. -/
structure Abreast (carry : (request : I.Call) → Program J ε (I.Answer request)) (pause : I.Call)
    (left : ℕ) (related : σ → τ → List (ℕ × Exchange J) → Prop) (system : System J ε σ)
    (above : System I ε τ) : Prop where
  states : related system.state above.state system.trace
  programs : ∀ index, index < system.programs.length → ∃ program lower,
    above.programs[index]? = some program ∧ system.programs[index]? = some lower ∧
      program.Underway carry (pastOf index system.trace) lower
  pausing : above.programs[system.programs.length]? = some (pauses pause left)

variable {handler : Handler J σ} {direct : Handler I τ}
  {carry : (request : I.Call) → Program J ε (I.Answer request)} {pause : I.Call} {left : ℕ}
  {whole : List (ℕ × Exchange J)} {related : σ → τ → List (ℕ × Exchange J) → Prop}
  {system : System J ε σ} {above : System I ε τ}

theorem abreast_start (asks : ∀ request, (carry request).result? = none) {state : σ} {mirror : τ}
    (programs : List (Program I ε Unit)) (initial : related state mirror []) (left : ℕ) :
    Abreast carry pause left related (start state (programs.map (Program.carriedOut carry)))
      (start mirror (programs ++ [pauses pause left])) := by
  refine ⟨initial, ?_, ?_⟩
  · intro index inside
    have listed : index < programs.length := by simpa [start] using inside
    refine ⟨programs[index], programs[index].carriedOut carry, ?_, ?_,
      Program.underway_carriedOut asks _ _⟩
    · exact (List.getElem?_append_left listed).trans (List.getElem?_eq_getElem listed)
    · simp [start, listed]
  · simp [start]

theorem Abreast.ended_iff (abreast : Abreast carry pause left related system above) {index : ℕ}
    (inside : index < system.programs.length) (result : Except ε Unit) :
    system.Ended index result ↔ above.Ended index result := by
  rcases abreast.programs index inside with ⟨program, lower, found, foundLower, underway⟩
  rw [Ended, Ended, found, foundLower, Option.some.injEq, Option.some.injEq]
  exact underway.done_iff result

/-! ## One turn -/

/-- The programs after a turn of one of them, in both layers or below only. -/
theorem Abreast.programs_afterCall (abreast : Abreast carry pause left related system above)
    {index : ℕ} {call : J.Call} {rest : J.Answer call → Program J ε Unit}
    (found : system.programs[index]? = some (.call call rest)) {program : Program I ε Unit}
    {programs : List (Program I ε Unit)} (here : programs[index]? = some program)
    (others : ∀ other, other ≠ index → other < system.programs.length →
      programs[other]? = above.programs[other]?)
    (underway : program.Underway carry
      (pastOf index (afterCall handler system index call rest).trace)
      (rest (handler.answer system.state call).1)) :
    ∀ other, other < (afterCall handler system index call rest).programs.length →
      ∃ program lower, programs[other]? = some program ∧
        (afterCall handler system index call rest).programs[other]? = some lower ∧
          program.Underway carry
            (pastOf other (afterCall handler system index call rest).trace) lower := by
  intro other inside
  rw [afterCall, List.length_set] at inside
  by_cases mine : other = index
  · subst mine
    exact ⟨program, _, here, afterCall_programs_self found, underway⟩
  · rcases abreast.programs other inside with ⟨same, lower, foundSame, foundLower, stays⟩
    refine ⟨same, lower, (others other mine inside).trans foundSame, ?_, ?_⟩
    · rw [afterCall, List.getElem?_set_ne (Ne.symm mine)]
      exact foundLower
    · rw [afterCall, pastOf_append_of_ne (Ne.symm mine)]
      exact stays

/-- A turn below is a turn of the same program above, or time passes above, or nothing happens in
either. -/
theorem Carries.step_abreast (carries : Carries handler direct carry pause whole related)
    (abreast : Abreast carry pause (left + 1) related system above) (index : ℕ)
    (grown : (System.step handler system index).trace <+: whole) :
    ∃ turns left', left ≤ left' ∧
      Abreast carry pause left' related (System.step handler system index)
        (System.exec direct above turns) := by
  rcases step_cases handler system index with same | ⟨call, rest, found, stepped⟩
  · rw [same]
    exact ⟨[], left + 1, Nat.le_succ left, abreast⟩
  have inside : index < system.programs.length := (List.getElem?_eq_some_iff.mp found).1
  rcases abreast.programs index inside with ⟨program, lower, foundAbove, foundBelow, underway⟩
  rcases Option.some.inj (foundBelow.symm.trans found) with rfl
  rcases underway.of_call with ⟨request, restAbove, made, next, rfl, reaches, subset, rfl⟩
  have past : pastOf index (afterCall handler system index call
      fun answer => next answer >>= fun value => (restAbove value).carriedOut carry).trace =
        pastOf index system.trace ++ [⟨call, (handler.answer system.state call).1⟩] := by
    rw [afterCall, pastOf_append_self]
  have apart : index ≠ system.programs.length := Nat.ne_of_lt inside
  rw [stepped] at grown ⊢
  rcases carries.step _ _ _ _ _ _ _ _ abreast.states reaches subset grown with
    ⟨last, states⟩ | ⟨waits, states⟩
  · -- the call takes place above
    refine ⟨[index], left + 1, Nat.le_succ left, ?_⟩
    have aboveStep : exec direct above [index] = afterCall direct above index request restAbove :=
      step_of_call foundAbove
    rw [aboveStep]
    refine ⟨states, ?_, ?_⟩
    · refine abreast.programs_afterCall found (afterCall_programs_self foundAbove) ?_ ?_
      · intro other different _
        exact List.getElem?_set_ne (Ne.symm different)
      · rw [last]
        exact Program.underway_carriedOut carries.asks _ _
    · simp only [afterCall, List.length_set]
      rw [List.getElem?_set_ne apart]
      exact abreast.pausing
  · -- above, only time passes
    refine ⟨[system.programs.length], left, le_rfl, ?_⟩
    have aboveStep : exec direct above [system.programs.length] =
        afterCall direct above system.programs.length pause fun _ => pauses pause left :=
      step_of_call abreast.pausing
    rw [aboveStep]
    refine ⟨states, ?_, ?_⟩
    · refine abreast.programs_afterCall found
        ((List.getElem?_set_ne (Ne.symm apart)).trans foundAbove) ?_ ?_
      · intro other _ insideToo
        exact List.getElem?_set_ne (Ne.symm (Nat.ne_of_lt insideToo))
      · rw [past]
        refine .within request restAbove (reaches.snoc _) ?_ waits
        exact List.append_subset.mpr
          ⟨List.subset_append_of_subset_left _ subset, List.subset_append_right _ _⟩
    · simp only [afterCall, List.length_set]
      exact List.getElem?_set_self (List.getElem?_eq_some_iff.mp abreast.pausing).1

/-! ## The run -/

/-- Every run below is a run above, in which each call takes place at the last of its lower
calls. -/
theorem Carries.exec_abreast (carries : Carries handler direct carry pause whole related)
    (schedule : List ℕ) (abreast : Abreast carry pause left related system above)
    (enough : schedule.length ≤ left)
    (grown : (System.exec handler system schedule).trace <+: whole) :
    ∃ turns left', Abreast carry pause left' related (System.exec handler system schedule)
      (System.exec direct above turns) := by
  induction schedule generalizing system above left with
  | nil => exact ⟨[], left, abreast⟩
  | cons index schedule ih =>
      cases left with
      | zero => cases enough
      | succ left =>
          have later : (System.step handler system index).trace <+: whole :=
            (trace_prefix_exec handler _ schedule).trans grown
          rcases carries.step_abreast abreast index later with ⟨first, middle, kept, stepped⟩
          rcases ih stepped (le_trans (Nat.le_of_succ_le_succ enough) kept) grown with
            ⟨rest, last, reached⟩
          refine ⟨first ++ rest, last, ?_⟩
          rw [exec_append]
          exact reached

theorem Carries.exec_start (carries : Carries handler direct carry pause whole related)
    {state : σ} {mirror : τ} (programs : List (Program I ε Unit))
    (initial : related state mirror []) (schedule : List ℕ)
    (grown : (System.exec handler (start state (programs.map (Program.carriedOut carry)))
      schedule).trace <+: whole) :
    ∃ turns left, Abreast carry pause left related
      (System.exec handler (start state (programs.map (Program.carriedOut carry))) schedule)
      (System.exec direct (start mirror (programs ++ [pauses pause schedule.length])) turns) :=
  carries.exec_abreast schedule (abreast_start carries.asks programs initial schedule.length)
    le_rfl grown

end System

end Interaction
