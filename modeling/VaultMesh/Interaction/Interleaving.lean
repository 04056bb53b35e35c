import Mathlib.Algebra.BigOperators.Group.Finset.Piecewise
import Mathlib.Data.List.Induction
import VaultMesh.Interaction.Run

/-!
# Interleaved programs

Any number of programs share one handler. A schedule picks, at every step, the
program whose next call is answered, so the calls are the atomic actions and
everything between two calls of a program is local to it. The trace records
which program made which exchange.

Invariants of all interleavings are proved in two parts. `System.Obedient`
says that every program follows its own rule from the exchanges it has made;
it follows once and for all from `Program.Obeys` of the programs started.
`System.exec_invariant` then asks for one step only, where the call made is
known to be permitted by the rule. Schedules may be restricted by a condition
on the system before each step (`System.Along`).
-/

namespace Interaction

/-- Programs sharing a state, with the exchanges made so far. -/
structure System (I : Interface) (ε σ : Type) where
  state : σ
  programs : List (Program I ε Unit)
  trace : List (ℕ × Exchange I)

def pastOf {I : Interface} (index : ℕ) (trace : List (ℕ × Exchange I)) : List (Exchange I) :=
  trace.filterMap fun event => if event.1 = index then some event.2 else none

section PastOf

variable {I : Interface}

@[simp]
theorem pastOf_append_self (index : ℕ) (trace : List (ℕ × Exchange I)) (made : Exchange I) :
    pastOf index (trace ++ [(index, made)]) = pastOf index trace ++ [made] := by
  simp [pastOf]

theorem pastOf_append_of_ne {index other : ℕ} (different : other ≠ index)
    (trace : List (ℕ × Exchange I)) (made : Exchange I) :
    pastOf index (trace ++ [(other, made)]) = pastOf index trace := by
  simp [pastOf, different]

theorem mem_pastOf {index : ℕ} {trace : List (ℕ × Exchange I)} {made : Exchange I} :
    made ∈ pastOf index trace ↔ (index, made) ∈ trace := by
  simp only [pastOf, List.mem_filterMap]
  constructor
  · rintro ⟨⟨other, exchange⟩, present, kept⟩
    by_cases same : other = index
    · subst same
      simp only [if_true, Option.some.injEq] at kept
      subst kept
      exact present
    · simp [same] at kept
  · intro present
    exact ⟨(index, made), present, by simp⟩

/-- Counting along the trace is counting program by program. -/
theorem length_filterMap_eq_sum {α : Type} (kind : Exchange I → Option α) {count : ℕ}
    {trace : List (ℕ × Exchange I)} (within : ∀ event ∈ trace, event.1 < count) :
    (trace.filterMap fun event => kind event.2).length =
      ∑ index ∈ Finset.range count, ((pastOf index trace).filterMap kind).length := by
  induction trace using List.reverseRecOn with
  | nil => simp [pastOf]
  | append_singleton trace event ih =>
      have inside : event.1 ∈ Finset.range count := by
        simpa using within event (by simp)
      have each : ∀ index, ((pastOf index (trace ++ [event])).filterMap kind).length =
          ((pastOf index trace).filterMap kind).length +
            if event.1 = index then ([event.2].filterMap kind).length else 0 := by
        intro index
        by_cases mine : event.1 = index
        · subst mine
          rw [pastOf_append_self, List.filterMap_append, List.length_append, if_pos rfl]
        · rw [pastOf_append_of_ne mine, if_neg mine, Nat.add_zero]
      simp only [each, Finset.sum_add_distrib, Finset.sum_ite_eq, inside, if_true]
      rw [← ih fun other present => within other (List.mem_append_left _ present)]
      rw [List.filterMap_append, List.length_append]
      simp only [List.filterMap_cons, List.filterMap_nil]

end PastOf

/-- What holds at every event of a trace, after another event. -/
theorem forall_split_append {α : Type} {law : List α → α → Prop} {trace : List α} {last : α}
    (held : ∀ before event after, trace = before ++ event :: after → law before event)
    (holds : law trace last) :
    ∀ before event after, trace ++ [last] = before ++ event :: after → law before event := by
  intro before event after split
  rcases List.eq_nil_or_concat after with rfl | ⟨front, final, rfl⟩
  · rcases List.append_inj' split rfl with ⟨rfl, same⟩
    rcases List.singleton_inj.mp same with rfl
    exact holds
  · have moved : trace ++ [last] = (before ++ event :: front) ++ [final] := by
      rw [split]
      simp
    exact held before event front (List.append_inj' moved rfl).1

namespace System

variable {I : Interface} {ε σ : Type}

def start (state : σ) (programs : List (Program I ε Unit)) : System I ε σ :=
  ⟨state, programs, []⟩

/-- Answer the next call of program `index`; finished programs do nothing. -/
def step (handler : Handler I σ) (system : System I ε σ) (index : ℕ) : System I ε σ :=
  match system.programs[index]? with
  | some (.call request rest) =>
      { state := (handler.answer system.state request).2
        programs := system.programs.set index (rest (handler.answer system.state request).1)
        trace := system.trace ++ [(index, ⟨request, (handler.answer system.state request).1⟩)] }
  | _ => system

def exec (handler : Handler I σ) (system : System I ε σ) (schedule : List ℕ) : System I ε σ :=
  schedule.foldl (step handler) system

/-- Every step of the schedule meets `condition` in the system it is taken from. -/
def Along (handler : Handler I σ) (condition : System I ε σ → ℕ → Prop) :
    System I ε σ → List ℕ → Prop
  | _, [] => True
  | system, index :: rest =>
      condition system index ∧ Along handler condition (step handler system index) rest

def Ended (system : System I ε σ) (index : ℕ) (result : Except ε Unit) : Prop :=
  system.programs[index]? = some (.done result)

/-- The call which the program makes at its next turn. -/
def Next (system : System I ε σ) (index : ℕ) (request : I.Call) : Prop :=
  ∃ rest, system.programs[index]? = some (.call request rest)

def afterCall (handler : Handler I σ) (system : System I ε σ) (index : ℕ) (request : I.Call)
    (rest : I.Answer request → Program I ε Unit) : System I ε σ :=
  { state := (handler.answer system.state request).2
    programs := system.programs.set index (rest (handler.answer system.state request).1)
    trace := system.trace ++ [(index, ⟨request, (handler.answer system.state request).1⟩)] }

variable {handler : Handler I σ}

/-- All that a step can do. -/
theorem step_cases (handler : Handler I σ) (system : System I ε σ) (index : ℕ) :
    step handler system index = system ∨
      ∃ request rest, system.programs[index]? = some (.call request rest) ∧
        step handler system index = afterCall handler system index request rest := by
  unfold step
  split
  · next request rest found => exact Or.inr ⟨request, rest, found, rfl⟩
  · exact Or.inl rfl

theorem step_of_call {system : System I ε σ} {index : ℕ} {request : I.Call}
    {rest : I.Answer request → Program I ε Unit}
    (found : system.programs[index]? = some (.call request rest)) :
    step handler system index = afterCall handler system index request rest := by
  simp only [step, found, afterCall]

theorem exec_append (system : System I ε σ) (first second : List ℕ) :
    exec handler system (first ++ second) = exec handler (exec handler system first) second := by
  simp [exec]

theorem along_append {condition : System I ε σ → ℕ → Prop} {system : System I ε σ}
    {first second : List ℕ} (met : Along handler condition system first)
    (metLater : Along handler condition (exec handler system first) second) :
    Along handler condition system (first ++ second) := by
  induction first generalizing system with
  | nil => exact metLater
  | cons index rest ih => exact ⟨met.1, ih met.2 metLater⟩

theorem exec_take_succ (system : System I ε σ) {schedule : List ℕ} {steps index : ℕ}
    (next : schedule[steps]? = some index) :
    exec handler system (schedule.take (steps + 1)) =
      step handler (exec handler system (schedule.take steps)) index := by
  rw [List.take_add_one, next, exec_append]
  rfl

/-- A condition along a schedule, read off its prefixes. -/
theorem along_iff {condition : System I ε σ → ℕ → Prop} {system : System I ε σ}
    {schedule : List ℕ} :
    Along handler condition system schedule ↔ ∀ steps index, schedule[steps]? = some index →
      condition (exec handler system (schedule.take steps)) index := by
  induction schedule generalizing system with
  | nil => simp [Along]
  | cons first schedule ih =>
      rw [Along, ih]
      constructor
      · rintro ⟨now, later⟩ steps index next
        cases steps with
        | zero =>
            rcases Option.some.inj next with rfl
            exact now
        | succ steps => exact later steps index next
      · intro always
        exact ⟨always 0 first rfl, fun steps index next => always (steps + 1) index next⟩

/-- What every step meeting the condition preserves, every such schedule preserves. -/
theorem exec_invariant_along (invariant : System I ε σ → Prop)
    {condition : System I ε σ → ℕ → Prop} {system : System I ε σ} {schedule : List ℕ}
    (met : Along handler condition system schedule) (initial : invariant system)
    (preserved : ∀ system index, invariant system → condition system index →
      invariant (step handler system index)) :
    invariant (exec handler system schedule) := by
  induction schedule generalizing system with
  | nil => exact initial
  | cons index rest ih => exact ih met.2 (preserved system index initial met.1)

theorem exec_invariant (invariant : System I ε σ → Prop) {system : System I ε σ}
    (schedule : List ℕ) (initial : invariant system)
    (preserved : ∀ system index, invariant system → invariant (step handler system index)) :
    invariant (exec handler system schedule) := by
  induction schedule generalizing system with
  | nil => exact initial
  | cons index rest ih => exact ih (preserved system index initial)

theorem afterCall_programs_self {system : System I ε σ} {index : ℕ} {request : I.Call}
    {rest : I.Answer request → Program I ε Unit}
    (found : system.programs[index]? = some (.call request rest)) :
    (afterCall handler system index request rest).programs[index]? =
      some (rest (handler.answer system.state request).1) :=
  List.getElem?_set_self (List.getElem?_eq_some_iff.mp found).1

theorem length_programs_exec (handler : Handler I σ) (system : System I ε σ)
    (schedule : List ℕ) :
    (exec handler system schedule).programs.length = system.programs.length := by
  apply exec_invariant (fun later => later.programs.length = system.programs.length) schedule rfl
  intro later index same
  rcases step_cases handler later index with still | ⟨request, rest, -, called⟩
  · rw [still]
    exact same
  · rw [called, afterCall, List.length_set]
    exact same

/-- The trace only grows. -/
theorem trace_prefix_exec (handler : Handler I σ) (system : System I ε σ) (schedule : List ℕ) :
    system.trace <+: (exec handler system schedule).trace := by
  apply exec_invariant (fun later => system.trace <+: later.trace) schedule (List.prefix_refl _)
  intro later index grown
  rcases step_cases handler later index with same | ⟨request, rest, -, called⟩
  · rw [same]
    exact grown
  · rw [called]
    exact grown.trans (List.prefix_append _ _)

/-- Only the programs of the system make calls. -/
theorem exec_indices (handler : Handler I σ) (state : σ) (programs : List (Program I ε Unit))
    (schedule : List ℕ) :
    ∀ event ∈ (exec handler (start state programs) schedule).trace,
      event.1 < programs.length := by
  have both : (exec handler (start state programs) schedule).programs.length = programs.length ∧
      ∀ event ∈ (exec handler (start state programs) schedule).trace,
        event.1 < programs.length := by
    apply exec_invariant (fun system : System I ε σ => system.programs.length = programs.length ∧
      ∀ event ∈ system.trace, event.1 < programs.length) schedule
    · exact ⟨rfl, by simp [start]⟩
    rintro system index ⟨length, within⟩
    rcases step_cases handler system index with same | ⟨request, rest, found, called⟩
    · rw [same]
      exact ⟨length, within⟩
    · rw [called]
      refine ⟨by simpa [afterCall] using length, ?_⟩
      intro event present
      rcases List.mem_append.mp present with before | now
      · exact within event before
      · rw [List.mem_singleton.mp now, ← length]
        exact (List.getElem?_eq_some_iff.mp found).1
  exact both.2

/-- In every interleaving, a program goes on from the exchanges which it has made itself. -/
theorem exec_reaches (handler : Handler I σ) (state : σ) {programs : List (Program I ε Unit)}
    {index : ℕ} {program : Program I ε Unit} (listed : programs[index]? = some program)
    (schedule : List ℕ) :
    ∃ rest, (exec handler (start state programs) schedule).programs[index]? = some rest ∧
      program.Reaches (pastOf index (exec handler (start state programs) schedule).trace) rest := by
  apply exec_invariant (fun system => ∃ rest, system.programs[index]? = some rest ∧
    program.Reaches (pastOf index system.trace) rest) schedule
  · exact ⟨program, listed, .refl _⟩
  · rintro system turn ⟨rest, current, reaches⟩
    rcases step_cases handler system turn with same | ⟨request, later, found, called⟩
    · rw [same]
      exact ⟨rest, current, reaches⟩
    · rw [called]
      by_cases mine : turn = index
      · subst mine
        rcases Option.some.inj (current.symm.trans found) with rfl
        refine ⟨_, afterCall_programs_self found, ?_⟩
        rw [afterCall, pastOf_append_self]
        exact reaches.snoc _
      · refine ⟨rest, ?_, ?_⟩
        · rw [afterCall, List.getElem?_set_ne mine]
          exact current
        · rw [afterCall, pastOf_append_of_ne mine]
          exact reaches

/-- The same for a program of which only the end matters to the system. -/
theorem exec_reaches_void {α : Type} {state : σ} {programs : List (Program I ε Unit)} {index : ℕ}
    {program : Program I ε α} (listed : programs[index]? = some program.void)
    (schedule : List ℕ) :
    ∃ rest : Program I ε α,
      (exec handler (start state programs) schedule).programs[index]? = some rest.void ∧
        program.Reaches (pastOf index (exec handler (start state programs) schedule).trace)
          rest := by
  rcases exec_reaches handler state listed schedule with ⟨rest, current, reaches⟩
  rcases reaches.of_void with ⟨inner, inside, rfl⟩
  exact ⟨inner, current, inside⟩

theorem ended_of_result {system : System I ε σ} {index : ℕ} {result : Except ε Unit}
    (found : system.programs[index]?.bind Program.result? = some result) :
    system.Ended index result := by
  rcases Option.bind_eq_some_iff.mp found with ⟨program, listed, ended⟩
  cases program with
  | done value =>
      rcases Option.some.inj ended with rfl
      exact listed
  | call request rest => cases ended

theorem Ended.step {system : System I ε σ} {index : ℕ} {result : Except ε Unit}
    (ended : system.Ended index result) (turn : ℕ) :
    (System.step handler system turn).Ended index result := by
  rcases step_cases handler system turn with same | ⟨request, rest, found, called⟩
  · rw [same]
    exact ended
  · have other : turn ≠ index := by
      intro same
      subst same
      cases Option.some.inj (found.symm.trans ended)
    rw [called, Ended, afterCall, List.getElem?_set_ne other]
    exact ended

/-- Every turn of a program is one of its calls, unless it has ended. -/
theorem exec_turns {state : σ} {programs : List (Program I ε Unit)} {index : ℕ}
    {program : Program I ε Unit} (listed : programs[index]? = some program) (schedule : List ℕ) :
    (∃ result, (exec handler (start state programs) schedule).Ended index result) ∨
      schedule.count index ≤
        (pastOf index (exec handler (start state programs) schedule).trace).length := by
  induction schedule using List.reverseRecOn with
  | nil => exact Or.inr (Nat.zero_le _)
  | append_singleton schedule turn ih =>
      rcases exec_reaches handler state listed schedule with ⟨rest, current, -⟩
      rw [exec_append]
      generalize exec handler (start state programs) schedule = system at ih current
      change (∃ result, (System.step handler system turn).Ended index result) ∨
        _ ≤ (pastOf index (System.step handler system turn).trace).length
      rcases ih with ⟨result, ended⟩ | made
      · exact Or.inl ⟨result, ended.step turn⟩
      · rw [List.count_append, List.count_singleton]
        by_cases mine : turn = index
        · subst mine
          cases rest with
          | done result => exact Or.inl ⟨result, Ended.step current turn⟩
          | call request next =>
              right
              rw [step_of_call current, afterCall, pastOf_append_self]
              simpa using made
        · right
          simp only [beq_iff_eq, mine, if_false, Nat.add_zero]
          rcases step_cases handler system turn with same | ⟨request, next, -, called⟩
          · rw [same]
            exact made
          · rw [called, afterCall, pastOf_append_of_ne mine]
            exact made

/-- Every exchange of the trace was permitted by its program's rule when it was made. -/
def Lawful (rule : ℕ → List (Exchange I) → I.Call → Prop) (trace : List (ℕ × Exchange I)) : Prop :=
  ∀ before index made after, trace = before ++ (index, made) :: after →
    rule index (pastOf index before) made.1

/-- Every program follows its rule from here on and ends as `post` says. -/
def Follows (rule : ℕ → List (Exchange I) → I.Call → Prop)
    (post : ℕ → List (Exchange I) → Except ε Unit → Prop) (system : System I ε σ) : Prop :=
  ∀ index (program : Program I ε Unit), system.programs[index]? = some program →
    program.Obeys (rule index) (pastOf index system.trace) (post index)

/-- Every program follows its rule from here on, and every exchange made did. -/
structure Obedient (rule : ℕ → List (Exchange I) → I.Call → Prop) (system : System I ε σ) :
    Prop where
  follows : Follows rule (fun _ _ _ => True) system
  lawful : Lawful rule system.trace

variable {rule : ℕ → List (Exchange I) → I.Call → Prop}
  {post : ℕ → List (Exchange I) → Except ε Unit → Prop}

theorem Follows.afterCall {system : System I ε σ} (follows : Follows rule post system)
    {index : ℕ} {request : I.Call} {rest : I.Answer request → Program I ε Unit}
    (found : system.programs[index]? = some (.call request rest)) :
    Follows rule post (System.afterCall handler system index request rest) := by
  intro other program foundAfter
  simp only [System.afterCall] at foundAfter ⊢
  by_cases same : index = other
  · subst same
    rw [List.getElem?_set_self (List.getElem?_eq_some_iff.mp found).1] at foundAfter
    rcases Option.some.inj foundAfter with rfl
    rw [pastOf_append_self]
    exact (follows index _ found).2 _
  · rw [List.getElem?_set_ne same] at foundAfter
    rw [pastOf_append_of_ne same]
    exact follows other program foundAfter

theorem Follows.exec {system : System I ε σ} (follows : Follows rule post system)
    (schedule : List ℕ) : Follows rule post (System.exec handler system schedule) := by
  apply exec_invariant _ schedule follows
  intro system index follows
  rcases step_cases handler system index with same | ⟨request, rest, found, called⟩
  · rw [same]
    exact follows
  · rw [called]
    exact follows.afterCall found

theorem Follows.next {system : System I ε σ} (follows : Follows rule post system) {index : ℕ}
    {request : I.Call} (next : system.Next index request) :
    rule index (pastOf index system.trace) request := by
  rcases next with ⟨rest, found⟩
  exact (follows index _ found).1

theorem next_afterCall_of_ne {index other : ℕ} (different : index ≠ other) (system : System I ε σ)
    {request asked : I.Call} (rest : I.Answer request → Program I ε Unit) :
    (System.afterCall handler system index request rest).Next other asked ↔
      system.Next other asked := by
  rw [Next, Next, System.afterCall, List.getElem?_set_ne different]

theorem Follows.ended {system : System I ε σ} (follows : Follows rule post system) {index : ℕ}
    {result : Except ε Unit} (ended : system.Ended index result) :
    post index (pastOf index system.trace) result :=
  follows index _ ended

theorem lawful_append {trace : List (ℕ × Exchange I)} {index : ℕ} {made : Exchange I}
    (lawful : Lawful rule trace) (permitted : rule index (pastOf index trace) made.1) :
    Lawful rule (trace ++ [(index, made)]) := by
  have all : ∀ before (event : ℕ × Exchange I) after,
      trace ++ [(index, made)] = before ++ event :: after →
        rule event.1 (pastOf event.1 before) event.2.1 :=
    forall_split_append (fun before event after split => lawful before _ _ after split) permitted
  exact fun before index made after split => all before (index, made) after split

/-- Calls of a kind which the rule permits only once are made at most once. -/
theorem Lawful.eq_of_once {trace : List (ℕ × Exchange I)} (lawful : Lawful rule trace) {index : ℕ}
    (kind : I.Call → Prop)
    (once : ∀ past call, rule index past call → kind call → ∀ made ∈ past, ¬kind made.1)
    {made other : Exchange I} (madeKind : kind made.1) (otherKind : kind other.1)
    (madeThere : (index, made) ∈ trace) (otherThere : (index, other) ∈ trace) : made = other := by
  rcases List.append_of_mem madeThere with ⟨before, after, split⟩
  rw [split] at otherThere
  rcases List.mem_append.mp otherThere with earlier | later
  · exact absurd otherKind
      (once _ _ (lawful before index made after split) madeKind other (mem_pastOf.mpr earlier))
  · rcases List.mem_cons.mp later with same | later
    · exact (Prod.mk.inj same).2.symm
    · rcases List.append_of_mem later with ⟨middle, rest, splitLater⟩
      have splitAll : trace = (before ++ (index, made) :: middle) ++ (index, other) :: rest := by
        rw [split, splitLater]
        simp
      exact absurd madeKind (once _ _ (lawful _ index other rest splitAll) otherKind made
        (mem_pastOf.mpr (by simp)))

theorem obedient_start {state : σ} {programs : List (Program I ε Unit)}
    (obeys : ∀ index (program : Program I ε Unit), programs[index]? = some program →
      program.Obeys (rule index) [] fun _ _ => True) :
    Obedient rule (start state programs : System I ε σ) :=
  ⟨obeys, by
    intro before index made after split
    simp [start] at split⟩

theorem Obedient.permitted {system : System I ε σ} (obedient : Obedient rule system)
    {index : ℕ} {request : I.Call} {rest : I.Answer request → Program I ε Unit}
    (found : system.programs[index]? = some (.call request rest)) :
    rule index (pastOf index system.trace) request :=
  (obedient.follows index _ found).1

theorem Obedient.afterCall {system : System I ε σ} (obedient : Obedient rule system)
    {index : ℕ} {request : I.Call} {rest : I.Answer request → Program I ε Unit}
    (found : system.programs[index]? = some (.call request rest)) :
    Obedient rule (System.afterCall handler system index request rest) :=
  ⟨obedient.follows.afterCall found,
    lawful_append obedient.lawful (obedient.permitted found)⟩

theorem Obedient.step {system : System I ε σ} (obedient : Obedient rule system) (index : ℕ) :
    Obedient rule (System.step handler system index) := by
  rcases step_cases handler system index with same | ⟨request, rest, found, called⟩
  · rw [same]
    exact obedient
  · rw [called]
    exact obedient.afterCall found

theorem Obedient.run {system : System I ε σ} (obedient : Obedient rule system)
    (schedule : List ℕ) : Obedient rule (System.exec handler system schedule) :=
  exec_invariant (Obedient rule) schedule obedient fun _ index obedient => obedient.step index

/--
An invariant of the state and the trace which every permitted call preserves
holds in every interleaving.
-/
theorem Obedient.exec {invariant : σ → List (ℕ × Exchange I) → Prop} {system : System I ε σ}
    (obedient : Obedient rule system) (initial : invariant system.state system.trace)
    (preserved : ∀ state trace index request, Lawful rule trace → invariant state trace →
      rule index (pastOf index trace) request →
      invariant (handler.answer state request).2
        (trace ++ [(index, ⟨request, (handler.answer state request).1⟩)]))
    (schedule : List ℕ) :
    Obedient rule (System.exec handler system schedule) ∧
      invariant (System.exec handler system schedule).state
        (System.exec handler system schedule).trace := by
  refine exec_invariant
    (fun system => Obedient rule system ∧ invariant system.state system.trace)
    schedule ⟨obedient, initial⟩ ?_
  rintro system index ⟨obedient, holds⟩
  rcases step_cases handler system index with same | ⟨request, rest, found, called⟩
  · rw [same]
    exact ⟨obedient, holds⟩
  · rw [called]
    exact ⟨obedient.afterCall found,
      preserved _ _ _ _ obedient.lawful holds (obedient.permitted found)⟩

end System

end Interaction
