import VaultMesh.Interaction.Interleaving

/-!
# Noninterference

Some programs of a system belong together. If the calls of the other programs
change nothing which these can see, then they run as if they were alone: the
same schedule without the others' turns gives them the same answers and leaves
them the same view of the state.

What is chosen freely at a call is chosen by its time, and alone the programs
come to their calls sooner. So alone they get the choices which were picked at
the times of the full run.
-/

namespace Interaction

namespace System

variable {I : Interface} {ε σ τ : Type}

/-- The programs of `own` see the same of two states, and the others do not change what they
see; `time` counts the calls. -/
structure Isolates (handler : Handler I σ) (alone : (ℕ → ℕ) → Handler I τ) (time : σ → ℕ)
    (timeAlone : τ → ℕ) (own : ℕ → Bool) (rule : ℕ → List (Exchange I) → I.Call → Prop)
    (sees : σ → τ → List (ℕ × Exchange I) → Prop) : Prop where
  advances : ∀ state call, time (handler.answer state call).2 = time state + 1
  advancesAlone : ∀ pick state call,
    timeAlone ((alone pick).answer state call).2 = timeAlone state + 1
  others : ∀ state seen trace index call, sees state seen trace → own index = false →
    rule index (pastOf index trace) call →
      sees (handler.answer state call).2 seen
        (trace ++ [(index, ⟨call, (handler.answer state call).1⟩)])
  owns : ∀ pick state seen trace index call, sees state seen trace → own index = true →
    rule index (pastOf index trace) call → pick (timeAlone seen) = time state →
      (handler.answer state call).1 = ((alone pick).answer seen call).1 ∧
        sees (handler.answer state call).2 ((alone pick).answer seen call).2
          (trace ++ [(index, ⟨call, (handler.answer state call).1⟩)])

/-- The own programs have got equally far, with the same answers. -/
structure Alike (own : ℕ → Bool) (sees : σ → τ → List (ℕ × Exchange I) → Prop)
    (system : System I ε σ) (seen : System I ε τ) : Prop where
  programs : ∀ index, own index = true → system.programs[index]? = seen.programs[index]?
  past : ∀ index, own index = true → pastOf index system.trace = pastOf index seen.trace
  states : sees system.state seen.state system.trace

/-- The times at which calls of the own programs are answered. -/
def moments (handler : Handler I σ) (time : σ → ℕ) (own : ℕ → Bool) :
    System I ε σ → List ℕ → List ℕ
  | _, [] => []
  | system, index :: schedule =>
      (match system.programs[index]? with
        | some (.call _ _) => if own index then [time system.state] else []
        | _ => []) ++ moments handler time own (step handler system index) schedule

variable {handler : Handler I σ} {alone : (ℕ → ℕ) → Handler I τ} {time : σ → ℕ}
  {timeAlone : τ → ℕ} {own : ℕ → Bool} {rule : ℕ → List (Exchange I) → I.Call → Prop}
  {sees : σ → τ → List (ℕ × Exchange I) → Prop} {system : System I ε σ} {seen : System I ε τ}
  {index : ℕ}

theorem alike_start {state : σ} {view : τ} (programs : List (Program I ε Unit))
    (initial : sees state view []) : Alike own sees (start state programs) (start view programs) :=
  ⟨fun _ _ => rfl, fun _ _ => rfl, initial⟩

/-! ## One turn -/

/-- A turn of another program is not seen. -/
theorem Isolates.step_other (isolates : Isolates handler alone time timeAlone own rule sees)
    (obedient : Obedient rule system) (alike : Alike own sees system seen)
    (other : own index = false) : Alike own sees (step handler system index) seen := by
  rcases step_cases handler system index with same | ⟨call, rest, found, stepped⟩
  · rw [same]
    exact alike
  · have permitted := obedient.permitted found
    rw [stepped]
    refine ⟨?_, ?_, ?_⟩
    · intro mine owned
      have apart : index ≠ mine := by
        rintro rfl
        rw [other] at owned
        cases owned
      rw [← alike.programs mine owned]
      exact List.getElem?_set_ne apart
    · intro mine owned
      have apart : index ≠ mine := by
        rintro rfl
        rw [other] at owned
        cases owned
      rw [← alike.past mine owned]
      exact pastOf_append_of_ne apart system.trace _
    · exact isolates.others _ _ _ _ _ alike.states other permitted

/-- A turn of an own program is the same alone, if its time is picked. -/
theorem Isolates.step_own (isolates : Isolates handler alone time timeAlone own rule sees)
    (obedient : Obedient rule system) (alike : Alike own sees system seen)
    (owned : own index = true) {call : I.Call} {rest : I.Answer call → Program I ε Unit}
    (found : system.programs[index]? = some (.call call rest)) {pick : ℕ → ℕ}
    (picked : pick (timeAlone seen.state) = time system.state) :
    Alike own sees (step handler system index) (step (alone pick) seen index) := by
  have foundAlone : seen.programs[index]? = some (.call call rest) := by
    rw [← alike.programs index owned, found]
  have permitted := obedient.permitted found
  rcases isolates.owns pick _ _ _ _ _ alike.states owned permitted picked with ⟨same, states⟩
  rw [step_of_call found, step_of_call foundAlone]
  refine ⟨?_, ?_, states⟩
  · intro mine ownedToo
    by_cases here : index = mine
    · subst here
      rw [afterCall_programs_self found, afterCall_programs_self foundAlone, same]
    · simp only [afterCall, List.getElem?_set_ne here]
      exact alike.programs mine ownedToo
  · intro mine ownedToo
    by_cases here : index = mine
    · subst here
      simp only [afterCall, pastOf_append_self, same, alike.past index owned]
    · simp only [afterCall]
      rw [pastOf_append_of_ne here, pastOf_append_of_ne here]
      exact alike.past mine ownedToo

/-! ## The run -/

theorem step_of_idle (idle : ∀ call rest, system.programs[index]? ≠ some (.call call rest)) :
    step handler system index = system := by
  rcases step_cases handler system index with same | ⟨call, rest, found, -⟩
  · exact same
  · exact absurd found (idle call rest)

theorem moments_of_call (owned : own index = true) {call : I.Call}
    {rest : I.Answer call → Program I ε Unit}
    (found : system.programs[index]? = some (.call call rest)) (schedule : List ℕ) :
    moments handler time own system (index :: schedule) =
      time system.state :: moments handler time own (step handler system index) schedule := by
  simp [moments, found, owned]

theorem moments_of_other (other : own index = false) (schedule : List ℕ) :
    moments handler time own system (index :: schedule) =
      moments handler time own (step handler system index) schedule := by
  rw [moments]
  split <;> simp [other]

theorem moments_of_idle (idle : ∀ call rest, system.programs[index]? ≠ some (.call call rest))
    (schedule : List ℕ) :
    moments handler time own system (index :: schedule) =
      moments handler time own (step handler system index) schedule := by
  rw [moments]
  split
  · next call rest found => exact absurd found (idle call rest)
  · rfl

/-- Alone, the own programs go through the same turns, if the times of the full run are
picked. -/
theorem Isolates.exec (isolates : Isolates handler alone time timeAlone own rule sees)
    {pick : ℕ → ℕ} (schedule : List ℕ) (obedient : Obedient rule system)
    (alike : Alike own sees system seen)
    (picked : ∀ place moment, (moments handler time own system schedule)[place]? = some moment →
      pick (timeAlone seen.state + place) = moment) :
    Alike own sees (exec handler system schedule)
      (exec (alone pick) seen (schedule.filter own)) := by
  induction schedule generalizing system seen with
  | nil => exact alike
  | cons index schedule ih =>
      cases owned : own index with
      | false =>
          rw [List.filter_cons_of_neg (by simp [owned])]
          rw [moments_of_other owned] at picked
          exact ih (obedient.step index) (isolates.step_other obedient alike owned) picked
      | true =>
          rw [List.filter_cons_of_pos owned]
          by_cases asks : ∃ call rest, system.programs[index]? = some (.call call rest)
          · rcases asks with ⟨call, rest, found⟩
            rw [moments_of_call owned found] at picked
            have here := isolates.step_own obedient alike owned found (picked 0 _ rfl)
            refine ih (obedient.step index) here ?_
            intro place moment later
            have foundAlone : seen.programs[index]? = some (.call call rest) := by
              rw [← alike.programs index owned, found]
            have next : timeAlone (step (alone pick) seen index).state =
                timeAlone seen.state + 1 := by
              rw [step_of_call foundAlone]
              exact isolates.advancesAlone pick _ _
            rw [next, Nat.add_right_comm, Nat.add_assoc]
            exact picked (place + 1) moment later
          · have idle : ∀ call rest, system.programs[index]? ≠ some (.call call rest) :=
              fun call rest found => asks ⟨call, rest, found⟩
            have idleAlone : ∀ call rest, seen.programs[index]? ≠ some (.call call rest) := by
              rw [← alike.programs index owned]
              exact idle
            rw [moments_of_idle idle] at picked
            rw [step_of_idle idle] at picked
            have stays : exec handler system (index :: schedule) = exec handler system schedule :=
              congrArg (fun next => exec handler next schedule) (step_of_idle idle)
            have staysAlone : exec (alone pick) seen (index :: schedule.filter own) =
                exec (alone pick) seen (schedule.filter own) :=
              congrArg (fun next => exec (alone pick) next (schedule.filter own))
                (step_of_idle idleAlone)
            rw [stays, staysAlone]
            exact ih obedient alike picked

/-! ## The times -/

theorem time_exec_le (isolates : Isolates handler alone time timeAlone own rule sees)
    (system : System I ε σ) (schedule : List ℕ) :
    time system.state ≤ time (exec handler system schedule).state := by
  induction schedule generalizing system with
  | nil => exact le_rfl
  | cons index schedule ih =>
      refine le_trans ?_ (ih (step handler system index))
      rcases step_cases handler system index with same | ⟨call, rest, -, stepped⟩
      · rw [same]
      · rw [stepped, afterCall, isolates.advances]
        exact Nat.le_succ _

/-- The moments come in order, and before the end of the run. -/
theorem Isolates.moments_sorted (isolates : Isolates handler alone time timeAlone own rule sees)
    (system : System I ε σ) (schedule : List ℕ) :
    (moments handler time own system schedule).Pairwise (· < ·) ∧
      ∀ moment ∈ moments handler time own system schedule,
        time system.state ≤ moment ∧
          moment < time (System.exec handler system schedule).state := by
  induction schedule generalizing system with
  | nil => exact ⟨List.Pairwise.nil, by rintro _ ⟨⟩⟩
  | cons index schedule ih =>
      rcases ih (step handler system index) with ⟨sorted, bounds⟩
      by_cases asks : own index = true ∧
          ∃ call rest, system.programs[index]? = some (.call call rest)
      · rcases asks with ⟨owned, call, rest, found⟩
        have next : time (step handler system index).state = time system.state + 1 := by
          rw [step_of_call found]
          exact isolates.advances _ _
        rw [moments_of_call owned found]
        refine ⟨List.pairwise_cons.mpr ⟨?_, sorted⟩, List.forall_mem_cons.mpr ⟨⟨le_rfl, ?_⟩, ?_⟩⟩
        · intro moment later
          have := (bounds moment later).1
          omega
        · have := time_exec_le isolates (step handler system index) schedule
          change _ < time (System.exec handler (step handler system index) schedule).state
          omega
        · intro moment later
          have := (bounds moment later).1
          exact ⟨by omega, (bounds moment later).2⟩
      · have skipped : moments handler time own system (index :: schedule) =
            moments handler time own (step handler system index) schedule := by
          cases owned : own index with
          | false => exact moments_of_other owned schedule
          | true =>
              apply moments_of_idle
              intro call rest found
              exact asks ⟨owned, call, rest, found⟩
        rw [skipped]
        refine ⟨sorted, ?_⟩
        intro moment later
        have earlier := time_exec_le isolates system [index]
        exact ⟨le_trans earlier (bounds moment later).1, (bounds moment later).2⟩

/-- Times in order are picked by a monotone function. -/
theorem exists_strictMono_pick {times : List ℕ} {bound : ℕ} (sorted : times.Pairwise (· < ·))
    (bounded : ∀ moment ∈ times, moment < bound) :
    ∃ pick : ℕ → ℕ, StrictMono pick ∧
      ∀ place moment, times[place]? = some moment → pick place = moment := by
  refine ⟨fun place => times[place]?.getD (bound + place), ?_, ?_⟩
  · intro earlier later before
    dsimp only
    rcases Nat.lt_or_ge later times.length with inside | outside
    · have insideToo : earlier < times.length := by omega
      rw [List.getElem?_eq_getElem inside, List.getElem?_eq_getElem insideToo]
      exact List.pairwise_iff_getElem.mp sorted _ _ insideToo inside before
    · rw [List.getElem?_eq_none outside]
      rcases Nat.lt_or_ge earlier times.length with insideToo | outsideToo
      · rw [List.getElem?_eq_getElem insideToo]
        have := bounded _ (List.getElem_mem insideToo)
        simp only [Option.getD_some, Option.getD_none]
        omega
      · rw [List.getElem?_eq_none outsideToo]
        simp only [Option.getD_none]
        omega
  · intro place moment found
    simp [found]

/-- The own programs run as if they were alone. -/
theorem Isolates.alike_alone (isolates : Isolates handler alone time timeAlone own rule sees)
    {state : σ} {view : τ} {programs : List (Program I ε Unit)} (zero : timeAlone view = 0)
    (initial : sees state view [])
    (obedient : Obedient rule (start state programs : System I ε σ)) (schedule : List ℕ) :
    ∃ pick, StrictMono pick ∧
      Alike own sees (System.exec handler (start state programs) schedule)
        (System.exec (alone pick) (start view programs) (schedule.filter own)) := by
  rcases isolates.moments_sorted (start state programs) schedule with ⟨sorted, bounds⟩
  rcases exists_strictMono_pick sorted fun moment listed => (bounds moment listed).2 with
    ⟨pick, strictMono, picked⟩
  refine ⟨pick, strictMono, isolates.exec schedule obedient (alike_start programs initial) ?_⟩
  intro place moment found
  have here : timeAlone (start view programs : System I ε τ).state = 0 := zero
  rw [here, Nat.zero_add]
  exact picked place moment found

end System

end Interaction
