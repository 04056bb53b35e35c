import Mathlib.Data.List.Forall2
import VaultMesh.Interaction.Interleaving

/-!
# Serial orders

`serially` runs programs one after the other in a given order. A system reached
by interleaving is serializable if some order of the programs which have ended
gives the same results and, as far as `view` shows it, the same state.

To find or to exclude such an order it is enough to know what each program does
to the view when it runs alone (`Implements`): `play` combines these actions
without running anything.
-/

namespace Interaction

variable {I : Interface} {ε σ V : Type}

/-- Run these programs one after the other: their results, and the state at the end. -/
def serially (handler : Handler I σ) (programs : List (Program I ε Unit)) :
    List ℕ → σ → List (ℕ × Except ε Unit) × σ
  | [], state => ([], state)
  | index :: order, state =>
      match programs[index]? with
      | none => serially handler programs order state
      | some program =>
          let ran := program.run handler state
          let rest := serially handler programs order ran.2
          ((index, ran.1) :: rest.1, rest.2)

/-- The programs which have ended could have run in this order, one after the other. -/
structure System.SerialIn (handler : Handler I σ) (view : σ → V)
    (programs : List (Program I ε Unit)) (first : σ) (system : System I ε σ) (order : List ℕ) :
    Prop where
  nodup : order.Nodup
  results : ∀ index result,
    (index, result) ∈ (serially handler programs order first).1 ↔ system.Ended index result
  view : view (serially handler programs order first).2 = view system.state

def System.Serializable (handler : Handler I σ) (view : σ → V)
    (programs : List (Program I ε Unit)) (first : σ) (system : System I ε σ) : Prop :=
  ∃ order, system.SerialIn handler view programs first order

/-! ## Actions on a view -/

/-- Play actions one after the other: their results, and the value at the end. -/
def play (actions : List (V → Except ε Unit × V)) : List ℕ → V → List (ℕ × Except ε Unit) × V
  | [], value => ([], value)
  | index :: order, value =>
      match actions[index]? with
      | none => play actions order value
      | some action =>
          let rest := play actions order (action value).2
          ((index, (action value).1) :: rest.1, rest.2)

/-- Run alone from a good state, the program acts on the view as `action` says. -/
structure Implements (handler : Handler I σ) (good : σ → Prop) (view : σ → V)
    (program : Program I ε Unit) (action : V → Except ε Unit × V) : Prop where
  result : ∀ state, good state → (program.run handler state).1 = (action (view state)).1
  view : ∀ state, good state → view (program.run handler state).2 = (action (view state)).2
  good : ∀ state, good state → good (program.run handler state).2

section Play

variable {actions : List (V → Except ε Unit × V)}

theorem play_cons {index : ℕ} {action : V → Except ε Unit × V}
    (found : actions[index]? = some action) (order : List ℕ) (value : V) :
    play actions (index :: order) value =
      ((index, (action value).1) :: (play actions order (action value).2).1,
        (play actions order (action value).2).2) := by
  rw [play, found]

theorem play_cons_none {index : ℕ} (missing : actions[index]? = none) (order : List ℕ)
    (value : V) : play actions (index :: order) value = play actions order value := by
  rw [play, missing]

theorem play_append (first second : List ℕ) (value : V) :
    play actions (first ++ second) value =
      ((play actions first value).1 ++ (play actions second (play actions first value).2).1,
        (play actions second (play actions first value).2).2) := by
  induction first generalizing value with
  | nil => rfl
  | cons index first ih =>
      rw [List.cons_append]
      cases found : actions[index]? with
      | none => rw [play_cons_none found, play_cons_none found, ih]
      | some action => rw [play_cons found, play_cons found, ih, List.cons_append]

theorem mem_of_mem_play {order : List ℕ} {value : V} {index : ℕ} {result : Except ε Unit}
    (played : (index, result) ∈ (play actions order value).1) : index ∈ order := by
  induction order generalizing value with
  | nil => cases played
  | cons first order ih =>
      cases found : actions[first]? with
      | none =>
          rw [play_cons_none found] at played
          exact List.mem_cons_of_mem _ (ih played)
      | some action =>
          rw [play_cons found] at played
          rcases List.mem_cons.mp played with same | later
          · rw [(Prod.mk.inj same).1]
            exact List.mem_cons_self
          · exact List.mem_cons_of_mem _ (ih later)

theorem exists_mem_play {order : List ℕ} (value : V) {index : ℕ} (listed : index ∈ order)
    (inside : index < actions.length) :
    ∃ result, (index, result) ∈ (play actions order value).1 := by
  induction order generalizing value with
  | nil => cases listed
  | cons first order ih =>
      cases found : actions[first]? with
      | none =>
          rw [play_cons_none found]
          rcases List.mem_cons.mp listed with rfl | later
          · rw [List.getElem?_eq_none_iff] at found
            omega
          · exact ih value later
      | some action =>
          rw [play_cons found]
          rcases List.mem_cons.mp listed with rfl | later
          · exact ⟨_, List.mem_cons_self⟩
          · rcases ih (action value).2 later with ⟨result, played⟩
            exact ⟨result, List.mem_cons_of_mem _ played⟩

/-- Programs run one after the other do what their actions do. -/
theorem serially_eq_play {handler : Handler I σ} {good : σ → Prop} {view : σ → V}
    {programs : List (Program I ε Unit)}
    (implements : List.Forall₂ (Implements handler good view) programs actions) (order : List ℕ)
    {state : σ} (start : good state) :
    (serially handler programs order state).1 = (play actions order (view state)).1 ∧
      view (serially handler programs order state).2 = (play actions order (view state)).2 := by
  induction order generalizing state with
  | nil => exact ⟨rfl, rfl⟩
  | cons index order ih =>
      have lengths := implements.length_eq
      cases found : programs[index]? with
      | none =>
          rw [List.getElem?_eq_none_iff] at found
          have missing : actions[index]? = none := List.getElem?_eq_none (by omega)
          rw [serially, List.getElem?_eq_none found, play_cons_none missing]
          exact ih start
      | some program =>
          rcases List.getElem?_eq_some_iff.mp found with ⟨inside, rfl⟩
          have acts : actions[index]? = some actions[index] := by simp
          have here := implements.get inside (by omega)
          simp only [List.get_eq_getElem] at here
          rw [serially, found, play_cons acts, ← here.result state start, ← here.view state start]
          rcases ih (here.good state start) with ⟨sameResults, sameView⟩
          dsimp only
          rw [sameResults]
          exact ⟨rfl, sameView⟩

end Play

namespace System

variable {handler : Handler I σ} {good : σ → Prop} {view : σ → V}
  {programs : List (Program I ε Unit)} {actions : List (V → Except ε Unit × V)} {first : σ}
  {system : System I ε σ}

theorem Ended.unique {index : ℕ} {result result' : Except ε Unit}
    (ended : system.Ended index result) (again : system.Ended index result') :
    result = result' := by
  have same := Option.some.inj (ended.symm.trans again)
  cases same
  rfl

/-- The programs which have ended, by number. -/
def endedIndices (system : System I ε σ) : List ℕ :=
  (List.range system.programs.length).filter fun index =>
    match system.programs[index]? with
    | some (.done _) => true
    | _ => false

theorem nodup_endedIndices (system : System I ε σ) : system.endedIndices.Nodup :=
  List.nodup_range.filter _

theorem mem_endedIndices {index : ℕ} :
    index ∈ system.endedIndices ↔ ∃ result, system.Ended index result := by
  simp only [endedIndices, List.mem_filter, List.mem_range, Ended]
  constructor
  · rintro ⟨-, kept⟩
    split at kept
    · next result found => exact ⟨result, found⟩
    · cases kept
  · rintro ⟨result, found⟩
    refine ⟨(List.getElem?_eq_some_iff.mp found).1, ?_⟩
    rw [found]

/-- A system is serializable if its ended programs can be played in some order. -/
theorem serializable_iff_play
    (implements : List.Forall₂ (Implements handler good view) programs actions)
    (start : good first) :
    system.Serializable handler view programs first ↔
      ∃ order, order.Nodup ∧
        (∀ index result, (index, result) ∈ (play actions order (view first)).1 ↔
          system.Ended index result) ∧
        (play actions order (view first)).2 = view system.state := by
  constructor
  · rintro ⟨order, nodup, results, sameView⟩
    rcases serially_eq_play implements order start with ⟨sameResults, played⟩
    rw [sameResults] at results
    exact ⟨order, nodup, results, played.symm.trans sameView⟩
  · rintro ⟨order, nodup, results, sameView⟩
    rcases serially_eq_play implements order start with ⟨sameResults, played⟩
    rw [← sameResults] at results
    exact ⟨order, nodup, results, played.trans sameView⟩

/-- It is enough that the results played are right, and that nobody is left out. -/
theorem results_iff {order : List ℕ} {value : V}
    (lengths : system.programs.length = actions.length)
    (right : ∀ index result, (index, result) ∈ (play actions order value).1 →
      system.Ended index result)
    (all : ∀ index result, system.Ended index result → index ∈ order) (index : ℕ)
    (result : Except ε Unit) :
    (index, result) ∈ (play actions order value).1 ↔ system.Ended index result := by
  refine ⟨right index result, ?_⟩
  intro ended
  have inside : index < actions.length := by
    rw [← lengths]
    exact (List.getElem?_eq_some_iff.mp ended).1
  rcases exists_mem_play value (all index result ended) inside with ⟨other, played⟩
  rw [ended.unique (right index other played)]
  exact played

/-- A program whose call is answered has not ended before. -/
theorem ended_afterCall_of_ne {index other : ℕ} {request : I.Call}
    {rest : I.Answer request → Program I ε Unit} (different : other ≠ index)
    (result : Except ε Unit) :
    (afterCall handler system index request rest).Ended other result ↔
      system.Ended other result := by
  simp only [Ended, afterCall, List.getElem?_set_ne (Ne.symm different)]

theorem ended_afterCall_self {index : ℕ} {request : I.Call}
    {rest : I.Answer request → Program I ε Unit}
    (found : system.programs[index]? = some (.call request rest)) (result : Except ε Unit) :
    (afterCall handler system index request rest).Ended index result ↔
      rest (handler.answer system.state request).1 = .done result := by
  simp only [Ended, afterCall, List.getElem?_set_self (List.getElem?_eq_some_iff.mp found).1,
    Option.some.injEq]

/-- What has ended stays ended. -/
theorem Ended.afterCall {index other : ℕ} {request : I.Call}
    {rest : I.Answer request → Program I ε Unit} {result : Except ε Unit}
    (ended : system.Ended other result)
    (found : system.programs[index]? = some (.call request rest)) :
    (System.afterCall handler system index request rest).Ended other result := by
  have different : other ≠ index := by
    rintro rfl
    cases ended.symm.trans found
  exact (ended_afterCall_of_ne different result).mpr ended

/--
If, from a good system, a step leads to a good system exactly if it meets the condition,
then all systems along a schedule are good exactly if all its steps meet the condition.
-/
theorem along_iff_forall_prefix {condition : System I ε σ → ℕ → Prop}
    {invariant goodSystem : System I ε σ → Prop}
    (exact : ∀ system index, invariant system → goodSystem system →
      (condition system index ↔ goodSystem (step handler system index)))
    (preserved : ∀ system index, invariant system → goodSystem system → condition system index →
      invariant (step handler system index))
    (schedule : List ℕ) (holds : invariant system) (begins : goodSystem system) :
    Along handler condition system schedule ↔
      ∀ steps, goodSystem (exec handler system (schedule.take steps)) := by
  induction schedule generalizing system with
  | nil =>
      simp only [Along, true_iff, List.take_nil]
      exact fun _ => begins
  | cons index schedule ih =>
      constructor
      · rintro ⟨met, later⟩ steps
        cases steps with
        | zero => exact begins
        | succ steps =>
            have next := (exact system index holds begins).mp met
            exact (ih (preserved system index holds begins met) next).mp later steps
      · intro always
        have next : goodSystem (step handler system index) := always 1
        have met := (exact system index holds begins).mpr next
        refine ⟨met, (ih (preserved system index holds begins met) next).mpr ?_⟩
        intro steps
        exact always (steps + 1)

end System

end Interaction
