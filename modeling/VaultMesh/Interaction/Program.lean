import Mathlib.Data.List.Basic

/-!
# Programs over an interface

A program is a finite tree of calls: it either stops with a result or issues
one call and continues according to the answer. Nothing is said here about who
answers. `Interaction.Run` answers every call from one handler, and
`Interaction.Interleaving` lets many programs share a handler, switching
between them at every call.

`Program.Obeys` is the part of program correctness which holds whatever the
answers are: each call is permitted by a rule on the exchanges made so far. It
is a predicate transformer, so it follows the program's own structure through
`bind`.
-/

namespace Interaction

/-- The calls which programs may issue, and the type of each call's answer. -/
structure Interface where
  Call : Type
  Answer : Call → Type

abbrev Exchange (I : Interface) := Σ request : I.Call, I.Answer request

/-- A program which ends with an `Except ε α` after finitely many calls. -/
inductive Program (I : Interface) (ε α : Type) : Type where
  | done (result : Except ε α)
  | call (request : I.Call) (next : I.Answer request → Program I ε α)

namespace Program

variable {I : Interface} {ε α β γ : Type}

/-- Sequencing stops at the first error, as `?` does. -/
protected def bind : Program I ε α → (α → Program I ε β) → Program I ε β
  | .done (.ok value), next => next value
  | .done (.error error), _ => .done (.error error)
  | .call request rest, next => .call request fun answer => (rest answer).bind next

instance : Monad (Program I ε) where
  pure value := .done (.ok value)
  bind := Program.bind

def fail (error : ε) : Program I ε α :=
  .done (.error error)

/-- Run a program to its end and hand its result on as a value, errors included. -/
def attempt : Program I ε α → Program I ε (Except ε α)
  | .done result => .done (.ok result)
  | .call request rest => .call request fun answer => (rest answer).attempt

def void (program : Program I ε α) : Program I ε Unit :=
  program >>= fun _ => pure ()

@[simp]
theorem done_ok_bind (value : α) (next : α → Program I ε β) :
    (Program.done (.ok value) >>= next) = next value :=
  rfl

@[simp]
theorem done_error_bind (error : ε) (next : α → Program I ε β) :
    (Program.done (.error error) >>= next) = .done (.error error) :=
  rfl

@[simp]
theorem call_bind (request : I.Call) (rest : I.Answer request → Program I ε α)
    (next : α → Program I ε β) :
    (Program.call request rest >>= next) = .call request fun answer => rest answer >>= next :=
  rfl

theorem bind_assoc (program : Program I ε α) (next : α → Program I ε β)
    (last : β → Program I ε γ) :
    (program >>= next >>= last) = program >>= fun value => next value >>= last := by
  induction program with
  | done result =>
      cases result with
      | ok value => simp only [done_ok_bind]
      | error error => simp only [done_error_bind]
  | call request rest ih =>
      simp only [call_bind]
      congr 1
      funext answer
      exact ih answer

theorem bind_pure (program : Program I ε α) : (program >>= pure) = program := by
  induction program with
  | done result => cases result <;> rfl
  | call request rest ih =>
      simp only [call_bind]
      congr 1
      funext answer
      exact ih answer

instance : LawfulMonad (Program I ε) :=
  LawfulMonad.mk' (Program I ε)
    (fun program => bind_pure program)
    (fun _ _ => rfl)
    (fun program next last => bind_assoc program next last)

/--
Every call is permitted by `rule` on the exchanges made so far, whatever the
answers are, and `post` holds of the exchanges and the result at the end.
-/
def Obeys (rule : List (Exchange I) → I.Call → Prop) :
    Program I ε α → List (Exchange I) → (List (Exchange I) → Except ε α → Prop) → Prop
  | .done result, past, post => post past result
  | .call request rest, past, post =>
      rule past request ∧
        ∀ answer, (rest answer).Obeys rule (past ++ [⟨request, answer⟩]) post

variable {rule : List (Exchange I) → I.Call → Prop}

@[simp]
theorem obeys_done (result : Except ε α) (past : List (Exchange I))
    (post : List (Exchange I) → Except ε α → Prop) :
    (Program.done result).Obeys rule past post ↔ post past result :=
  Iff.rfl

@[simp]
theorem obeys_call (request : I.Call) (rest : I.Answer request → Program I ε α)
    (past : List (Exchange I)) (post : List (Exchange I) → Except ε α → Prop) :
    (Program.call request rest).Obeys rule past post ↔
      rule past request ∧
        ∀ answer, (rest answer).Obeys rule (past ++ [⟨request, answer⟩]) post :=
  Iff.rfl

@[simp]
theorem obeys_pure (value : α) (past : List (Exchange I))
    (post : List (Exchange I) → Except ε α → Prop) :
    (pure value : Program I ε α).Obeys rule past post ↔ post past (.ok value) :=
  Iff.rfl

/-- The postcondition which a sequence asks of its first part. -/
def thenObeys (rule : List (Exchange I) → I.Call → Prop) (next : α → Program I ε β)
    (post : List (Exchange I) → Except ε β → Prop) (past : List (Exchange I)) :
    Except ε α → Prop
  | .ok value => (next value).Obeys rule past post
  | .error error => post past (.error error)

@[simp]
theorem thenObeys_ok (next : α → Program I ε β) (post : List (Exchange I) → Except ε β → Prop)
    (past : List (Exchange I)) (value : α) :
    thenObeys rule next post past (.ok value) ↔ (next value).Obeys rule past post :=
  Iff.rfl

theorem obeys_bind (program : Program I ε α) (next : α → Program I ε β)
    (past : List (Exchange I)) (post : List (Exchange I) → Except ε β → Prop) :
    (program >>= next).Obeys rule past post ↔
      program.Obeys rule past (thenObeys rule next post) := by
  induction program generalizing past with
  | done result => cases result <;> rfl
  | call request rest ih =>
      simp only [call_bind, obeys_call]
      apply and_congr_right
      intro _
      apply forall_congr'
      intro answer
      exact ih answer _

/-- Consequence, with the facts that the exchanges only grow. -/
theorem Obeys.mono {rule' : List (Exchange I) → I.Call → Prop} {program : Program I ε α}
    {past : List (Exchange I)} {post post' : List (Exchange I) → Except ε α → Prop}
    (obeys : program.Obeys rule past post)
    (weaken : ∀ suffix request, rule (past ++ suffix) request → rule' (past ++ suffix) request)
    (conclude : ∀ suffix result, post (past ++ suffix) result → post' (past ++ suffix) result) :
    program.Obeys rule' past post' := by
  induction program generalizing past with
  | done result => simpa using conclude [] result (by simpa using obeys)
  | call request rest ih =>
      refine ⟨by simpa using weaken [] request (by simpa using obeys.1), ?_⟩
      intro answer
      apply ih answer (obeys.2 answer)
      · intro suffix later permitted
        simpa using weaken (⟨request, answer⟩ :: suffix) later (by simpa using permitted)
      · intro suffix result reached
        simpa using conclude (⟨request, answer⟩ :: suffix) result (by simpa using reached)

theorem Obeys.conclude {program : Program I ε α} {past : List (Exchange I)}
    {post post' : List (Exchange I) → Except ε α → Prop}
    (obeys : program.Obeys rule past post)
    (conclude : ∀ suffix result, post (past ++ suffix) result → post' (past ++ suffix) result) :
    program.Obeys rule past post' :=
  obeys.mono (fun _ _ permitted => permitted) conclude

theorem Obeys.weaken {rule' : List (Exchange I) → I.Call → Prop} {program : Program I ε α}
    {past : List (Exchange I)} {post : List (Exchange I) → Except ε α → Prop}
    (obeys : program.Obeys rule past post)
    (weaken : ∀ past request, rule past request → rule' past request) :
    program.Obeys rule' past post :=
  obeys.mono (fun _ request => weaken _ request) fun _ _ reached => reached

/-- Two things known of a program hold together. -/
theorem Obeys.and {rule' : List (Exchange I) → I.Call → Prop} {program : Program I ε α}
    {past : List (Exchange I)} {post post' : List (Exchange I) → Except ε α → Prop}
    (obeys : program.Obeys rule past post) (obeysToo : program.Obeys rule' past post') :
    program.Obeys (fun past request => rule past request ∧ rule' past request) past
      fun past result => post past result ∧ post' past result := by
  induction program generalizing past with
  | done result => exact ⟨obeys, obeysToo⟩
  | call request rest ih =>
      exact ⟨⟨obeys.1, obeysToo.1⟩, fun answer => ih answer (obeys.2 answer) (obeysToo.2 answer)⟩

/-- The exchanges made are of the kind which the rule permits. -/
theorem Obeys.confined {kind : I.Call → Prop} {program : Program I ε α}
    {past : List (Exchange I)} {post : List (Exchange I) → Except ε α → Prop}
    (obeys : program.Obeys rule past post)
    (within : ∀ past request, rule past request → kind request) :
    program.Obeys rule past fun past' result => post past' result ∧
      ∃ suffix, past' = past ++ suffix ∧ ∀ made ∈ suffix, kind made.1 := by
  induction program generalizing past with
  | done result => exact ⟨obeys, [], by simp, by simp⟩
  | call request rest ih =>
      refine ⟨obeys.1, fun answer => ?_⟩
      refine (ih answer (obeys.2 answer)).conclude ?_
      rintro _ result ⟨reached, suffix, grown, all⟩
      refine ⟨reached, ⟨request, answer⟩ :: suffix, by simpa using grown, ?_⟩
      intro made present
      rcases List.mem_cons.mp present with rfl | later
      · exact within past request obeys.1
      · exact all made later

/-- Where every call is permitted and every end is good, any program obeys. -/
theorem obeys_of_forall {past : List (Exchange I)}
    {post : List (Exchange I) → Except ε α → Prop}
    (permits : ∀ suffix request, rule (past ++ suffix) request)
    (ends : ∀ suffix result, post (past ++ suffix) result) (program : Program I ε α) :
    program.Obeys rule past post := by
  induction program generalizing past with
  | done result => simpa using ends [] result
  | call request rest ih =>
      refine ⟨by simpa using permits [] request, fun answer => ?_⟩
      refine ih answer ?_ ?_
      · intro suffix later
        simpa using permits (⟨request, answer⟩ :: suffix) later
      · intro suffix result
        simpa using ends (⟨request, answer⟩ :: suffix) result

theorem Obeys.attempt {program : Program I ε α} {past : List (Exchange I)}
    {post : List (Exchange I) → Except ε α → Prop} (obeys : program.Obeys rule past post) :
    program.attempt.Obeys rule past fun past' result =>
      ∃ outcome, result = .ok outcome ∧ post past' outcome := by
  induction program generalizing past with
  | done result => exact ⟨result, rfl, obeys⟩
  | call request rest ih => exact ⟨obeys.1, fun answer => ih answer (obeys.2 answer)⟩

/-- A program whose rule does not look back does the same after any exchanges. -/
theorem Obeys.shift {kind : I.Call → Prop} {program : Program I ε α}
    {before : List (Exchange I)} {post : List (Exchange I) → Except ε α → Prop}
    (obeys : program.Obeys (fun _ => kind) before post) (past : List (Exchange I)) :
    program.Obeys (fun _ => kind) (past ++ before) fun past' result =>
      ∃ made, past' = past ++ made ∧ post made result := by
  induction program generalizing before with
  | done result => exact ⟨before, rfl, obeys⟩
  | call request rest ih =>
      refine ⟨obeys.1, fun answer => ?_⟩
      rw [List.append_assoc]
      exact ih answer (obeys.2 answer)

/-- A sequence obeys if its first part does and leads to a rest which does. -/
theorem Obeys.bind {program : Program I ε α} {next : α → Program I ε β}
    {past : List (Exchange I)} {middle : List (Exchange I) → Except ε α → Prop}
    {post : List (Exchange I) → Except ε β → Prop} (obeys : program.Obeys rule past middle)
    (failed : ∀ suffix error, middle (past ++ suffix) (.error error) →
      post (past ++ suffix) (.error error))
    (went : ∀ suffix value, middle (past ++ suffix) (.ok value) →
      (next value).Obeys rule (past ++ suffix) post) :
    (program >>= next).Obeys rule past post := by
  rw [obeys_bind]
  refine obeys.conclude fun suffix result reached => ?_
  cases result with
  | ok value => exact went suffix value reached
  | error error => exact failed suffix error reached

theorem Obeys.call_bind {request : I.Call} {decode : I.Answer request → Except ε α}
    {next : α → Program I ε β} {past : List (Exchange I)}
    {post : List (Exchange I) → Except ε β → Prop} (permitted : rule past request)
    (failed : ∀ answer error, decode answer = .error error →
      post (past ++ [⟨request, answer⟩]) (.error error))
    (went : ∀ answer value, decode answer = .ok value →
      (next value).Obeys rule (past ++ [⟨request, answer⟩]) post) :
    ((Program.call request fun answer => .done (decode answer)) >>= next).Obeys rule past post := by
  refine ⟨permitted, fun answer => ?_⟩
  change (Program.done (decode answer) >>= next).Obeys rule _ post
  cases decoded : decode answer with
  | ok value => exact went answer value decoded
  | error error => exact failed answer error decoded

/-! ## The rest of a program -/

def result? : Program I ε α → Option (Except ε α)
  | .done result => some result
  | .call _ _ => none

/-- Having made these exchanges, the program goes on as `rest`. -/
inductive Reaches : Program I ε α → List (Exchange I) → Program I ε α → Prop where
  | refl (program : Program I ε α) : Reaches program [] program
  | call (request : I.Call) {next : I.Answer request → Program I ε α} {answer : I.Answer request}
      {made : List (Exchange I)} {rest : Program I ε α} (later : Reaches (next answer) made rest) :
      Reaches (.call request next) (⟨request, answer⟩ :: made) rest

theorem Reaches.snoc {program : Program I ε α} {made : List (Exchange I)} {request : I.Call}
    {next : I.Answer request → Program I ε α} (reaches : program.Reaches made (.call request next))
    (answer : I.Answer request) : program.Reaches (made ++ [⟨request, answer⟩]) (next answer) := by
  generalize target : Program.call request next = rest at reaches
  induction reaches with
  | refl program =>
      subst target
      exact .call request (.refl _)
  | call asked later ih => exact .call asked (ih target)

theorem Obeys.reaches {program rest : Program I ε α} {past made : List (Exchange I)}
    {post : List (Exchange I) → Except ε α → Prop} (obeys : program.Obeys rule past post)
    (reaches : program.Reaches made rest) : rest.Obeys rule (past ++ made) post := by
  induction reaches generalizing past with
  | refl program => simpa using obeys
  | call request later ih => simpa using ih (obeys.2 _)

theorem Reaches.of_done {result : Except ε α} {made : List (Exchange I)} {rest : Program I ε α}
    (reaches : (Program.done result : Program I ε α).Reaches made rest) :
    made = [] ∧ rest = .done result := by
  cases reaches
  exact ⟨rfl, rfl⟩

theorem Reaches.of_done_bind {result : Except ε α} {next : α → β} {made : List (Exchange I)}
    {rest : Program I ε β}
    (reaches : ((Program.done result : Program I ε α) >>= fun value =>
      pure (next value)).Reaches made rest) : made = [] ∧ rest = .done (result.map next) := by
  cases result with
  | ok value => exact reaches.of_done
  | error error => exact reaches.of_done

theorem Reaches.of_call {request : I.Call} {next : I.Answer request → Program I ε α}
    {made : List (Exchange I)} {rest : Program I ε α}
    (reaches : (Program.call request next).Reaches made rest) :
    (made = [] ∧ rest = .call request next) ∨
      ∃ answer later, made = ⟨request, answer⟩ :: later ∧ (next answer).Reaches later rest := by
  cases reaches with
  | refl => exact Or.inl ⟨rfl, rfl⟩
  | call _ later => exact Or.inr ⟨_, _, rfl, later⟩

/-- A sequence whose first part is one call has not made it, failed at it or went on. -/
theorem Reaches.of_call_bind {request : I.Call} {decode : I.Answer request → Except ε α}
    {next : α → Program I ε β} {made : List (Exchange I)} {rest : Program I ε β}
    (reaches : ((Program.call request fun answer => .done (decode answer)) >>= next).Reaches made
      rest) :
    (made = [] ∧ rest.result? = none) ∨
      ∃ answer later, made = ⟨request, answer⟩ :: later ∧
        ((∃ error, decode answer = .error error ∧ later = [] ∧ rest = .done (.error error)) ∨
          ∃ value, decode answer = .ok value ∧ (next value).Reaches later rest) := by
  rw [Program.call_bind] at reaches
  rcases reaches.of_call with ⟨unmade, rfl⟩ | ⟨answer, later, split, after⟩
  · exact Or.inl ⟨unmade, rfl⟩
  · refine Or.inr ⟨answer, later, split, ?_⟩
    cases decoded : decode answer with
    | error error =>
        rw [decoded, done_error_bind] at after
        rcases after.of_done with ⟨ended, same⟩
        exact Or.inl ⟨error, rfl, ended, same⟩
    | ok value =>
        rw [decoded, done_ok_bind] at after
        exact Or.inr ⟨value, rfl, after⟩

/-- The exchanges made determine how the program goes on. -/
theorem Reaches.unique {program rest other : Program I ε α} {made : List (Exchange I)}
    (reaches : program.Reaches made rest) (reachesToo : program.Reaches made other) :
    rest = other := by
  induction reaches with
  | refl program =>
      cases reachesToo
      rfl
  | call request later ih =>
      cases reachesToo with
      | call _ laterToo => exact ih laterToo

/-- A sequence is in its first part, failed there, or is in its second part. -/
theorem Reaches.bind_cases {program : Program I ε α} {next : α → Program I ε β}
    {made : List (Exchange I)} {rest : Program I ε β}
    (reaches : (program >>= next).Reaches made rest) :
    (∃ request, ∃ later : I.Answer request → Program I ε α,
        program.Reaches made (.call request later) ∧ rest = .call request later >>= next) ∨
      (∃ error, program.Reaches made (.done (.error error)) ∧ rest = .done (.error error)) ∨
      ∃ front back value, made = front ++ back ∧ program.Reaches front (.done (.ok value)) ∧
        (next value).Reaches back rest := by
  induction program generalizing made with
  | done result =>
      cases result with
      | ok value => exact Or.inr (Or.inr ⟨[], made, value, rfl, .refl _, reaches⟩)
      | error error =>
          rw [done_error_bind] at reaches
          cases reaches
          exact Or.inr (Or.inl ⟨error, .refl _, rfl⟩)
  | call request later ih =>
      rw [call_bind] at reaches
      cases reaches with
      | refl => exact Or.inl ⟨request, later, .refl _, rfl⟩
      | call _ after =>
          rcases ih _ after with
            ⟨asked, more, inside, same⟩ | ⟨error, failed, same⟩ |
            ⟨front, back, value, split, first, second⟩
          · exact Or.inl ⟨asked, more, .call request inside, same⟩
          · exact Or.inr (Or.inl ⟨error, .call request failed, same⟩)
          · refine Or.inr (Or.inr ⟨_ :: front, back, value, ?_, .call request first, second⟩)
            rw [split, List.cons_append]

theorem Reaches.of_void {program : Program I ε α} {made : List (Exchange I)}
    {rest : Program I ε Unit} (reaches : program.void.Reaches made rest) :
    ∃ inner, program.Reaches made inner ∧ rest = inner.void := by
  rcases reaches.bind_cases with
    ⟨request, later, inside, same⟩ | ⟨error, failed, same⟩ |
    ⟨front, back, value, split, ended, after⟩
  · exact ⟨_, inside, same⟩
  · exact ⟨_, failed, same⟩
  · cases after
    rw [List.append_nil] at split
    subst split
    exact ⟨_, ended, rfl⟩

/-- What a program has done so far and what it is left with, if it obeys a rule. -/
theorem Obeys.reached {program rest : Program I ε α} {made : List (Exchange I)}
    {invariant : List (Exchange I) → Prop} {post : List (Exchange I) → Except ε α → Prop}
    (obeys : program.Obeys (fun past _ => invariant past) [] fun past result =>
      invariant past ∧ post past result) (reaches : program.Reaches made rest) :
    invariant made ∧ ∀ result, rest.result? = some result → post made result := by
  have here := obeys.reaches reaches
  rw [List.nil_append] at here
  cases rest with
  | done result =>
      refine ⟨here.1, ?_⟩
      intro other same
      rcases Option.some.inj same with rfl
      exact here.2
  | call request next => exact ⟨here.1, by simp [result?]⟩

end Program

end Interaction
