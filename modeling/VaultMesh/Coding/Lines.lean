import Mathlib.Data.List.Infix

/-!
# Texts of separated lines

A list of lines is written out with a separator after each. If one list has no
separator inside its lines, no other list with the same number of lines is
written out to the same text: a line of the other list with a separator inside
would give the text more separators than lines.

Fields put together around a marker are read back from the text unless a field
contains a marker. The second half states this for two cuts of one text at
markers which never overlap.
-/

namespace Coding

variable {α : Type}

def unlines (separator : α) : List (List α) → List α
  | [] => []
  | line :: lines => line ++ separator :: unlines separator lines

theorem append_separator_inj {separator : α} {left right leftRest rightRest : List α}
    (leftFree : separator ∉ left) (rightFree : separator ∉ right)
    (same : left ++ separator :: leftRest = right ++ separator :: rightRest) :
    left = right ∧ leftRest = rightRest := by
  induction left generalizing right with
  | nil =>
      cases right with
      | nil => exact ⟨rfl, (List.cons.inj same).2⟩
      | cons symbol right =>
          rcases (List.cons.inj same).1 with rfl
          exact absurd List.mem_cons_self rightFree
  | cons symbol left ih =>
      cases right with
      | nil =>
          rcases (List.cons.inj same).1 with rfl
          exact absurd List.mem_cons_self leftFree
      | cons other right =>
          rcases List.cons.inj same with ⟨rfl, sameTail⟩
          simp only [List.mem_cons, not_or] at leftFree rightFree
          rcases ih leftFree.2 rightFree.2 sameTail with ⟨rfl, sameRest⟩
          exact ⟨rfl, sameRest⟩

variable [DecidableEq α] {separator : α}

/-- There are as many separators as lines, and those inside the lines. -/
theorem count_unlines (lines : List (List α)) :
    (unlines separator lines).count separator = lines.length + lines.flatten.count separator := by
  induction lines with
  | nil => rfl
  | cons line lines ih =>
      simp only [unlines, List.count_append, List.count_cons_self, ih, List.length_cons,
        List.flatten_cons]
      omega

theorem unlines_injective_of_free {left right : List (List α)}
    (leftFree : separator ∉ left.flatten) (length : left.length = right.length)
    (same : unlines separator left = unlines separator right) : left = right := by
  have rightFree : separator ∉ right.flatten := by
    have counts := congrArg (List.count separator) same
    rw [count_unlines, count_unlines, List.count_eq_zero.mpr leftFree] at counts
    apply List.count_eq_zero.mp
    omega
  induction left generalizing right with
  | nil =>
      cases right with
      | nil => rfl
      | cons line right => cases length
  | cons line left ih =>
      cases right with
      | nil => cases length
      | cons other right =>
          simp only [List.flatten_cons, List.mem_append, not_or] at leftFree rightFree
          rcases append_separator_inj leftFree.1 rightFree.1 same with ⟨rfl, sameRest⟩
          rw [ih leftFree.2 (Nat.succ.inj length) sameRest rightFree.2]

/-! ## Cuts at markers -/

section Markers

variable {α : Type}

/-- An occurrence of `second` never starts inside one of `first`. -/
def Clear (first second : List α) : Prop :=
  ∀ rest ∈ first.tails.tail, rest ≠ [] → ¬rest <+: second ∧ ¬second <+: rest

instance [DecidableEq α] (first second : List α) : Decidable (Clear first second) :=
  inferInstanceAs (Decidable (∀ rest ∈ first.tails.tail,
    rest ≠ [] → ¬rest <+: second ∧ ¬second <+: rest))

theorem mem_tail_tails {rest front word : List α} (cut : word = front ++ rest)
    (moved : front ≠ []) : rest ∈ word.tails.tail := by
  cases word with
  | nil =>
      rw [List.nil_eq_append_iff] at cut
      exact absurd cut.1 moved
  | cons symbol word =>
      cases front with
      | nil => exact absurd rfl moved
      | cons other front =>
          rw [List.tails, List.tail_cons, List.mem_tails]
          rw [List.cons_append, List.cons.injEq] at cut
          exact ⟨front, cut.2.symm⟩

/-- The marker of the longer cut lies behind the one of the shorter cut. -/
theorem cut_behind {first second before after before' after' : List α}
    (clear : Clear first second)
    (same : before ++ (first ++ after) = before' ++ (second ++ after'))
    (shorter : before.length < before'.length) :
    ∃ between, before' = before ++ (first ++ between) ∧
      after = between ++ (second ++ after') := by
  rcases List.append_eq_append_iff.mp same with
    ⟨moved, beforeEq, restEq⟩ | ⟨moved, beforeEq, restEq⟩
  · rcases List.append_eq_append_iff.mp restEq with
      ⟨between, movedEq, afterEq⟩ | ⟨rest, firstEq, restEq'⟩
    · exact ⟨between, by rw [beforeEq, movedEq], afterEq⟩
    · have movedOn : moved ≠ [] := by
        intro empty
        rw [beforeEq, empty] at shorter
        simp at shorter
      by_cases covered : rest = []
      · subst covered
        refine ⟨[], ?_, by simpa using restEq'.symm⟩
        rw [beforeEq, firstEq]
        simp
      · have apart := clear rest (mem_tail_tails firstEq movedOn) covered
        rcases List.append_eq_append_iff.mp restEq' with
          ⟨more, restEq'', -⟩ | ⟨more, secondEq, -⟩
        · exact absurd ⟨more, restEq''.symm⟩ apart.2
        · exact absurd ⟨more, secondEq.symm⟩ apart.1
  · rw [beforeEq, List.length_append] at shorter
    omega

/-- Two cuts of one text: one marker lies behind the other, or the fronts agree. -/
theorem cut_cases {first second before after before' after' : List α}
    (clear : Clear first second) (clear' : Clear second first)
    (same : before ++ (first ++ after) = before' ++ (second ++ after')) :
    (∃ between, before' = before ++ (first ++ between) ∧
      after = between ++ (second ++ after')) ∨
    (∃ between, before = before' ++ (second ++ between) ∧
      after' = between ++ (first ++ after)) ∨
    before = before' ∧ first ++ after = second ++ after' := by
  rcases Nat.lt_trichotomy before.length before'.length with shorter | equal | longer
  · exact Or.inl (cut_behind clear same shorter)
  · exact Or.inr (Or.inr (List.append_inj same equal))
  · exact Or.inr (Or.inl (cut_behind clear' same.symm longer))

theorem infix_middle (left middle right : List α) : middle <:+: left ++ (middle ++ right) :=
  ⟨left, right, by rw [List.append_assoc]⟩

end Markers

end Coding
