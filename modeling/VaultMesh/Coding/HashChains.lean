import Mathlib.Data.List.Forall2
import Mathlib.Data.List.Infix

/-!
# Hash chains

Every entry of a chain is checked against its position and against the hash of
the entry before it. What such a check can promise follows from two properties
of the check. If a hash determines the hash before it, the last hash of a chain
determines all others, so chains of equal length with the same last hash agree
everywhere. If no entry fits two positions, entries can be taken out of a chain
at its end only.
-/

namespace Coding

variable {ε η : Type} {hash : ε → η} {fits : ℕ → η → ε → Prop}

/-- From `position` on, every entry fits its position and the hash before it. -/
def Chained (hash : ε → η) (fits : ℕ → η → ε → Prop) : ℕ → η → List ε → Prop
  | _, _, [] => True
  | position, before, entry :: entries =>
      fits position before entry ∧ Chained hash fits (position + 1) (hash entry) entries

/-- The hash of the last entry, or that before the first one. -/
def headHash (hash : ε → η) : η → List ε → η
  | before, [] => before
  | _, entry :: entries => headHash hash (hash entry) entries

@[simp]
theorem headHash_append_singleton (before : η) (entries : List ε) (entry : ε) :
    headHash hash before (entries ++ [entry]) = hash entry := by
  induction entries generalizing before with
  | nil => rfl
  | cons first entries ih => exact ih (hash first)

theorem headHash_eq_getLast? (before : η) (entries : List ε) :
    headHash hash before entries = (entries.getLast?.map hash).getD before := by
  rcases List.eq_nil_or_concat entries with rfl | ⟨front, last, rfl⟩
  · rfl
  · simp

theorem chained_append (position : ℕ) (before : η) (front back : List ε) :
    Chained hash fits position before (front ++ back) ↔
      Chained hash fits position before front ∧
        Chained hash fits (position + front.length) (headHash hash before front) back := by
  induction front generalizing position before with
  | nil => simp [Chained, headHash]
  | cons entry front ih =>
      simp only [List.cons_append, Chained, headHash, ih, List.length_cons, and_assoc]
      rw [Nat.add_right_comm, Nat.add_assoc]

theorem Chained.of_prefix {position : ℕ} {before : η} {front entries : List ε}
    (chained : Chained hash fits position before entries) (isPrefix : front <+: entries) :
    Chained hash fits position before front := by
  rcases isPrefix with ⟨back, rfl⟩
  exact ((chained_append position before front back).mp chained).1

theorem Chained.fits_of_mem {position : ℕ} {before : η} {entries : List ε} {entry : ε}
    (chained : Chained hash fits position before entries) (mem : entry ∈ entries) :
    ∃ place previous, position ≤ place ∧ place < position + entries.length ∧
      fits place previous entry := by
  rcases List.append_of_mem mem with ⟨front, back, rfl⟩
  rcases ((chained_append position before front (entry :: back)).mp chained).2 with ⟨here, -⟩
  refine ⟨position + front.length, _, Nat.le_add_right _ _, ?_, here⟩
  simp

/-- Replacing an entry by one with the same hash is seen at that entry or nowhere. -/
theorem Chained.replace {position : ℕ} {before : η} {front back : List ε} {entry other : ε}
    (chained : Chained hash fits position before (front ++ entry :: back))
    (sameHash : hash other = hash entry) :
    Chained hash fits position before (front ++ other :: back) ↔
      fits (position + front.length) (headHash hash before front) other := by
  rw [chained_append] at chained ⊢
  simp only [Chained, sameHash] at chained ⊢
  constructor
  · intro replaced
    exact replaced.2.1
  · intro fitting
    exact ⟨chained.1, fitting, chained.2.2⟩

theorem Chained.headHash_proper {proper : η → Prop}
    (hashed : ∀ position before entry, fits position before entry → proper (hash entry))
    {position : ℕ} {before : η} {entries : List ε} (start : proper before)
    (chained : Chained hash fits position before entries) :
    proper (headHash hash before entries) := by
  induction entries generalizing position before with
  | nil => exact start
  | cons entry entries ih => exact ih (hashed _ _ _ chained.1) chained.2

/--
Chains of equal length with the same last hash are related entry by entry, if a
hash determines the proper hash before it and its entry up to the relation.
-/
theorem Chained.forall₂_of_headHash (proper : η → Prop) {same : ε → ε → Prop} {start : η}
    {left right : List ε} (startProper : proper start)
    (hashed : ∀ position before entry, fits position before entry → proper (hash entry))
    (binds : ∀ position before before', ∀ entry ∈ left, ∀ other ∈ right,
      proper before → proper before' → fits position before entry → fits position before' other →
        hash entry = hash other → before = before' ∧ same entry other)
    (leftChained : Chained hash fits 0 start left) (rightChained : Chained hash fits 0 start right)
    (length : left.length = right.length)
    (sameHead : headHash hash start left = headHash hash start right) :
    List.Forall₂ same left right := by
  -- The induction runs from the last entry back to the first.
  induction left using List.reverseRecOn generalizing right with
  | nil =>
      rw [List.length_nil, eq_comm, List.length_eq_zero_iff] at length
      subst length
      exact List.Forall₂.nil
  | append_singleton left entry ih =>
      rcases List.eq_nil_or_concat' right with rfl | ⟨right, other, rfl⟩
      · simp at length
      simp only [List.length_append, List.length_singleton, Nat.add_right_cancel_iff] at length
      simp only [headHash_append_singleton] at sameHead
      simp only [chained_append, Chained, Nat.zero_add, and_true] at leftChained rightChained
      rcases leftChained with ⟨leftChained, fitting⟩
      rcases rightChained with ⟨rightChained, otherFitting⟩
      rw [← length] at otherFitting
      rcases binds _ _ _ entry (by simp) other (by simp)
        (leftChained.headHash_proper hashed startProper)
        (rightChained.headHash_proper hashed startProper) fitting otherFitting sameHead with
        ⟨sameBefore, related⟩
      have front : List.Forall₂ same left right := by
        apply ih _ leftChained rightChained length sameBefore
        intro position before before' one oneMem two twoMem
        apply binds
        · exact List.mem_append_left _ oneMem
        · exact List.mem_append_left _ twoMem
      exact List.rel_append front (List.Forall₂.cons related List.Forall₂.nil)

/-- If no entry fits two positions, what is kept of a chain is a chain only at its beginning. -/
theorem Chained.prefix_of_sublist (limit : ℕ) {position : ℕ} {before before' : η}
    {kept entries : List ε}
    (apart : ∀ earlier later previous previous' entry, earlier < later → later < limit →
      fits earlier previous entry → ¬fits later previous' entry)
    (sublist : List.Sublist kept entries) (bound : position + entries.length ≤ limit)
    (chained : Chained hash fits position before entries)
    (keptChained : Chained hash fits position before' kept) : kept <+: entries := by
  induction sublist generalizing position before before' with
  | slnil => exact List.prefix_rfl
  | @cons kept entries removed sublist ih =>
      -- The first entry kept would have to fit the position of the removed one.
      cases kept with
      | nil => exact List.nil_prefix
      | cons entry kept =>
          rcases chained.2.fits_of_mem (sublist.subset List.mem_cons_self) with
            ⟨place, previous, later, inside, fitting⟩
          simp only [List.length_cons] at bound
          exact absurd fitting
            (apart position place before' previous entry (by omega) (by omega) keptChained.1)
  | @cons_cons kept entries entry sublist ih =>
      simp only [List.length_cons] at bound
      apply (List.prefix_cons_inj entry).mpr
      exact ih (by omega) chained.2 keptChained.2

end Coding
