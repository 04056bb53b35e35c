import Mathlib.Data.Finset.Card
import Mathlib.Data.Finset.Sort
import Mathlib.Data.List.Sort
import Mathlib.Data.Prod.Lex
import Mathlib.Order.Preorder.Finite

/-!
# Keeping the best of a growing set

Several parties each look at some members of a growing set, rank what they see
and drop what comes after the first `keep`. As long as they rank alike, the best
`keep` members are never dropped, whatever each party saw.

A stable sort ranks alike when ties are listed alike: `pairwise_insertionSort`
says that it then sorts by the key first and by the listing second.
-/

namespace Ranking

variable {α κ ρ : Type*}

section StableSort

variable [LinearOrder κ] [Preorder ρ] {r : α → α → Prop} [DecidableRel r]

theorem pairwise_orderedInsert (key : α → κ) (rank : α → ρ)
    (sorts : ∀ one other, r one other ↔ key one ≤ key other) {first : α} {sorted : List α}
    (ahead : ∀ other ∈ sorted, key first = key other → rank first < rank other)
    (pairwise : sorted.Pairwise fun one other =>
      toLex (key one, rank one) < toLex (key other, rank other)) :
    (sorted.orderedInsert r first).Pairwise fun one other =>
      toLex (key one, rank one) < toLex (key other, rank other) := by
  induction sorted with
  | nil => simp
  | cons head tail ih =>
      rcases List.pairwise_cons.mp pairwise with ⟨headFirst, tailPairwise⟩
      rw [List.orderedInsert_cons]
      split
      · next before =>
          refine List.pairwise_cons.mpr ⟨?_, pairwise⟩
          intro other present
          have headKey := (sorts first head).mp before
          have otherKey : key head ≤ key other := by
            rcases List.mem_cons.mp present with rfl | behind
            · exact le_refl _
            · rcases Prod.Lex.toLex_lt_toLex.mp (headFirst other behind) with less | ⟨same, -⟩
              · exact le_of_lt less
              · exact le_of_eq same
          apply Prod.Lex.toLex_lt_toLex.mpr
          rcases lt_or_eq_of_le (headKey.trans otherKey) with less | same
          · exact Or.inl less
          · exact Or.inr ⟨same, ahead other present same⟩
      · next behind =>
          have less : key head < key first := by
            rw [sorts] at behind
            exact lt_of_not_ge behind
          refine List.pairwise_cons.mpr ⟨?_, ih ?_ tailPairwise⟩
          · intro other present
            rcases (List.mem_orderedInsert r).mp present with rfl | inTail
            · exact Prod.Lex.toLex_lt_toLex.mpr (Or.inl less)
            · exact headFirst other inTail
          · exact fun other present => ahead other (List.mem_cons_of_mem _ present)

/-- A stable sort by a key, where ties are listed in the order of `rank`. -/
theorem pairwise_insertionSort (key : α → κ) (rank : α → ρ)
    (sorts : ∀ one other, r one other ↔ key one ≤ key other) {listed : List α}
    (ties : listed.Pairwise fun one other => key one = key other → rank one < rank other) :
    (listed.insertionSort r).Pairwise fun one other =>
      toLex (key one, rank one) < toLex (key other, rank other) := by
  induction ties with
  | nil => simp
  | @cons first rest ahead _ ih =>
      rw [List.insertionSort_cons]
      apply pairwise_orderedInsert key rank sorts ?_ ih
      intro other present
      exact ahead other ((List.mem_insertionSort r).mp present)

end StableSort

/-- If `keep` members are ahead of every dropped one, `keep` members are left. -/
theorem min_card_le_card_sdiff [Preorder κ] [DecidableEq α] (key : α → κ)
    (members dropped : Finset α) (keep : ℕ)
    (surplus : ∀ member ∈ members, member ∈ dropped →
      ∃ ahead ⊆ members, keep ≤ ahead.card ∧ ∀ other ∈ ahead, key other < key member) :
    min keep members.card ≤ (members \ dropped).card := by
  by_cases none : (members ∩ dropped).Nonempty
  · -- The best dropped member has only kept members ahead.
    rcases Finset.exists_minimalFor key _ none with ⟨best, isDropped, isBest⟩
    rcases Finset.mem_inter.mp isDropped with ⟨isMember, wasDropped⟩
    rcases surplus best isMember wasDropped with ⟨ahead, inside, enough, better⟩
    have kept : ahead ⊆ members \ dropped := by
      intro other present
      refine Finset.mem_sdiff.mpr ⟨inside present, ?_⟩
      intro alsoDropped
      have worse := isBest (Finset.mem_inter.mpr ⟨inside present, alsoDropped⟩)
        (better other present).le
      exact absurd (better other present) worse.not_gt
    exact (min_le_left _ _).trans (enough.trans (Finset.card_le_card kept))
  · have untouched : members \ dropped = members := by
      apply Finset.sdiff_eq_self_of_disjoint
      rw [Finset.disjoint_iff_inter_eq_empty]
      exact Finset.not_nonempty_iff_eq_empty.mp none
    rw [untouched]
    exact min_le_right _ _

end Ranking
