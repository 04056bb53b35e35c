import Mathlib.Data.Finset.Card
import Mathlib.Data.List.Basic
import Mathlib.Data.List.Forall2

/-!
# Words with erasures

A list of slots masks a word when every filled slot holds the word's symbol at
that position. The number of filled slots decides what an erasure code can do
with the word, so the facts needed about it are collected here. The second
half cuts a list into padded blocks of one size and puts it together again.
-/

namespace Coding

variable {α : Type}

/-- Every filled slot holds the symbol of the word at its position. -/
def Masks (slots : List (Option α)) (word : List α) : Prop :=
  List.Forall₂ (fun slot symbol => ∀ value, slot = some value → value = symbol) slots word

def filled (slots : List (Option α)) : ℕ :=
  slots.countP Option.isSome

@[simp]
theorem filled_nil : filled ([] : List (Option α)) = 0 :=
  rfl

@[simp]
theorem filled_cons_some (value : α) (slots : List (Option α)) :
    filled (some value :: slots) = filled slots + 1 := by
  simp [filled]

@[simp]
theorem filled_cons_none (slots : List (Option α)) :
    filled (none :: slots) = filled slots := by
  simp [filled]

@[simp]
theorem filled_append (left right : List (Option α)) :
    filled (left ++ right) = filled left + filled right := by
  simp [filled]

theorem filled_le_length (slots : List (Option α)) : filled slots ≤ slots.length :=
  List.countP_le_length

theorem Masks.length_eq {slots : List (Option α)} {word : List α} (masks : Masks slots word) :
    slots.length = word.length :=
  List.Forall₂.length_eq masks

theorem Masks.eq_map_some {slots : List (Option α)} {word : List α} (masks : Masks slots word)
    (full : word.length ≤ filled slots) : slots = word.map some := by
  induction masks with
  | nil => rfl
  | @cons slot symbol slots word holds rest ih =>
      have bound := filled_le_length slots
      have lengths : slots.length = word.length := List.Forall₂.length_eq rest
      cases slot with
      | none =>
          simp only [List.length_cons, filled_cons_none] at full
          omega
      | some value =>
          simp only [List.length_cons, filled_cons_some] at full
          rw [holds value rfl, ih (by omega)]
          rfl

theorem exists_filled_of_pos {slots : List (Option α)} (positive : 0 < filled slots) :
    ∃ value rest, slots.filterMap id = value :: rest := by
  induction slots with
  | nil => simp at positive
  | cons slot slots ih =>
      cases slot with
      | none => simpa using ih (by simpa using positive)
      | some value => exact ⟨value, slots.filterMap id, by simp⟩

theorem Masks.getElem? {slots : List (Option α)} {word : List α} (masks : Masks slots word)
    {position : ℕ} {value : α} (found : slots[position]? = some (some value)) :
    word[position]? = some value := by
  induction masks generalizing position with
  | nil => simp at found
  | @cons slot symbol slots word holds rest ih =>
      cases position with
      | zero =>
          simp only [List.getElem?_cons_zero, Option.some.injEq] at found ⊢
          exact (holds value found).symm
      | succ position =>
          simp only [List.getElem?_cons_succ] at found ⊢
          exact ih found

theorem Masks.mem {slots : List (Option α)} {word : List α} (masks : Masks slots word) {value : α}
    (filled : value ∈ slots.filterMap id) : value ∈ word := by
  have listed : some value ∈ slots := by simpa using filled
  rcases List.mem_iff_getElem?.mp listed with ⟨position, found⟩
  exact List.mem_of_getElem? (masks.getElem? found)

/-- Filling a slot with the symbol of its position. -/
theorem Masks.set {slots : List (Option α)} {word : List α} (masks : Masks slots word)
    {position : ℕ} {value : α} (symbol : word[position]? = some value) :
    Masks (slots.set position (some value)) word := by
  induction masks generalizing position with
  | nil => simp at symbol
  | @cons slot first slots word holds rest ih =>
      cases position with
      | zero =>
          rcases Option.some.inj symbol with rfl
          refine List.Forall₂.cons ?_ rest
          intro other same
          exact (Option.some.inj same).symm
      | succ position =>
          rw [List.getElem?_cons_succ] at symbol
          exact List.Forall₂.cons holds (ih symbol)

/-! ## Erasing slots -/

/-- The word with every slot erased whose position is not kept. -/
def keepOnly (kept : Finset ℕ) (word : List α) : List (Option α) :=
  word.mapIdx fun position symbol => if position ∈ kept then some symbol else none

theorem keepOnly_concat (kept : Finset ℕ) (word : List α) (symbol : α) :
    keepOnly kept (word ++ [symbol]) =
      keepOnly kept word ++ [if word.length ∈ kept then some symbol else none] := by
  simp [keepOnly]

theorem masks_keepOnly (kept : Finset ℕ) (word : List α) : Masks (keepOnly kept word) word := by
  induction word using List.reverseRecOn with
  | nil => exact List.Forall₂.nil
  | append_singleton word symbol ih =>
      rw [keepOnly_concat]
      apply List.rel_append ih
      apply List.Forall₂.cons _ List.Forall₂.nil
      intro value slot
      split at slot
      · exact (Option.some.inj slot).symm
      · cases slot

/-- As many slots are filled as positions of the word are kept. -/
theorem filled_keepOnly (kept : Finset ℕ) (word : List α) :
    filled (keepOnly kept word) = (kept.filter (· < word.length)).card := by
  induction word using List.reverseRecOn with
  | nil => simp [keepOnly]
  | append_singleton word symbol ih =>
      rw [keepOnly_concat, filled_append, ih]
      by_cases last : word.length ∈ kept
      · have split : kept.filter (· < (word ++ [symbol]).length) =
            insert word.length (kept.filter (· < word.length)) := by
          ext position
          simp only [List.length_append, List.length_singleton, Finset.mem_filter,
            Finset.mem_insert]
          constructor
          · rintro ⟨member, bound⟩
            by_cases equal : position = word.length
            · exact Or.inl equal
            · exact Or.inr ⟨member, by omega⟩
          · intro either
            rcases either with rfl | ⟨member, bound⟩
            · exact ⟨last, by omega⟩
            · exact ⟨member, by omega⟩
        rw [split, Finset.card_insert_of_notMem (by simp)]
        simp [last]
      · have same : kept.filter (· < (word ++ [symbol]).length) =
            kept.filter (· < word.length) := by
          apply Finset.filter_congr
          intro position member
          have : position ≠ word.length := fun equal => last (equal ▸ member)
          simp only [List.length_append, List.length_singleton]
          omega
        rw [same]
        simp [last]

/-! ## Lists with enough good entries -/

def AtLeast (count : ℕ) (good : α → Prop) (entries : List α) : Prop :=
  ∃ chosen, List.Sublist chosen entries ∧ count ≤ chosen.length ∧ ∀ entry ∈ chosen, good entry

theorem AtLeast.imp {count : ℕ} {good better : α → Prop} {entries : List α}
    (enough : AtLeast count good entries) (implies : ∀ entry ∈ entries, good entry → better entry) :
    AtLeast count better entries := by
  rcases enough with ⟨chosen, sublist, long, all⟩
  exact ⟨chosen, sublist, long, fun entry mem =>
    implies entry (sublist.subset mem) (all entry mem)⟩

theorem AtLeast.of_le {count fewer : ℕ} {good : α → Prop} {entries : List α}
    (enough : AtLeast count good entries) (bound : fewer ≤ count) :
    AtLeast fewer good entries := by
  rcases enough with ⟨chosen, sublist, long, all⟩
  exact ⟨chosen, sublist, Nat.le_trans bound long, all⟩

/-- Entries with different keys: `hit` touches at most as many as it has elements. -/
theorem atLeast_of_nodup {β : Type} [DecidableEq β] {key : α → β} {entries : List α}
    (nodup : (entries.map key).Nodup) (hit : Finset β) :
    AtLeast (entries.length - hit.card) (fun entry => key entry ∉ hit) entries := by
  refine ⟨entries.filter fun entry => decide (key entry ∉ hit), List.filter_sublist, ?_, by simp⟩
  have touched : (entries.filter fun entry => decide (key entry ∈ hit)).length ≤ hit.card := by
    have distinct : ((entries.filter fun entry => decide (key entry ∈ hit)).map key).Nodup :=
      nodup.sublist (List.filter_sublist.map key)
    rw [← List.length_map key, ← List.toFinset_card_of_nodup distinct]
    apply Finset.card_le_card
    intro value mem
    simp only [List.mem_toFinset, List.mem_map, List.mem_filter, decide_eq_true_eq] at mem
    rcases mem with ⟨entry, ⟨-, inside⟩, rfl⟩
    exact inside
  have total := List.length_eq_length_filter_add (l := entries) fun entry =>
    decide (key entry ∈ hit)
  simp only [← decide_not] at total
  omega

/-- If filled slots are good, there are as many good entries as filled slots. -/
theorem atLeast_filled {β : Type} {relates : α → Option β → Prop} {good : α → Prop}
    {entries : List α} {slots : List (Option β)} (related : List.Forall₂ relates entries slots)
    (filledGood : ∀ entry value, relates entry (some value) → good entry) :
    AtLeast (filled slots) good entries := by
  induction related with
  | nil => exact ⟨[], List.Sublist.slnil, Nat.le_refl _, by simp⟩
  | @cons entry slot entries slots here rest ih =>
      rcases ih with ⟨chosen, sublist, long, all⟩
      cases slot with
      | none => exact ⟨chosen, sublist.cons entry, by simpa using long, all⟩
      | some value =>
          refine ⟨entry :: chosen, sublist.cons_cons entry, by simpa using long, ?_⟩
          intro other mem
          rcases List.mem_cons.mp mem with rfl | later
          · exact filledGood other value here
          · exact all other later

/-- If empty slots are never good, there are at least as many filled slots as good entries. -/
theorem le_filled_of_atLeast {β : Type} {relates : α → Option β → Prop} {good : α → Prop}
    {entries : List α} {slots : List (Option β)} {count : ℕ}
    (related : List.Forall₂ relates entries slots)
    (emptyBad : ∀ entry, relates entry none → ¬good entry)
    (enough : AtLeast count good entries) : count ≤ filled slots := by
  rcases enough with ⟨chosen, sublist, long, all⟩
  refine Nat.le_trans long ?_
  clear long
  induction related generalizing chosen with
  | nil => simp [List.sublist_nil.mp sublist]
  | @cons entry slot entries slots here rest ih =>
      cases sublist with
      | cons _ inner =>
          have := ih chosen inner all
          cases slot with
          | none => simpa using this
          | some value =>
              rw [filled_cons_some]
              omega
      | cons_cons _ inner =>
          have := ih _ inner fun other mem => all other (List.mem_cons_of_mem _ mem)
          cases slot with
          | none => exact absurd (all entry (by simp)) (emptyBad entry here)
          | some value =>
              rw [filled_cons_some, List.length_cons]
              omega

theorem le_filled_iff_atLeast {β : Type} {relates : α → Option β → Prop} {good : α → Prop}
    {entries : List α} {slots : List (Option β)} {count : ℕ}
    (related : List.Forall₂ relates entries slots)
    (filledGood : ∀ entry value, relates entry (some value) → good entry)
    (emptyBad : ∀ entry, relates entry none → ¬good entry) :
    count ≤ filled slots ↔ AtLeast count good entries :=
  ⟨fun enough => (atLeast_filled related filledGood).of_le enough,
    le_filled_of_atLeast related emptyBad⟩

/-- All slots are filled exactly if all entries are good. -/
theorem length_le_filled_iff {β : Type} {good : α → Prop} {entries : List α}
    {slots : List (Option β)}
    (related : List.Forall₂ (fun entry slot => slot.isSome ↔ good entry) entries slots) :
    entries.length ≤ filled slots ↔ ∀ entry ∈ entries, good entry := by
  induction related with
  | nil => simp
  | @cons entry slot entries slots here rest ih =>
      have bound := filled_le_length slots
      have lengths := rest.length_eq
      cases slot with
      | none =>
          have bad : ¬good entry := fun isGood => by simpa using here.mpr isGood
          simp only [List.length_cons, filled_cons_none, List.forall_mem_cons, bad, false_and,
            iff_false]
          omega
      | some value =>
          have isGood : good entry := here.mp rfl
          simp only [List.length_cons, filled_cons_some, List.forall_mem_cons, isGood, true_and]
          rw [← ih]
          omega

/-! ## Blocks -/

/-- Block `index` of a list cut into blocks of `size`, the last ones filled up with `padding`. -/
def block (padding : α) (size : ℕ) (data : List α) (index : ℕ) : List α :=
  let start := index * size
  if start < data.length then
    let stop := min (start + size) data.length
    (data.drop start).take (stop - start) ++ List.replicate (size - (stop - start)) padding
  else
    List.replicate size padding

@[simp]
theorem length_block (padding : α) (size : ℕ) (data : List α) (index : ℕ) :
    (block padding size data index).length = size := by
  unfold block
  dsimp only
  split
  · simp only [List.length_append, List.length_take, List.length_drop, List.length_replicate]
    omega
  · simp

theorem block_eq_take_drop (padding : α) (size : ℕ) (data : List α) (index spare : ℕ)
    (enough : (index + 1) * size ≤ data.length + spare) :
    block padding size data index =
      ((data ++ List.replicate spare padding).drop (index * size)).take size := by
  have span : (index + 1) * size = index * size + size := Nat.succ_mul index size
  unfold block
  dsimp only
  split
  · next inside =>
      rw [List.drop_append_of_le_length (by omega), List.take_append]
      have taken : (data.drop (index * size)).take (min (index * size + size) data.length -
          index * size) = (data.drop (index * size)).take size := by
        apply List.ext_getElem?
        intro position
        simp only [List.getElem?_take, List.getElem?_drop]
        split <;> split <;> first | rfl | omega | skip
        rw [List.getElem?_eq_none (by omega)]
      rw [taken, List.take_replicate, List.length_drop]
      congr 2
      omega
  · next outside =>
      rw [List.drop_append, List.drop_eq_nil_of_le (by omega), List.nil_append,
        List.drop_replicate, List.take_replicate]
      congr 1
      omega

theorem flatten_blocks (extended : List α) (size count : ℕ)
    (exact : extended.length = count * size) :
    ((List.range count).map fun index => (extended.drop (index * size)).take size).flatten =
      extended := by
  induction count generalizing extended with
  | zero => simpa using exact
  | succ count ih =>
      have rest := ih (extended.drop size) (by
        rw [List.length_drop, exact, Nat.succ_mul]
        omega)
      rw [List.range_succ_eq_map, List.map_cons, List.flatten_cons, List.map_map]
      have shifted : ((fun index => (extended.drop (index * size)).take size) ∘ Nat.succ) =
          fun index => ((extended.drop size).drop (index * size)).take size := by
        funext index
        simp only [Function.comp_apply, List.drop_drop]
        congr 2
        rw [Nat.succ_mul]
        omega
      rw [shifted, rest]
      simp

/-- Putting the blocks together and cutting off the padding returns the list. -/
theorem take_flatten_blocks (padding : α) (size count : ℕ) (data : List α)
    (enough : data.length ≤ count * size) :
    ((List.range count).map (block padding size data)).flatten.take data.length = data := by
  have extended : (List.range count).map (block padding size data) =
      (List.range count).map fun index =>
        ((data ++ List.replicate (count * size - data.length) padding).drop
          (index * size)).take size := by
    apply List.map_congr_left
    intro index inside
    apply block_eq_take_drop
    have within : (index + 1) * size ≤ count * size :=
      Nat.mul_le_mul_right size (Nat.succ_le_of_lt (List.mem_range.mp inside))
    omega
  rw [extended, flatten_blocks _ _ _ (by simp; omega)]
  simp

end Coding
