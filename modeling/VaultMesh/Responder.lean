import Mathlib.Data.Finset.Insert
import Mathlib.Data.List.AList

/-!
# The threat responder

`EscalatingThreatResponder` counts the strikes of every fingerprint and puts it on
the blocklist at a limit. Its state is what the list of the fingerprints assessed
so far determines: a fingerprint is blocked if it was assessed often enough, and
the counters of the others are how often they were.
-/

namespace VaultMesh

inductive ThreatDecision where
  | allow
  | tarpit
  | block
  deriving DecidableEq, Repr

/-- `{:?}` of a decision. -/
def ThreatDecision.debug : ThreatDecision → String
  | .allow => "Allow"
  | .tarpit => "Tarpit"
  | .block => "Block"

structure EscalatingThreatResponder where
  strikes : AList fun _ : String => UInt32
  blocked : Finset String
  blockAfter : UInt32

namespace EscalatingThreatResponder

def new (blockAfter : UInt32) : EscalatingThreatResponder :=
  ⟨∅, ∅, max blockAfter 1⟩

def isBlocked (self : EscalatingThreatResponder) (fingerprint : String) : Bool :=
  decide (fingerprint ∈ self.blocked)

def assess (self : EscalatingThreatResponder) (signalFingerprint _attackClass : String) :
    ThreatDecision × EscalatingThreatResponder :=
  if signalFingerprint ∈ self.blocked then
    (.block, self)
  else
    let strikes := (self.strikes.lookup signalFingerprint).getD 0 + 1
    let struck := { self with strikes := self.strikes.insert signalFingerprint strikes }
    if self.blockAfter ≤ strikes then
      (.block, { struck with blocked := insert signalFingerprint self.blocked })
    else
      (.tarpit, struck)

/-- The responder has assessed these fingerprints, one after another. -/
structure Tallies (responder : EscalatingThreatResponder) (limit : ℕ) (assessed : List String) :
    Prop where
  blockAfter : responder.blockAfter.toNat = limit
  blocked : ∀ fingerprint, fingerprint ∈ responder.blocked ↔ limit ≤ assessed.count fingerprint
  strikes : ∀ fingerprint, assessed.count fingerprint < limit →
    ((responder.strikes.lookup fingerprint).getD 0).toNat = assessed.count fingerprint

/-- What the next assessment of a fingerprint decides. -/
def verdict (limit : ℕ) (assessed : List String) (fingerprint : String) : ThreatDecision :=
  if assessed.count fingerprint + 1 < limit then .tarpit else .block

theorem tallies_new (blockAfter : UInt32) :
    (new blockAfter).Tallies (max blockAfter.toNat 1) [] where
  blockAfter := UInt32.toNat_max blockAfter 1
  blocked := by
    intro fingerprint
    simp [new]
  strikes := by
    intro fingerprint _
    rfl

variable {responder : EscalatingThreatResponder} {limit : ℕ} {assessed : List String}

theorem Tallies.isBlocked (tallies : responder.Tallies limit assessed) (fingerprint : String) :
    responder.isBlocked fingerprint = decide (limit ≤ assessed.count fingerprint) := by
  simp [EscalatingThreatResponder.isBlocked, tallies.blocked]

/-- The counter never overflows, since the limit is a number of the same size. -/
theorem Tallies.toNat_strikes (tallies : responder.Tallies limit assessed) {fingerprint : String}
    (few : assessed.count fingerprint < limit) :
    ((responder.strikes.lookup fingerprint).getD 0 + 1).toNat =
      assessed.count fingerprint + 1 := by
  have bound := responder.blockAfter.toNat_lt
  rw [tallies.blockAfter] at bound
  rw [UInt32.toNat_add, tallies.strikes fingerprint few, UInt32.toNat_one]
  omega

/-- Beyond the limit nothing changes. -/
theorem Tallies.of_blocked (tallies : responder.Tallies limit assessed) {fingerprint : String}
    (many : limit ≤ assessed.count fingerprint) :
    responder.Tallies limit (assessed ++ [fingerprint]) where
  blockAfter := tallies.blockAfter
  blocked := by
    intro other
    rw [tallies.blocked, List.count_append, List.count_singleton]
    by_cases same : fingerprint = other
    · subst same
      simp only [beq_self_eq_true, if_true]
      omega
    · simp [same]
  strikes := by
    intro other few
    rw [List.count_append, List.count_singleton] at few ⊢
    by_cases same : fingerprint = other
    · subst same
      omega
    · simp only [beq_iff_eq, same, if_false, Nat.add_zero] at few ⊢
      exact tallies.strikes other few

/-- Below it the counter of the fingerprint grows, and reaching it blocks the fingerprint. -/
theorem Tallies.struck (tallies : responder.Tallies limit assessed) {fingerprint : String}
    {strikes : UInt32} (counted : strikes.toNat = assessed.count fingerprint + 1)
    {blocked : Finset String}
    (listed : ∀ other, other ∈ blocked ↔ other ∈ responder.blocked ∨
      other = fingerprint ∧ limit ≤ assessed.count fingerprint + 1) :
    (EscalatingThreatResponder.mk (responder.strikes.insert fingerprint strikes) blocked
      responder.blockAfter).Tallies limit (assessed ++ [fingerprint]) where
  blockAfter := tallies.blockAfter
  blocked := by
    intro other
    rw [listed, tallies.blocked, List.count_append, List.count_singleton]
    by_cases same : fingerprint = other
    · subst same
      simp only [beq_self_eq_true, if_true, true_and]
      omega
    · simp [same, Ne.symm same]
  strikes := by
    intro other below
    rw [List.count_append, List.count_singleton] at below ⊢
    by_cases same : fingerprint = other
    · subst same
      simpa using counted
    · simp only [beq_iff_eq, same, if_false, Nat.add_zero] at below ⊢
      rw [AList.lookup_insert_ne (Ne.symm same)]
      exact tallies.strikes other below

/-- One assessment decides as the earlier ones say, and counts. -/
theorem Tallies.assess (tallies : responder.Tallies limit assessed)
    (signalFingerprint attackClass : String) :
    (responder.assess signalFingerprint attackClass).1 =
        verdict limit assessed signalFingerprint ∧
      (responder.assess signalFingerprint attackClass).2.Tallies limit
        (assessed ++ [signalFingerprint]) := by
  by_cases isBlocked : signalFingerprint ∈ responder.blocked
  · have many := (tallies.blocked signalFingerprint).mp isBlocked
    rw [EscalatingThreatResponder.assess, if_pos isBlocked, verdict, if_neg (by omega)]
    exact ⟨rfl, tallies.of_blocked many⟩
  · have few : assessed.count signalFingerprint < limit := by
      rw [tallies.blocked] at isBlocked
      omega
    have counted := tallies.toNat_strikes few
    have reached : responder.blockAfter ≤
        (responder.strikes.lookup signalFingerprint).getD 0 + 1 ↔
          limit ≤ assessed.count signalFingerprint + 1 := by
      rw [UInt32.le_iff_toNat_le, tallies.blockAfter, counted]
    rw [EscalatingThreatResponder.assess, if_neg isBlocked]
    dsimp only
    by_cases full : limit ≤ assessed.count signalFingerprint + 1
    · rw [if_pos (reached.mpr full), verdict, if_neg (by omega)]
      refine ⟨rfl, tallies.struck counted ?_⟩
      intro other
      simp [full, or_comm]
    · rw [if_neg (fun atLimit => full (reached.mp atLimit)), verdict, if_pos (by omega)]
      refine ⟨rfl, tallies.struck counted ?_⟩
      intro other
      simp [full]

end EscalatingThreatResponder

end VaultMesh
