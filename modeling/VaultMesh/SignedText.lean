import VaultMesh.Authority

/-!
# The signed text

The bytes which are signed put the fields of a token together with a tag before
each, and nothing keeps a field from containing a tag. `Unmixed` says which
fields do not: then, and only then, no other claims have the same bytes and a
signature made for these claims verifies for no others.
-/

namespace VaultMesh

open Interaction Coding

/-- What stands between the application and the namespace. -/
def nsMarker : List Char :=
  "\nns=".toList

/-- What stands between the namespace and the nonce. -/
def operationMarker (operation : Operation) : List Char :=
  "\nop=".toList ++ (operation.asStr.toList ++ "\nnonce=".toList)

/-- No field contains the marker before it or after it. -/
structure CapabilityClaims.Unmixed (claims : CapabilityClaims) : Prop where
  appId : ¬nsMarker <:+: claims.appId.value.toList
  ns : ¬nsMarker <:+: claims.ns.value.toList
  nsOperation : ∀ operation, ¬operationMarker operation <:+: claims.ns.value.toList
  nonce : ∀ operation, ¬operationMarker operation <:+: claims.nonce.value.toList

theorem CapabilityClaims.toList_canonicalText_markers (claims : CapabilityClaims) :
    claims.canonicalText.toList = "vaultmesh.cap.v1\napp=".toList ++
      ((claims.appId.value.toList ++ (nsMarker ++ (claims.ns.value.toList ++
        (operationMarker claims.operation ++ claims.nonce.value.toList)))) ++
      '\n' :: ("exp=".toList ++ (toString claims.expiresAt.millis.toNat).toList ++ ['\n'])) := by
  have exp : "\nexp=".toList = '\n' :: "exp=".toList := by decide
  have final : "\n".toList = ['\n'] := by decide
  unfold canonicalText nsMarker operationMarker
  generalize toString claims.expiresAt.millis.toNat = expiry
  simp only [String.toList_append, exp, final, List.append_assoc, List.cons_append]

/-- Claims have the same bytes exactly if they agree on the expiry and on the fields before it. -/
theorem CapabilityClaims.canonicalBytes_eq_iff {claims other : CapabilityClaims} :
    claims.canonicalBytes = other.canonicalBytes ↔
      claims.appId.value.toList ++ (nsMarker ++ (claims.ns.value.toList ++
          (operationMarker claims.operation ++ claims.nonce.value.toList))) =
        other.appId.value.toList ++ (nsMarker ++ (other.ns.value.toList ++
          (operationMarker other.operation ++ other.nonce.value.toList))) ∧
      claims.expiresAt = other.expiresAt := by
  constructor
  · intro same
    have texts := congrArg String.toList (String.toByteArray_inj.mp same)
    rw [toList_canonicalText_markers, toList_canonicalText_markers] at texts
    have turned := congrArg List.reverse (List.append_cancel_left texts)
    simp only [List.reverse_append, List.reverse_cons, List.append_assoc, List.reverse_nil,
      List.nil_append, List.cons_append, List.cons.injEq, true_and] at turned
    rw [← List.append_assoc, ← List.append_assoc _ "exp=".toList.reverse] at turned
    have free : ∀ number : ℕ, '\n' ∉ (toString number).toList.reverse ++ "exp=".toList.reverse := by
      intro number mem
      rcases List.mem_append.mp mem with digit | tag
      · exact unbroken_toString number (List.mem_reverse.mp digit)
      · exact absurd tag (by decide)
    rcases append_separator_inj (free _) (free _) turned with ⟨sameExpiry, sameFields⟩
    have digits := List.reverse_injective (List.append_cancel_right sameExpiry)
    have millis := UInt64.toNat_inj.mp (injective_toString (String.toList_inj.mp digits))
    refine ⟨?_, congrArg Timestamp.mk millis⟩
    have fields := congrArg List.reverse sameFields
    simpa using fields
  · rintro ⟨fields, expiry⟩
    have texts : claims.canonicalText.toList = other.canonicalText.toList := by
      rw [toList_canonicalText_markers, toList_canonicalText_markers, fields, expiry]
    exact congrArg String.toByteArray (String.toList_inj.mp texts)

/-! ## Reading the fields back -/

theorem clear_nsMarker_self : Clear nsMarker nsMarker := by
  decide

theorem clear_nsMarker_operationMarker (operation : Operation) :
    Clear nsMarker (operationMarker operation) := by
  cases operation <;> decide

theorem clear_operationMarker_nsMarker (operation : Operation) :
    Clear (operationMarker operation) nsMarker := by
  cases operation <;> decide

theorem clear_operationMarkers (operation other : Operation) :
    Clear (operationMarker operation) (operationMarker other) := by
  cases operation <;> cases other <;> decide

theorem operationMarker_append_ne (operation : Operation) (left right : List Char) :
    operationMarker operation ++ left ≠ nsMarker ++ right := by
  intro same
  have second := congrArg (fun text => text[1]?) same
  cases operation <;> exact absurd second (by decide : some 'o' ≠ some 'n')

theorem operationMarker_append_inj {operation other : Operation} {left right : List Char}
    (same : operationMarker operation ++ left = operationMarker other ++ right) :
    operation = other ∧ left = right := by
  have initials := congrArg (fun text => text[4]?) same
  have equal : operation = other := by
    have initial (kind : Operation) (rest : List Char) :
        (operationMarker kind ++ rest)[4]? = kind.asStr.toList.head? := by
      cases kind <;> rfl
    simp only [initial] at initials
    cases operation <;> cases other <;> first | rfl | exact absurd initials (by decide)
  subst equal
  exact ⟨rfl, List.append_cancel_left same⟩

/-- Unmixed fields are the only ones which make up their text. -/
theorem CapabilityClaims.Unmixed.eq_of_canonicalBytes {claims other : CapabilityClaims}
    (unmixed : claims.Unmixed) (same : claims.canonicalBytes = other.canonicalBytes) :
    claims = other := by
  rcases canonicalBytes_eq_iff.mp same with ⟨fields, expiry⟩
  rcases cut_cases clear_nsMarker_self clear_nsMarker_self fields with
    ⟨between, -, behind⟩ | ⟨between, split, -⟩ | ⟨sameApp, behind⟩
  · exfalso
    rcases cut_cases (clear_operationMarker_nsMarker _) (clear_nsMarker_operationMarker _)
        behind with ⟨inner, -, rest⟩ | ⟨inner, split, -⟩ | ⟨-, apart⟩
    · apply unmixed.nonce other.operation
      rw [rest, ← List.append_assoc nsMarker, ← List.append_assoc inner]
      exact infix_middle _ _ _
    · apply unmixed.ns
      rw [split]
      exact infix_middle _ _ _
    · exact operationMarker_append_ne _ _ _ apart
  · exfalso
    apply unmixed.appId
    rw [split]
    exact infix_middle _ _ _
  · rcases cut_cases (clear_operationMarkers _ _) (clear_operationMarkers _ _)
        (List.append_cancel_left behind) with
      ⟨inner, -, rest⟩ | ⟨inner, split, -⟩ | ⟨sameNs, tails⟩
    · exfalso
      apply unmixed.nonce other.operation
      rw [rest]
      exact infix_middle _ _ _
    · exfalso
      apply unmixed.nsOperation other.operation
      rw [split]
      exact infix_middle _ _ _
    · rcases operationMarker_append_inj tails with ⟨sameOperation, sameNonce⟩
      rcases claims with ⟨⟨app⟩, ⟨ns⟩, operation, ⟨nonce⟩, expiresAt⟩
      rcases other with ⟨⟨app'⟩, ⟨ns'⟩, operation', ⟨nonce'⟩, expiresAt'⟩
      simp only [String.toList_inj] at sameApp sameNs sameOperation sameNonce expiry
      subst sameApp sameNs sameOperation sameNonce expiry
      rfl

/-! ## Fields which contain a marker -/

/-- A marker inside a field is as good as the one after it, or the one before it. -/
theorem CapabilityClaims.unmixed_of_unique {claims : CapabilityClaims}
    (unique : ∀ other, claims.canonicalBytes = other.canonicalBytes → claims = other) :
    claims.Unmixed := by
  rcases claims with ⟨⟨app⟩, ⟨ns⟩, operation, ⟨nonce⟩, expiresAt⟩
  -- Each field is cut at the marker inside it, and the text is read with that cut.
  constructor
  · rintro ⟨before, after, split⟩
    have same := unique ⟨⟨String.ofList before⟩, ⟨String.ofList (after ++ (nsMarker ++ ns.toList))⟩,
      operation, ⟨nonce⟩, expiresAt⟩ (by
        rw [canonicalBytes_eq_iff]
        simp [← split])
    have lengths := congrArg (fun claims => claims.appId.value.toList.length) same
    simp [← split, nsMarker] at lengths
  · rintro ⟨before, after, split⟩
    have same := unique ⟨⟨String.ofList (app.toList ++ (nsMarker ++ before))⟩,
      ⟨String.ofList after⟩, operation, ⟨nonce⟩, expiresAt⟩ (by
        rw [canonicalBytes_eq_iff]
        simp [← split])
    have lengths := congrArg (fun claims => claims.ns.value.toList.length) same
    simp [← split, nsMarker] at lengths
    omega
  · rintro other ⟨before, after, split⟩
    have same := unique ⟨⟨app⟩, ⟨String.ofList before⟩, other,
      ⟨String.ofList (after ++ (operationMarker operation ++ nonce.toList))⟩, expiresAt⟩ (by
        rw [canonicalBytes_eq_iff]
        simp [← split])
    have lengths := congrArg (fun claims => claims.ns.value.toList.length) same
    simp [← split, operationMarker] at lengths
  · rintro other ⟨before, after, split⟩
    have same := unique
      ⟨⟨app⟩, ⟨String.ofList (ns.toList ++ (operationMarker operation ++ before))⟩,
        other, ⟨String.ofList after⟩, expiresAt⟩ (by
        rw [canonicalBytes_eq_iff]
        simp [← split])
    have lengths := congrArg (fun claims => claims.nonce.value.toList.length) same
    simp [← split, operationMarker] at lengths
    omega

/--
Exactly the claims without a marker inside a field are determined by their bytes,
so that under an ideal scheme a signature made for them verifies for no others.
-/
theorem canonicalBytes_unambiguous_iff (claims : CapabilityClaims) :
    ((∀ other, claims.canonicalBytes = other.canonicalBytes → claims = other) ∧
      ∀ env : Environment,
        (∀ signed message signature, env.accepts signed message signature = true →
          message ∈ signed) →
        ∀ other signature, env.verify [claims.canonicalBytes] ⟨other, signature⟩ = .ok () →
          claims = other) ↔
      claims.Unmixed := by
  constructor
  · rintro ⟨unique, _⟩
    exact CapabilityClaims.unmixed_of_unique unique
  · intro unmixed
    refine ⟨fun other same => unmixed.eq_of_canonicalBytes same, ?_⟩
    intro env ideal other signature verified
    have signed := Environment.mem_signed_of_verify ideal verified
    exact unmixed.eq_of_canonicalBytes (List.mem_singleton.mp signed).symm

def nestedApp : CapabilityClaims :=
  ⟨⟨"a\nns=b"⟩, ⟨"c"⟩, .get, ⟨"n"⟩, ⟨2000⟩⟩

def nestedNs : CapabilityClaims :=
  ⟨⟨"a"⟩, ⟨"b\nns=c"⟩, .get, ⟨"n"⟩, ⟨2000⟩⟩

/-- A token of one application verifies as a token of another one. -/
theorem canonicalBytes_ambiguous :
    ¬(∀ claims other : CapabilityClaims,
        claims.canonicalBytes = other.canonicalBytes → claims = other) ∧
      ∃ env : Environment,
        (∀ signed message signature, env.accepts signed message signature = true →
          message ∈ signed) ∧
        env.verify [nestedApp.canonicalBytes]
          ⟨nestedNs, env.signature nestedApp.canonicalBytes⟩ = .ok () ∧
        nestedApp.appId ≠ nestedNs.appId := by
  have same : nestedApp.canonicalBytes = nestedNs.canonicalBytes := by
    rw [CapabilityClaims.canonicalBytes_eq_iff]
    exact ⟨by decide, rfl⟩
  refine ⟨fun injective => absurd (injective _ _ same) (by decide), ?_⟩
  refine ⟨signingEnvironment, signingEnvironment_ideal, ?_, by decide⟩
  have length : (signingEnvironment.signature nestedApp.canonicalBytes).length = 64 := rfl
  unfold Environment.verify
  rw [if_neg (by simp [length]), if_pos]
  simp [same, signingEnvironment]

end VaultMesh
