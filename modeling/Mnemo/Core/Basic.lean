import Mathlib

/-!
# Identifiers, instants, classifications and errors

Identifiers are 128-bit numbers which the system only compares and prints; instants are counted in
nanoseconds since the Unix epoch.
-/

namespace Mnemo

/-- A UUID, as the number it encodes. -/
abbrev Uuid := Nat

/-- An instant in UTC, in nanoseconds since the epoch. -/
abbrev DateTime := Int

/-- The hyphenated lower-case form in which UUIDs are printed. -/
def Uuid.toText (id : Uuid) : String :=
  let digits := Nat.toDigits 16 id
  let padded := List.replicate (32 - digits.length) '0' ++ digits
  let part (start length : Nat) : String := String.ofList ((padded.drop start).take length)
  String.intercalate "-" [part 0 8, part 8 4, part 12 4, part 16 4, part 20 12]

/-- Whole seconds of a duration in nanoseconds, rounded towards zero. -/
def numSeconds (duration : Int) : Int := duration.tdiv 1000000000

/-- Milliseconds since the epoch, rounded down, as used for scores of sorted sets. -/
def timestampMillis (instant : DateTime) : Int := instant.fdiv 1000000

theorem timestampMillis_mono : Monotone timestampMillis := by
  intro first second before
  unfold timestampMillis
  rw [Int.fdiv_eq_ediv_of_nonneg _ (by decide), Int.fdiv_eq_ediv_of_nonneg _ (by decide)]
  exact Int.ediv_le_ediv (by decide) before

/-- Sensitivity of entities, edges and key scopes. -/
inductive Classification where
  | «public»
  | internal
  | confidential
  | restricted
  deriving DecidableEq, Repr

namespace Classification

/-- The discriminant which orders the classifications. -/
def rank : Classification → Nat
  | .«public» => 0
  | .internal => 1
  | .confidential => 2
  | .restricted => 3

theorem rank_injective : Function.Injective rank := by
  intro left right same
  cases left <;> cases right <;> first | rfl | cases same

instance : LinearOrder Classification := LinearOrder.lift' rank rank_injective

/-- The default classification of stored data. -/
instance : Inhabited Classification := ⟨.internal⟩

end Classification

/-- The errors of the system that its core logic raises. -/
inductive MnemoError where
  | userNotFound (id : Uuid)
  | sessionNotFound (id : Uuid)
  | episodeNotFound (id : Uuid)
  | entityNotFound (id : Uuid)
  | edgeNotFound (id : Uuid)
  | notFound (resourceType id : String)
  | validation (message : String)
  | duplicate (message : String)
  | redis (message : String)
  | llmProvider (provider message : String)
  | embeddingProvider (provider message : String)
  | extractionFailed (message : String)
  | unauthorized
  | forbidden
  deriving DecidableEq, Repr

namespace MnemoError

/-- The text of an error. -/
def message : MnemoError → String
  | .userNotFound id => "User not found: " ++ id.toText
  | .sessionNotFound id => "Session not found: " ++ id.toText
  | .episodeNotFound id => "Episode not found: " ++ id.toText
  | .entityNotFound id => "Entity not found: " ++ id.toText
  | .edgeNotFound id => "Edge not found: " ++ id.toText
  | .notFound resourceType id => "Resource not found: " ++ resourceType ++ " " ++ id
  | .validation message => "Validation error: " ++ message
  | .duplicate message => "Duplicate resource: " ++ message
  | .redis message => "Redis error: " ++ message
  | .llmProvider provider message => "LLM provider error: " ++ provider ++ " - " ++ message
  | .embeddingProvider provider message =>
      "Embedding provider error: " ++ provider ++ " - " ++ message
  | .extractionFailed message => "LLM extraction failed: " ++ message
  | .unauthorized => "Authentication required"
  | .forbidden => "Insufficient permissions"

/-- The HTTP status of an error. -/
def statusCode : MnemoError → Nat
  | .userNotFound _ | .sessionNotFound _ | .episodeNotFound _ | .entityNotFound _
  | .edgeNotFound _ | .notFound _ _ => 404
  | .validation _ => 400
  | .duplicate _ => 409
  | .unauthorized => 401
  | .forbidden => 403
  | .llmProvider _ _ | .embeddingProvider _ _ | .extractionFailed _ => 502
  | .redis _ => 500

end MnemoError
end Mnemo
