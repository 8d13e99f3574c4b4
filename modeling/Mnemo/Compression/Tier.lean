import Mnemo.Core.Basic

/-!
# Compression tiers

Embeddings of episodes are stored less and less precisely as they grow older.
-/

namespace Mnemo
namespace Compression

/-- How precisely the vector of a point is stored. -/
inductive CompressionTier where
  | full
  | half
  | int8
  | binary
  deriving DecidableEq, Repr

namespace CompressionTier

/-- The discriminant which orders the tiers. -/
def rank : CompressionTier → Nat
  | .full => 0
  | .half => 1
  | .int8 => 2
  | .binary => 3

theorem rank_injective : Function.Injective rank := by
  intro left right same
  cases left <;> cases right <;> first | rfl | cases same

instance : LinearOrder CompressionTier := LinearOrder.lift' rank rank_injective

theorem le_iff (left right : CompressionTier) : left ≤ right ↔ left.rank ≤ right.rank := Iff.rfl

/-- The name under which a tier is stored. -/
def asStr : CompressionTier → String
  | .full => "full"
  | .half => "half"
  | .int8 => "int8"
  | .binary => "binary"

/-- The tier of a stored name. -/
def fromStrOpt (name : String) : Option CompressionTier :=
  if name = "full" then some .full
  else if name = "half" then some .half
  else if name = "int8" then some .int8
  else if name = "binary" then some .binary
  else none

@[simp]
theorem fromStrOpt_asStr (tier : CompressionTier) : fromStrOpt tier.asStr = some tier := by
  cases tier <;> rfl

end CompressionTier

/-- Ages in days from which the tiers apply, and the bound of a sweep. -/
structure CompressionConfig where
  tier1Days : Nat
  tier2Days : Nat
  tier3Days : Nat
  maxPointsPerSweep : Nat
  deriving DecidableEq, Repr

/-- Whole days of a duration in nanoseconds, rounded towards zero. -/
def numDays (duration : Int) : Int := (numSeconds duration).tdiv 86400

theorem numDays_mono : Monotone numDays := by
  intro shorter longer le
  exact Int.tdiv_le_tdiv (by decide) (Int.tdiv_le_tdiv (by decide) le)

namespace CompressionConfig

variable (config : CompressionConfig)

/-- The tier for an age. -/
def tierForAgeDays (ageDays : Int) : CompressionTier :=
  if config.tier3Days ≤ ageDays then .binary
  else if config.tier2Days ≤ ageDays then .int8
  else if config.tier1Days ≤ ageDays then .half
  else .full

/-- The tier at an instant for the instant of creation. -/
def tierForTimestamp (createdAt now : DateTime) : CompressionTier :=
  config.tierForAgeDays (numDays (now - createdAt))

theorem tierForAgeDays_mono : Monotone config.tierForAgeDays := by
  intro younger older le
  rw [CompressionTier.le_iff]
  unfold tierForAgeDays
  split_ifs <;> simp only [CompressionTier.rank] <;> omega

theorem tierForTimestamp_mono (createdAt : DateTime) :
    Monotone (config.tierForTimestamp createdAt) := by
  intro earlier later le
  exact config.tierForAgeDays_mono (numDays_mono (Int.sub_le_sub_right le createdAt))

end CompressionConfig

/-! ## Quantization -/

/-- What the quantizations do to one component of a vector. -/
structure Rounding (F : Type) where
  truncated : F → F
  rescaled : List F → F → F
  sign : F → F

namespace Rounding

variable {F : Type} (rounding : Rounding F)

/-- Cut the components down to half precision. -/
def quantizeF16 (vector : List F) : List F := vector.map rounding.truncated

/-- Round the components to steps between the least and the greatest of them. -/
def quantizeInt8 (vector : List F) : List F :=
  if vector.isEmpty then [] else vector.map (rounding.rescaled vector)

/-- Keep only the signs of the components. -/
def quantizeBinary (vector : List F) : List F := vector.map rounding.sign

/-- The quantization of a tier. -/
def quantizeForTier (vector : List F) : CompressionTier → List F
  | .full => vector
  | .half => rounding.quantizeF16 vector
  | .int8 => rounding.quantizeInt8 vector
  | .binary => rounding.quantizeBinary vector

@[simp]
theorem length_quantizeForTier (vector : List F) (tier : CompressionTier) :
    (rounding.quantizeForTier vector tier).length = vector.length := by
  cases tier with
  | full => rfl
  | half => exact List.length_map _
  | int8 =>
    cases vector with
    | nil => rfl
    | cons head rest => exact List.length_map _
  | binary => exact List.length_map _

end Rounding

end Compression
end Mnemo
