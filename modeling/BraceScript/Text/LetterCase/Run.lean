/-!
# Runs of a case mapping

Letters with an upper and a lower form come in runs: equally spaced code points that a case mapping
shifts by one distance.
-/

namespace BraceScript

/-- The code points `first`, `first + step`, … up to `last`, each mapped to itself plus `shift`. -/
structure CaseRun where
  first : Nat
  last : Nat
  step : Nat
  shift : Int

namespace CaseRun

/-- Is the code point one of the run? -/
def covers (r : CaseRun) (n : Nat) : Bool :=
  r.first ≤ n && n ≤ r.last && (n - r.first) % r.step = 0

/-- The image of a code point of the run. -/
def image (r : CaseRun) (n : Nat) : Nat :=
  (n + r.shift).toNat

end CaseRun
end BraceScript
