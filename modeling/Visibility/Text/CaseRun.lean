set_option autoImplicit false
set_option relaxedAutoImplicit false

/-!
Runs of code points that share a property or a distance to their image under a case map.
-/

namespace Visibility.Text

/-- The code points `first`, `first + stride`, …, `last`, each at the distance `shift` from its
image. -/
structure CaseRun where
  first : Nat
  last : Nat
  stride : Nat
  shift : Int

namespace CaseRun

def holds (run : CaseRun) (code : Nat) : Bool :=
  run.first ≤ code && code ≤ run.last && (code - run.first) % run.stride == 0

def imageOf (run : CaseRun) (code : Nat) : Nat :=
  ((code : Int) + run.shift).toNat

def codes (run : CaseRun) : List Nat :=
  (List.range ((run.last - run.first) / run.stride + 1)).map fun i => run.first + i * run.stride

/-- The image of a code point; a code point in no run is its own image. -/
def image (runs : List CaseRun) (code : Nat) : Nat :=
  match runs.find? (·.holds code) with
  | some run => run.imageOf code
  | none => code

def preimages (runs : List CaseRun) (code : Nat) : List Nat :=
  runs.filterMap fun run =>
    let source := ((code : Int) - run.shift).toNat
    if run.holds source && source != code then some source else none

end CaseRun

end Visibility.Text
