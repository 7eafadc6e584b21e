import Refute.Settings.Basic
import Refute.Text.Decimal

namespace Refute

/-- Whole seconds are integers; others are written as text. -/
def Seconds.ofWritten? : Value → Option Seconds
  | .int n => some (.whole n)
  | .text s => (Text.readFloat? s).map .real
  | _ => none

/-- Reporters and guides have no written form. -/
def Adjustment.ofWritten? : List Value → Option (Adjustment μ)
  | [.text "with_unlimited_examples"] => some .unlimitedExamples
  | [.text "with_unlimited_testing_time"] => some .unlimitedTime
  | [.text "with_testing_time", limit] => (Seconds.ofWritten? limit).map .testingTime
  | [.text name, .int n] =>
    match name with
    | "with_fixed_seed" => some (.seed n)
    | "with_examples" => some (.examples n)
    | "with_shrink_cycles" => some (.shrinkCycles n)
    | "with_generate_attempts" => some (.attempts n)
    | "with_min_stateful_steps" => some (.minSteps n)
    | "with_max_stateful_steps" => some (.maxSteps n)
    | _ => none
  | _ => none

end Refute
