/-!
# Faults of chain results

Why the results of chains cannot be combined.
-/
namespace Multilevel

/-- The displayed form of a list of integers. -/
def displayInts (numbers : List Int) : String :=
  "[" ++ ", ".intercalate (numbers.map toString) ++ "]"

/-- A fault of a collection of chain results. -/
inductive MergeError where
  /-- Chains occur twice. -/
  | duplicated (chains : List Int)
  /-- Chains were never issued. -/
  | outside (chains : List Int) (issued : String)
  /-- Chains are missing. -/
  | missing (chains : List Int)
  /-- A chain has other variables or shapes than the first one. -/
  | schema (chain reference : Int)
  /-- The engine returned other chains than were asked for. -/
  | unexpected (returned expected : List Int)
  deriving Repr, DecidableEq

/-- The text that reports a fault. -/
def MergeError.message : MergeError → String
  | .duplicated chains => "Duplicated chain indices: " ++ displayInts chains
  | .outside chains issued =>
    "Chain indices " ++ displayInts chains ++ s!" are outside of the issued range 1..{issued}"
  | .missing chains => "Results of chains " ++ displayInts chains ++ " are missing"
  | .schema chain reference =>
    s!"Chain {chain} holds different parameters than chain {reference}"
  | .unexpected returned expected =>
    "The engine returned chains " ++ displayInts returned ++ ", expected " ++ displayInts expected

end Multilevel
