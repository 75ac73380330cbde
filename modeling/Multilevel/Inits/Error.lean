/-!
# Faults of initial values

Why initial values cannot be resolved for the chains of a run.
-/
namespace Multilevel

/-- A fault of initial values. -/
inductive InitError where
  /-- A name is reserved or taken. -/
  | taken (name : String)
  /-- A text is neither a number nor the name of a registered function. -/
  | unknown (text : String) (registered : List String)
  /-- A truth value stands for initial values. -/
  | truth
  /-- The range that initial values are drawn from has a negative size. -/
  | negative (given : String)
  /-- A function cannot be called with the number of a chain alone. -/
  | required (function : String) (parameters : List String)
  /-- The initial values of a chain are no record. -/
  | notRecord (chain : Nat) (kind : String)
  /-- The number of records is not that of the chains. -/
  | count (given : Nat) (chains : String)
  deriving Repr, DecidableEq

/-- The text that reports a fault. -/
def InitError.message : InitError → String
  | .taken name => s!"An initial value function named '{name}' already exists"
  | .unknown text registered =>
    s!"Unknown initial values '{text}'. Use 'random', '0', a number or one of the registered " ++
      "names: " ++ (if registered.isEmpty then "none" else ", ".intercalate registered)
  | .truth => "Initial values cannot be a boolean"
  | .negative given =>
    s!"Initial values must be drawn from a non-negative range, got {given}"
  | .required function parameters =>
    s!"Initial value functions may take no arguments besides 'chain_id', but {function} " ++
      "requires: " ++ ", ".intercalate parameters
  | .notRecord chain kind =>
    s!"Initial values of chain {chain} must be a mapping from parameter names to values, got " ++
      s!"{kind}"
  | .count given chains =>
    s!"Initial values were given for {given} chains, but {chains} chains were requested"

end Multilevel
