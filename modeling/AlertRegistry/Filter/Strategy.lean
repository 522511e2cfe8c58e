import AlertRegistry.Text.Blank

/-!
# Search strategies

Two strategies decide whether a text contains a needle. The generic one ignores the case of ASCII
letters, the case-sensitive one takes every character as it is.
-/

namespace AlertRegistry

/-- How a needle is looked for. -/
inductive Strategy where
  /-- ASCII letters match in either case. -/
  | generic
  /-- Every character matches itself only. -/
  | caseSensitive
deriving DecidableEq, Repr

/-- A name that is the name of no strategy. -/
structure UnknownStrategy where
  /-- The name without white space around it. -/
  name : String
deriving DecidableEq, Repr

/-- The wording of the error. -/
def UnknownStrategy.message (e : UnknownStrategy) : String :=
  "unknown query generator `" ++ e.name ++ "`; expected generic|case_sensitive"

namespace Strategy

/-- The name of the strategy. -/
def name : Strategy → String
  | generic => "generic"
  | caseSensitive => "case_sensitive"

/-- The strategy with a name, which may have white space around it. -/
def ofName? (s : String) : Option Strategy :=
  match Text.trim s with
  | "generic" => some generic
  | "case_sensitive" => some caseSensitive
  | _ => none

/-- The strategy with a name, or the error that there is none. -/
def ofName (s : String) : Except UnknownStrategy Strategy :=
  match ofName? s with
  | some strategy => .ok strategy
  | none => .error ⟨Text.trim s⟩

end Strategy

end AlertRegistry
