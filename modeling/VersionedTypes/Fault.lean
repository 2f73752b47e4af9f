import VersionedTypes.Builtin
import VersionedTypes.Origin

/-!
# Faults

A fault is a broken promise inside the library and never a mistake in a declaration: valid domains
keep every promise named here. Its message therefore asks for a report.

* `Fault`, `Fault.message`.
-/

namespace VersionedTypes

/-- A promise that did not hold. -/
inductive Fault where
  /-- A reference stands for no type of the domain. -/
  | unresolvedReference (typeName domain : String) (origin : Origin)
  /-- A tag of the domain is declared `count` times, more than once. -/
  | ambiguousTag (tag : String) (count : Nat) (domain : String) (origin : Origin)
  /-- A builtin stands among the declared types of the domain. -/
  | builtinDeclared (builtin : Builtin) (domain : String)
  deriving DecidableEq

namespace Fault

/-- What did not hold. -/
def detail : Fault → String
  | .unresolvedReference typeName domain _ =>
    s!"reference to `{typeName}` does not resolve in domain `{domain}`"
  | .ambiguousTag tag count domain _ => s!"tag `{tag}` occurs {count} times in domain `{domain}`"
  | .builtinDeclared builtin domain =>
    s!"builtin `{builtin.tag}` stored as a user type of domain `{domain}`"

/-- The declaration that was being worked on. -/
def origin? : Fault → Option Origin
  | .unresolvedReference _ _ origin | .ambiguousTag _ _ _ origin => some origin
  | .builtinDeclared _ _ => none

/-- The text that the program ends with. -/
def message (f : Fault) : String :=
  let place := match f.origin? with
    | some origin => s!" (at {origin.location})"
    | none => ""
  s!"internal error: {f.detail}{place}; this is a bug in tyverse, please report it"

end Fault

end VersionedTypes
