import VersionedTypes.SchemaType

/-!
# Diagnostics

A diagnostic is a mistake in a declaration, with the origin of the declaration or clause at fault.
There are two families: a permutation can be illegal, and a domain or a transform request can be
invalid.

* `PermutationProblem`, `ValidationProblem`: the mistakes, each with its `message`;
* `PermutationError`, `ValidationError`: a mistake at an origin;
* `Diagnostic`, `Diagnostic.message`, **`Diagnostic.display`**: the message behind its location.
-/

namespace VersionedTypes

/-- Why a permutation cannot be applied. -/
inductive PermutationProblem where
  | nonexistentBase (domain base : String)
  | nonexistentType (domain tag : String)
  | builtinType (domain tag : String)
  | nonexistentSum (domain tag : String)
  | notASum (domain tag : String) (kind : Kind)
  | nonexistentVariant (domain sum variant : String)
  deriving DecidableEq

/-- Why a domain or a transform request is invalid. -/
inductive ValidationProblem where
  | duplicateDomain (domain : String)
  | duplicateType (domain tag : String)
  | duplicateVariant (sum variant : String)
  | duplicateField (product field : String)
  | undefinedReference (domain typeName : String)
  | undefinedDomain (transform domain : String)
  deriving DecidableEq

/-- What the report says is wrong with a permutation. -/
def PermutationProblem.message : PermutationProblem → String
  | nonexistentBase domain base => s!"domain `{domain}` permutes nonexistent domain `{base}`"
  | nonexistentType domain tag => s!"cannot remove nonexistent type `{tag}` from domain `{domain}`"
  | builtinType domain tag => s!"cannot remove builtin type `{tag}` from domain `{domain}`"
  | nonexistentSum domain tag => s!"cannot permute nonexistent sum `{tag}` in domain `{domain}`"
  | notASum domain tag kind =>
    s!"cannot permute non-sum type `{tag}` in domain `{domain}`: `{tag}` is a {kind.name}"
  | nonexistentVariant domain sum variant =>
    s!"cannot remove nonexistent variant `{variant}` from sum `{sum}` in domain `{domain}`"

/-- What the report says is wrong with a domain or a request. -/
def ValidationProblem.message : ValidationProblem → String
  | duplicateDomain domain => s!"domain `{domain}` is already defined"
  | duplicateType domain tag => s!"type `{tag}` is already defined in domain `{domain}`"
  | duplicateVariant sum variant => s!"variant `{variant}` is already defined in sum `{sum}`"
  | duplicateField product field => s!"field `{field}` is already defined in `{product}`"
  | undefinedReference domain typeName => s!"`{typeName}` is not defined in domain `{domain}`"
  | undefinedDomain transform domain =>
    s!"transform `{transform}` refers to undefined domain `{domain}`"

/-- An illegal permutation; the origin is that of the permutation or of the clause at fault. -/
structure PermutationError where
  problem : PermutationProblem
  origin : Origin
  deriving DecidableEq

/-- An invalid entry of a domain, or an invalid request. -/
structure ValidationError where
  problem : ValidationProblem
  origin : Origin
  deriving DecidableEq

/-- A mistake in a declaration. -/
inductive Diagnostic where
  | permutation (e : PermutationError)
  | validation (e : ValidationError)
  deriving DecidableEq

namespace Diagnostic

/-- The origin of the declaration, or of the part of it, that is at fault. -/
def origin : Diagnostic → Origin
  | permutation e => e.origin
  | validation e => e.origin

/-- The mistake in words, without its place. -/
def message : Diagnostic → String
  | permutation e => e.problem.message
  | validation e => e.problem.message

/-- The message behind its location. -/
def display (d : Diagnostic) : String := d.origin.location ++ ": " ++ d.message

end Diagnostic

end VersionedTypes
