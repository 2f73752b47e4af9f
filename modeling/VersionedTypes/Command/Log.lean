import VersionedTypes.Text.Quoted
import VersionedTypes.Universe.Resolution

/-!
# The log

While declarations are resolved the log tells what becomes of each of them. The events are read off
the records of a finished resolution.

* `Level`, `Event`: `Event.level`, `Event.component`, `Event.message`, `Event.details`,
  `Event.line`;
* `recordEvents`, **`resolutionEvents`**.
-/

namespace VersionedTypes

namespace Command

/-! ## Events -/

/-- How much an event matters, the most important first. -/
inductive Level where
  | error
  | warn
  | info
  | debug
  | trace
  deriving DecidableEq, Repr

namespace Level

/-- All levels. -/
def all : List Level := [error, warn, info, debug, trace]

/-- The word for a level. -/
def name : Level → String
  | error => "ERROR"
  | warn => "WARN"
  | info => "INFO"
  | debug => "DEBUG"
  | trace => "TRACE"

/-- The place among the levels, from one on. -/
def rank : Level → Nat
  | error => 1
  | warn => 2
  | info => 3
  | debug => 4
  | trace => 5

end Level

/-- What happens while declarations are loaded. -/
inductive Event where
  | declaration (d : Declaration)
  | publishedDomain (d : Domain)
  | rejectedDomain (d : Domain) (errors : Nat)
  | appliedPermutation (p : Permutation) (base : Domain)
  | excludedType (p : Permutation) (tag : String)
  | editedSum (p : Permutation) (e : SumEdit)
  | rejectedPermutation (p : Permutation)
  | skippedPermutation (p : Permutation)
  | strandedPermutation (p : Permutation)
  | computedDelta (source destination : Domain)
  | resolved (r : Resolution)
  | loaded (label : String) (r : Resolution)

/-- What is told about an event. -/
inductive Detail where
  | text (s : String)
  | quoted (s : String)
  | count (n : Nat)

/-- A detail as it stands in a line of the log. -/
def Detail.show : Detail → String
  | text s => s
  | quoted s => Text.quote s
  | count n => toString n

namespace Event

/-- Rejections are warnings; single declarations and edits are of interest in a full trace only. -/
def level : Event → Level
  | rejectedDomain _ _ | rejectedPermutation _ => .warn
  | declaration _ | excludedType _ _ | editedSum _ _ => .trace
  | _ => .debug

/-- The name under which a filter knows the part of the program that an event comes from. -/
def component : Event → String
  | loaded _ _ => "tyverse::commands::loader"
  | appliedPermutation _ _ | excludedType _ _ | editedSum _ _ => "tyverse_compiler::permute::engine"
  | computedDelta _ _ => "tyverse_compiler::domain::transform"
  | _ => "tyverse_compiler::universe"

/-- What an event is called in the log. -/
def message : Event → String
  | declaration _ => "declaration"
  | publishedDomain _ => "published domain"
  | rejectedDomain _ _ => "rejected domain"
  | appliedPermutation _ _ => "resolving permutation"
  | excludedType _ _ => "excluded type"
  | editedSum _ _ => "permuted sum"
  | rejectedPermutation _ => "rejected permutation"
  | skippedPermutation _ => "skipped permutation of rejected domain"
  | strandedPermutation _ => "skipped permutation of unresolved domain"
  | computedDelta _ _ => "computed transform delta"
  | resolved _ => "resolved universe"
  | loaded _ _ => "loaded universe"

/-- What is told about the event, by name. -/
def details : Event → List (String × Detail)
  | declaration d => [("name", .quoted d.name), ("at", .text d.origin.location)]
  | publishedDomain d => [("domain", .quoted d.tag), ("types", .count d.userTypes.length)]
  | rejectedDomain d errors => [("domain", .quoted d.tag), ("errors", .count errors)]
  | appliedPermutation p base =>
    [("domain", .text p.tag), ("base", .text base.tag),
      ("excluded", .count p.excluded.names.length), ("permuted_sums", .count p.sumEdits.length),
      ("included", .count p.included.length)]
  | excludedType p tag => [("domain", .text p.tag), ("tag", .text tag)]
  | editedSum p e =>
    [("domain", .text p.tag), ("sum", .text e.tag), ("removed", .count e.removed.length),
      ("added", .count e.added.length)]
  | rejectedPermutation p => [("domain", .text p.tag)]
  | skippedPermutation p | strandedPermutation p =>
    [("domain", .text p.tag), ("base", .text p.base)]
  | computedDelta source destination =>
    [("source", .quoted source.tag), ("destination", .quoted destination.tag),
      ("removed", .count (source.delta destination).markedTypes)]
  | resolved r =>
    [("domains", .count r.domains.size), ("transforms", .count r.transforms.length),
      ("rejected", .count r.rejected.names.length), ("diagnostics", .count r.diagnostics.length)]
  | loaded label r =>
    [("path", .text label), ("domains", .count r.domains.size),
      ("transforms", .count r.transforms.length), ("diagnostics", .count r.diagnostics.length)]

/-- The event has a field of that name; its message is one. -/
def hasField (e : Event) (name : String) : Bool :=
  name == "message" || e.details.any fun d => d.1 == name

/-- The event on a line. -/
def line (e : Event) : String :=
  " ".intercalate (e.level.name :: e.message :: e.details.map fun (name, d) => s!"{name}={d.show}")

end Event

/-! ## The events of a resolution -/

/-- A domain was published, or has mistakes of its own. -/
def verdictEvents : Verdict → List Event
  | .published d => [.publishedDomain d]
  | .duplicate _ => []
  | .invalid d errors => [.rejectedDomain d errors.length]

/-- A clause of a permutation was applied. -/
def clauseEvent (p : Permutation) : Clause → Event
  | .exclude tag => .excludedType p tag
  | .edit e => .editedSum p e

/-- A permutation was applied to `base`, as far as that is possible. -/
def applicationEvents (p : Permutation) (base : Domain) : List Event :=
  .appliedPermutation p base :: (p.applicable base base.userTypes p.clauses).map (clauseEvent p)

/-- What became of a permutation. -/
def permutationEvents (p : Permutation) : Outcome → List Event
  | .derived base v => applicationEvents p base ++ verdictEvents v
  | .refused (some base) _ => applicationEvents p base ++ [.rejectedPermutation p]
  | .refused none _ => [.rejectedPermutation p]
  | .skipped => [.skippedPermutation p]
  | .stranded => [.strandedPermutation p]
  | _ => []

/-- The events that a record stands for. A declaration is told of where it is first looked at. -/
def recordEvents (r : Record) : List Event :=
  match r.outcome, r.declaration with
  | .deferred, d => [.declaration d]
  | .declared v, d => .declaration d :: verdictEvents v
  | .answered source destination, _ => [.computedDelta source destination]
  | outcome, .permutation p => permutationEvents p outcome
  | _, _ => []

/-- The events of a resolution, in order. -/
def resolutionEvents (r : Resolution) : List Event :=
  r.records.flatMap recordEvents ++ [.resolved r]

end Command

end VersionedTypes
