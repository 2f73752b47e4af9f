import VersionedTypes.Permutation.Application
import VersionedTypes.Universe
import VersionedTypes.Validation

/-!
# Resolution of a declaration list

Plain domains are validated and published first. A permutation waits until its base is published,
wherever it stands in the list, and its result is then validated and published in turn. Deltas come
last. A declaration that fails is rejected with its mistakes; what depends on a rejected domain is
left out without a mistake of its own.

* `Verdict`: what validation says of a domain; `Outcome`, `Record`: what became of a declaration;
* `Resolution`: the universe so far, the rejected tags and the records;
* `Resolution.publish`, `Resolution.derive`, `Resolution.settle`, `Resolution.strand`,
  `Resolution.answer`: the steps;
* **`Resolution.ofDeclarations`**: the whole resolution; **`Resolution.diagnostics`**.
-/

namespace VersionedTypes

/-- What becomes of a domain that is to be published. -/
inductive Verdict where
  | published (d : Domain)
  | duplicate (d : Domain)
  | invalid (d : Domain) (errors : List ValidationError)
  deriving DecidableEq

/-- What becomes of a declaration. -/
inductive Outcome where
  /-- A permutation or a request, put off until the plain domains are known. -/
  | deferred
  /-- A plain domain. -/
  | declared (v : Verdict)
  /-- A permutation that was applied to `base`. -/
  | derived (base : Domain) (v : Verdict)
  /-- A permutation that cannot be applied to its base. -/
  | refused (base? : Option Domain) (e : PermutationError)
  /-- A permutation whose base was rejected. -/
  | skipped
  /-- A permutation whose base does not exist, or that permutes itself over some steps. -/
  | unfounded (e : PermutationError)
  /-- A permutation that waits on an unfounded one. -/
  | stranded
  /-- A request between published domains. -/
  | answered (source destination : Domain)
  /-- A request that names a domain which no declaration has, or one that was rejected. -/
  | undefined (errors : List ValidationError)
  deriving DecidableEq

/-- A declaration with what became of it. -/
structure Record where
  declaration : Declaration
  outcome : Outcome
  deriving DecidableEq

/-- The mistakes that a verdict reports. -/
def Verdict.errors : Verdict → List ValidationError
  | published _ => []
  | duplicate d => [⟨.duplicateDomain d.tag, d.origin⟩]
  | invalid _ errors => errors

/-- The mistakes that an outcome reports. -/
def Outcome.diagnostics : Outcome → List Diagnostic
  | deferred | skipped | stranded | answered _ _ => []
  | declared v | derived _ v => v.errors.map Diagnostic.validation
  | refused _ e | unfounded e => [.permutation e]
  | undefined errors => errors.map Diagnostic.validation

/-- A state of the resolution. -/
structure Resolution extends Universe where
  rejected : NameSet := NameSet.empty
  records : List Record := []
  deriving DecidableEq

namespace Resolution

/-- The mistakes found so far, in the order of their discovery. -/
def diagnostics (s : Resolution) : List Diagnostic :=
  s.records.flatMap fun r => r.outcome.diagnostics

/-- A domain is published under `tag`. -/
def isPublished (s : Resolution) (tag : String) : Bool := s.domains.contains tag

/-- A declaration of `tag` was rejected. -/
def isRejected (s : Resolution) (tag : String) : Bool := s.rejected.names.contains tag

/-- The fate of the domains of this tag is known. -/
def isSettled (s : Resolution) (tag : String) : Bool := s.isPublished tag || s.isRejected tag

/-- Write down what became of a declaration. -/
def record (s : Resolution) (declaration : Declaration) (outcome : Outcome) : Resolution :=
  { s with records := s.records ++ [⟨declaration, outcome⟩] }

/-- From now on the domains of this tag are rejected. -/
def reject (s : Resolution) (tag : String) : Resolution :=
  { s with rejected := s.rejected.insert tag }

/-! ## Publication -/

/-- A tag is published once, and only if the domain is valid. -/
def verdict (s : Resolution) (d : Domain) : Verdict :=
  if s.isSettled d.tag then .duplicate d
  else if d.errors.isEmpty then .published d else .invalid d d.errors

/-- Publish the domain or reject it, as the verdict says. -/
def carryOut (s : Resolution) : Verdict → Resolution
  | .published d => { s with domains := s.domains.insert d.tag d }
  | .duplicate _ => s
  | .invalid d _ => s.reject d.tag

/-- Publish a domain, or reject it; `cause` and `outcome` say what is to be recorded. -/
def publish (s : Resolution) (cause : Declaration) (outcome : Verdict → Outcome) (d : Domain) :
    Resolution :=
  (s.carryOut (s.verdict d)).record cause (outcome (s.verdict d))

/-- A plain domain is published at once, the other declarations are put off. -/
def declare (s : Resolution) : Declaration → Resolution
  | .domain d => s.publish (.domain d) .declared d
  | c => s.record c .deferred

/-! ## Permutations -/

/-- Apply a permutation whose base is settled, and publish the result. -/
def derive (s : Resolution) (p : Permutation) : Except Fault Resolution :=
  if s.isRejected p.base then .ok ((s.reject p.tag).record (.permutation p) .skipped)
  else
    match s.domains.get? p.base with
    | none => .ok ((s.reject p.tag).record (.permutation p) (.refused none p.missingBase))
    | some base =>
      match p.applyTo base with
      | .ok d => .ok (s.publish (.permutation p) (.derived base) d)
      | .error (.illegal e) =>
        .ok ((s.reject p.tag).record (.permutation p) (.refused (some base) e))
      | .error (.fault f) => .error f

/-- The base of each tag; of several permutations of one tag the last one counts. -/
def links (pending : List Permutation) : OrderedMap String :=
  OrderedMap.ofList (pending.map fun p => (p.tag, p.base))

/-- Following the links from `current` leads to `tag` within the given number of steps. -/
def leadsTo (links : OrderedMap String) (tag : String) : Nat → String → Bool
  | 0, _ => false
  | n + 1, current =>
    match links.get? current with
    | some base => base == tag || leadsTo links tag n base
    | none => false

/-- The base of `p` does not exist, or `p` is one of a circle of permutations. -/
def isUnfounded (links : OrderedMap String) (p : Permutation) : Bool :=
  !links.contains p.base || leadsTo links p.tag links.size p.tag

/-- Reject a permutation whose base is never published. -/
def strandOne (links : OrderedMap String) (s : Resolution) (p : Permutation) : Resolution :=
  (s.reject p.tag).record (.permutation p)
    (if isUnfounded links p then .unfounded p.missingBase else .stranded)

/-- Reject the permutations that wait when nothing more can be published. -/
def strand (s : Resolution) (pending : List Permutation) : Resolution :=
  pending.foldl (strandOne (links pending)) s

/-- The permutations that can be looked at: the fate of their base is known. -/
def ready (s : Resolution) (pending : List Permutation) : List Permutation :=
  pending.filter fun p => s.isSettled p.base

/-- The permutations that have to wait. -/
def waiting (s : Resolution) (pending : List Permutation) : List Permutation :=
  pending.filter fun p => !s.isSettled p.base

theorem length_waiting_lt {s : Resolution} {pending : List Permutation}
    (h : (s.ready pending).isEmpty = false) : (s.waiting pending).length < pending.length := by
  refine Nat.lt_of_le_of_ne (List.length_filter_le _ _) fun e => ?_
  cases hr : s.ready pending with
  | nil => simp [hr] at h
  | cons p ps =>
    have hp := List.mem_filter.mp (show p ∈ s.ready pending by simp [hr])
    have := List.length_filter_eq_length_iff.mp e p hp.1
    simp [hp.2] at this

/-- In each round the ready permutations are applied in order and the others wait; a round without
a ready one is the last. -/
def settle (s : Resolution) (pending : List Permutation) : Except Fault Resolution :=
  if _h : (s.ready pending).isEmpty = false then
    match (s.ready pending).foldlM derive s with
    | .ok s' => s'.settle (s.waiting pending)
    | .error f => .error f
  else .ok (s.strand pending)
termination_by pending.length
decreasing_by exact length_waiting_lt _h

/-! ## Transforms -/

/-- The endpoints of a request, each once. -/
def endpoints (r : TransformRequest) : List String :=
  if r.destination = r.source then [r.source] else [r.source, r.destination]

/-- Answer a request between published domains. Otherwise each endpoint that no declaration has is
a mistake. -/
def answer (s : Resolution) (r : TransformRequest) : Resolution :=
  match s.domains.get? r.source, s.domains.get? r.destination with
  | some source, some destination =>
    { s with transforms := s.transforms ++ [r.answer source destination] }.record
      (.transform r) (.answered source destination)
  | _, _ =>
    s.record (.transform r) (.undefined
      (((endpoints r).filter fun tag => !s.isSettled tag).map fun tag =>
        ⟨.undefinedDomain r.name tag, r.origin⟩))

/-- Resolve a declaration list. -/
def ofDeclarations (ds : List Declaration) : Except Fault Resolution :=
  (settle (ds.foldl declare {}) (Declaration.permutations ds)).map fun s =>
    (Declaration.requests ds).foldl answer s

end Resolution

end VersionedTypes
