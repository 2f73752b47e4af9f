import VersionedTypes.Diagnostic
import VersionedTypes.Permutation

/-!
# Application of a permutation

The exclusions and then the sum edits change the list of types of the base one after the other,
and the first clause that fails ends the application. Included types are added last, so a sum edit
never sees one.

* `SumEdit.applyTo`: the removals, then the additions;
* `Clause.apply`, `Clause.applicable`: one step, and the steps in front of the first that fails;
* **`Permutation.applyTo`**, **`Permutation.apply`**: the permuted domain.
-/

namespace VersionedTypes

/-- Why a permutation gives no domain. -/
inductive Failure where
  | illegal (e : PermutationError)
  | fault (f : Fault)
  deriving DecidableEq

/-- `variants` without the first one of the given tag. -/
def removeVariant (variants : List ProductType) (tag : String) : Except String (List ProductType) :=
  if variants.any (·.tag == tag) then .ok (variants.eraseP (·.tag == tag)) else .error tag

/-- The sum with the edit's removals done in order and its additions at the end. The error is the
first variant that was not there to be removed. -/
def SumEdit.applyTo (e : SumEdit) (s : SumType) : Except String SumType :=
  (e.removed.foldlM removeVariant s.variants).map fun kept => { s with variants := kept ++ e.added }

/-- The types with `e` applied to the first one of its tag. -/
def SumEdit.applyWithin (domain : String) (e : SumEdit) :
    List UserType → Except PermutationProblem (List UserType)
  | [] => .error (.nonexistentSum domain e.tag)
  | t :: ts =>
    if t.tag = e.tag then
      match t with
      | .sum s =>
        match e.applyTo s with
        | .ok s' => .ok (.sum s' :: ts)
        | .error variant => .error (.nonexistentVariant domain e.tag variant)
      | .product _ => .error (.notASum domain e.tag .product)
    else (e.applyWithin domain ts).map (t :: ·)

namespace Permutation

variable (p : Permutation) (base : Domain)

/-- `types` without the one of the given tag. Builtins cannot be left out, and a tag that stands
for several types is a fault of the base. -/
def excludeType (types : List UserType) (tag : String) : Except Failure (List UserType) :=
  if (Builtin.ofTag? tag).isSome then .error (.illegal ⟨.builtinType p.tag tag, p.origin⟩)
  else
    match types.countP (·.tag == tag) with
    | 0 => .error (.illegal ⟨.nonexistentType p.tag tag, p.origin⟩)
    | 1 => .ok (types.eraseP (·.tag == tag))
    | n => .error (.fault (.ambiguousTag tag n base.tag p.origin))

/-- `types` with a sum edited. Builtins are no sums. -/
def editType (types : List UserType) (e : SumEdit) : Except Failure (List UserType) :=
  match Builtin.ofTag? e.tag with
  | some _ => .error (.illegal ⟨.notASum p.tag e.tag .builtin, e.origin⟩)
  | none => (e.applyWithin p.tag types).mapError fun problem => .illegal ⟨problem, e.origin⟩

/-- One step of the application. -/
def applyClause (types : List UserType) : Clause → Except Failure (List UserType)
  | .exclude tag => p.excludeType base types tag
  | .edit e => p.editType types e

/-- The clauses in front of the first one that fails. -/
def applicable (types : List UserType) : List Clause → List Clause
  | [] => []
  | c :: cs =>
    match p.applyClause base types c with
    | .ok types' => c :: applicable types' cs
    | .error _ => []

/-- The domain that the permutation makes of `base`. The tags of the result may clash: that is for
validation to find. -/
def applyTo : Except Failure Domain :=
  (p.clauses.foldlM (p.applyClause base) base.userTypes).map fun types =>
    { tag := p.tag, userTypes := types ++ p.included.filterMap SchemaType.user?,
      origin := p.origin }

/-- The error of a permutation whose base does not exist. -/
def missingBase : PermutationError := ⟨.nonexistentBase p.tag p.base, p.origin⟩

/-- The domain that the permutation makes of its base among `domains`. -/
def apply (domains : DomainMap) : Except Failure Domain :=
  match domains.get? p.base with
  | some base => p.applyTo base
  | none => .error (.illegal p.missingBase)

end Permutation

end VersionedTypes
