import VersionedTypes.Domain

/-!
# Permutations

A permutation declares a domain as edits of another one: types that are left out, variants taken
from and added to sums, and types that are added.

* `SumEdit`, `SumEdit.remove`, `SumEdit.add`;
* `Permutation`, `Permutation.excluding`, `Permutation.including`, `Permutation.editing`;
* `Clause` and `Permutation.clauses`: exclusions and sum edits, in the order of their application.
-/

namespace VersionedTypes

/-- Edits of the variants of one sum. The removals are a list: naming a variant twice asks for two
of them. -/
structure SumEdit where
  tag : String
  removed : List String := []
  added : List ProductType := []
  origin : Origin := Origin.blank
  deriving DecidableEq

namespace SumEdit

/-- Ask for one more removal. -/
def remove (e : SumEdit) (variant : String) : SumEdit :=
  { e with removed := e.removed ++ [variant] }

/-- Ask for one more addition. -/
def add (e : SumEdit) (variant : ProductType) : SumEdit :=
  { e with added := e.added ++ [variant] }

end SumEdit

/-- A domain declared as edits of the domain `base`. -/
structure Permutation where
  tag : String
  base : String
  excluded : NameSet := NameSet.empty
  included : List SchemaType := []
  sumEdits : List SumEdit := []
  origin : Origin := Origin.blank
  deriving DecidableEq

namespace Permutation

/-- Leave the type `tag` of the base out. -/
def excluding (p : Permutation) (tag : String) : Permutation :=
  { p with excluded := p.excluded.insert tag }

/-- Add a type. -/
def including (p : Permutation) (t : SchemaType) : Permutation :=
  { p with included := p.included ++ [t] }

/-- Edit a sum of the base. -/
def editing (p : Permutation) (e : SumEdit) : Permutation :=
  { p with sumEdits := p.sumEdits ++ [e] }

end Permutation

/-- One step in the application of a permutation. -/
inductive Clause where
  | exclude (tag : String)
  | edit (e : SumEdit)
  deriving DecidableEq

/-- All exclusions come before all sum edits. -/
def Permutation.clauses (p : Permutation) : List Clause :=
  p.excluded.names.map Clause.exclude ++ p.sumEdits.map Clause.edit

end VersionedTypes
