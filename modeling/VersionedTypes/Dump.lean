import VersionedTypes.Palette
import VersionedTypes.Universe

/-!
# Dumps

A domain is shown with one line for every type, variant and field, indented by its depth:

    domain v1
      product point positional
        x: int
      sum expr
        add [removed]
          lhs: expr

Builtins are implied. On demand a line ends with the position of what it shows, and annotations
follow on lines of their own.

* `Dump.Options`; `Dump.Line`, `Dump.Line.text`;
* `Dump.fieldLines`, `Dump.productLines`, `Dump.sumLines`, `Dump.domainLines`,
  `Dump.transformLines`;
* **`Domain.dump`**, **`Transform.dump`**, **`Universe.dump`**.
-/

namespace VersionedTypes

namespace Dump

/-- What a dump shows besides the types. -/
structure Options where
  spans : Bool := false
  annotations : Bool := false
  palette : Palette := Palette.off
  deriving DecidableEq

/-- A line at a depth. -/
structure Line where
  depth : Nat
  pieces : List Piece
  deriving DecidableEq

/-- The line with its indentation and its end. -/
def Line.text (p : Palette) (l : Line) : String :=
  String.join (List.replicate l.depth "  ") ++ String.join (l.pieces.map (Piece.paint p)) ++ "\n"

/-- The lines one below the other. -/
def text (p : Palette) (lines : List Line) : String := String.join (lines.map (Line.text p))

variable (o : Options)

/-- The position of an entry, where it is known and asked for. -/
def span (origin : Origin) : List Piece :=
  if o.spans ∧ origin.position.isKnown then
    [⟨.plain, " "⟩, ⟨.dim, "@" ++ origin.position.text⟩]
  else []

/-- The mark of what does not survive. -/
def mark (removed : Bool) : List Piece :=
  if removed then [⟨.plain, " "⟩, ⟨.red, "[removed]"⟩] else []

/-- The annotations of an entry, where they are asked for. -/
def annotationLines (depth : Nat) (origin : Origin) : List Line :=
  if o.annotations then
    origin.annotations.entries.map fun (k, v) => ⟨depth, [⟨.dim, s!"# {k} = {v}"⟩]⟩
  else []

/-- The line of an entry, with its position, and its annotations one level deeper. -/
def entry (depth : Nat) (pieces : List Piece) (origin : Origin) : List Line :=
  ⟨depth, pieces ++ span o origin⟩ :: annotationLines o (depth + 1) origin

/-- A field with the name of its type. -/
def fieldLines (depth : Nat) (f : Field) : List Line :=
  entry o depth [⟨.plain, f.name⟩, ⟨.dim, ":"⟩, ⟨.plain, " "⟩, ⟨.green, f.type.typeName⟩] f.origin

/-- The encoding, where it is not the usual one. -/
def encodingPieces : Encoding → List Piece
  | .keyed => []
  | .positional => [⟨.plain, " "⟩, ⟨.dim, "positional"⟩]

/-- A product; `keyword` stands in front of one that is no variant. -/
def productLines (depth : Nat) (keyword : List Piece) (p : ProductType) : List Line :=
  entry o depth (keyword ++ [⟨.blue, p.tag⟩] ++ encodingPieces p.encoding ++ mark p.removed)
      p.origin ++
    p.fields.flatMap (fieldLines o (depth + 1))

/-- A sum with its variants below it, one step further in. -/
def sumLines (depth : Nat) (s : SumType) : List Line :=
  entry o depth ([⟨.dim, "sum"⟩, ⟨.plain, " "⟩, ⟨.blue, s.tag⟩] ++ mark s.removed) s.origin ++
    s.variants.flatMap (productLines o (depth + 1) [])

/-- A product behind the word for products, or a sum. -/
def typeLines (depth : Nat) : UserType → List Line
  | .product p => productLines o depth [⟨.dim, "product"⟩, ⟨.plain, " "⟩] p
  | .sum s => sumLines o depth s

/-- A domain with its types below it, one step further in. -/
def domainLines (d : Domain) : List Line :=
  entry o 0 [⟨.dim, "domain"⟩, ⟨.plain, " "⟩, ⟨.blue, d.tag⟩] d.origin ++
    d.userTypes.flatMap (typeLines o 1)

/-- A transform is headed by its name and both ends; its delta follows. -/
def transformLines (t : Transform) : List Line :=
  entry o 0
      [⟨.dim, "transform"⟩, ⟨.plain, " "⟩, ⟨.blue, t.name⟩, ⟨.dim, ":"⟩, ⟨.plain, " "⟩,
        ⟨.blue, t.source⟩, ⟨.plain, " "⟩, ⟨.dim, "->"⟩, ⟨.plain, " "⟩, ⟨.blue, t.destination⟩]
      t.origin ++
    domainLines o t.delta

/-- Dumps with an empty line between any two. -/
def spaced (dumps : List String) : String := "\n".intercalate dumps

end Dump

/-- The dump of a domain. Builtins are not shown. -/
def Domain.dump (o : Dump.Options) (d : Domain) : String :=
  Dump.text o.palette (Dump.domainLines o d)

/-- The dump of a transform: its name, its ends and the marked types. -/
def Transform.dump (o : Dump.Options) (t : Transform) : String :=
  Dump.text o.palette (Dump.transformLines o t)

/-- The published domains in order. -/
def Universe.dump (o : Dump.Options) (u : Universe) : String :=
  Dump.spaced (u.domains.values.map (Domain.dump o))

end VersionedTypes
