import VersionedTypes.SchemaType

/-!
# Shapes and contents

The content of a product is what is left of it without marks and origins. Two products have the
same shape exactly if they have the same content, so the comparison that goes over both lists of
fields side by side leaves nothing out and looks at nothing else.

* `ProductType.content`, `ProductType.content_eq`: tag, encoding and signature make up the content;
* `ProductType.SameShape.symm`, `ProductType.SameShape.trans`;
* **`ProductType.sameShape_iff_content_eq`**: shapes are equal exactly if the contents are;
* `ProductType.mapOrigins_content`, `ProductType.agrees_content_iff`: the origins in a content are
  blank, so no order of annotations tells two of them apart;
* `ProductType.hasShapeOf_congr`: the comparison depends on contents only;
* **`ProductType.hasShapeOf_decides_content`**: what the comparison says of any two products.
-/

namespace VersionedTypes

namespace ProductType

variable {p p' q q' r : ProductType}

/-! ## Shapes -/

theorem sameShape_self (p : ProductType) : p.SameShape p := ⟨rfl, rfl, rfl⟩

theorem SameShape.symm (h : p.SameShape q) : q.SameShape p := ⟨h.1.symm, h.2.1.symm, h.2.2.symm⟩

theorem SameShape.trans (h : p.SameShape q) (h' : q.SameShape r) : p.SameShape r :=
  ⟨h.1.trans h'.1, h.2.1.trans h'.2.1, h.2.2.trans h'.2.2⟩

/-! ## Contents -/

/-- The product without marks and origins. -/
def content (p : ProductType) : ProductType := p.unmarked.bare

theorem tag_content (p : ProductType) : p.content.tag = p.tag := rfl

theorem content_markRemoved (p : ProductType) : p.markRemoved.content = p.content := rfl

theorem content_eq (p : ProductType) : p.content =
    { tag := p.tag, encoding := p.encoding,
      fields := p.signature.map fun f => { name := f.1, type := { typeName := f.2 } } } := by
  rw [signature, List.map_map]
  rfl

theorem signature_content (p : ProductType) : p.content.signature = p.signature := by
  rw [content_eq, signature, List.map_map]
  exact List.map_id _

/-- **Shapes are equal** exactly if the contents are. -/
theorem sameShape_iff_content_eq : p.SameShape q ↔ p.content = q.content := by
  constructor
  · rintro ⟨htag, hencoding, hsignature⟩
    rw [content_eq, content_eq, htag, hencoding, hsignature]
  · intro h
    have htag : p.content.tag = q.content.tag := congrArg tag h
    have hencoding : p.content.encoding = q.content.encoding := congrArg encoding h
    refine ⟨htag, hencoding, ?_⟩
    rw [← signature_content p, h, signature_content]

theorem mapOrigins_mapOrigins (f g : Origin → Origin) (p : ProductType) :
    (p.mapOrigins g).mapOrigins f = p.mapOrigins (f ∘ g) := by
  rw [mapOrigins, mapOrigins, List.map_map]
  rfl

theorem mapOrigins_content {f : Origin → Origin} (hf : f Origin.blank = Origin.blank)
    (p : ProductType) : p.content.mapOrigins f = p.content := by
  have hblank : (f ∘ fun _ : Origin => Origin.blank) = fun _ => Origin.blank :=
    funext fun _ => hf
  rw [content, bare, mapOrigins_mapOrigins, hblank]

/-- Contents have no annotations, so they are equal if they are equal up to their order. -/
theorem agrees_content_iff : p.content.Agrees q.content ↔ p.content = q.content := by
  rw [Agrees, mapOrigins_content Origin.sorted_blank, mapOrigins_content Origin.sorted_blank]

/-! ## The comparison -/

theorem hasShapeOf_iff_content_eq : p.hasShapeOf q = true ↔ p.content = q.content :=
  hasShapeOf_iff.trans sameShape_iff_content_eq

/-- Nothing but the contents of the two products counts. -/
theorem hasShapeOf_congr (hp : p.content = p'.content) (hq : q.content = q'.content) :
    p.hasShapeOf q = p'.hasShapeOf q' := by
  rw [Bool.eq_iff_iff, hasShapeOf_iff_content_eq, hasShapeOf_iff_content_eq, hp, hq]

theorem hasShapeOf_equivalence : Equivalence fun p q : ProductType => p.hasShapeOf q = true where
  refl p := hasShapeOf_iff.mpr p.sameShape_self
  symm h := hasShapeOf_iff.mpr (hasShapeOf_iff.mp h).symm
  trans h h' := hasShapeOf_iff.mpr ((hasShapeOf_iff.mp h).trans (hasShapeOf_iff.mp h'))

/-- **The comparison of shapes decides whether the contents are equal**, in every component or up to
the order of annotations, which is the same for contents. So it is an equivalence, and its answer
does not change when either product is marked as not surviving. -/
theorem hasShapeOf_decides_content :
    (∀ p q : ProductType, p.hasShapeOf q = true ↔ p.content = q.content) ∧
    (∀ p q : ProductType, p.hasShapeOf q = true ↔ p.content.Agrees q.content) ∧
    Equivalence (fun p q : ProductType => p.hasShapeOf q = true) ∧
    ∀ p q : ProductType, p.markRemoved.hasShapeOf q = p.hasShapeOf q ∧
      p.hasShapeOf q.markRemoved = p.hasShapeOf q := by
  refine ⟨fun p q => hasShapeOf_iff_content_eq, fun p q => ?_, hasShapeOf_equivalence,
    fun p q => ⟨?_, ?_⟩⟩
  · exact hasShapeOf_iff_content_eq.trans agrees_content_iff.symm
  · exact hasShapeOf_congr p.content_markRemoved rfl
  · exact hasShapeOf_congr rfl q.content_markRemoved

/-- A product whose fields are the first ones of another product has another shape. -/
example : ProductType.hasShapeOf
    { tag := "point", fields := [{ name := "x", type := { typeName := "int" } }] }
    { tag := "point", fields := [{ name := "x", type := { typeName := "int" } },
        { name := "y", type := { typeName := "int" } }] } = false := by decide

end ProductType

end VersionedTypes
