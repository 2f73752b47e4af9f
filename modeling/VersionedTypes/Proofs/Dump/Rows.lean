import Mathlib.Data.List.TakeWhile
import VersionedTypes.Proofs.Dump
import VersionedTypes.Proofs.Lists
import VersionedTypes.Proofs.Lists.Splitting

/-!
# What a plain dump tells

A plain dump consists of words. A line is told from its words and its depth, and a depth from the
blanks in front of the first word; what a line shows is told from its depth, from the line that it
stands under and from the places of its words. So tags and names may be any words, those with a
meaning of their own included, and a dump tells everything about a domain but its origins.

* `IsWord`, `Row`, `Row.ofLine_line`, `readRows_chars`: lines as rows of words, which can be read
  back;
* `domainRows`, `Dump.toList_dump`: the dump of a domain, row by row;
* `Domain.Worded`, `readable_domainRows`: names that are shown as words;
* `begins_productRows`, `begins_typeRows`: every type is a block of rows under its own;
* `bare_eq_of_domainRows_eq`, `domainRows_bare`: what the rows tell, and what they do not;
* **`Domain.dump_eq_dump_iff`**: the domains that have the same dump.
-/

namespace VersionedTypes

namespace Dump

/-! ## Words and rows -/

/-- A text that a dump shows as one word. Every text without whitespace is one, unless it is
empty. -/
structure IsWord (cs : List Char) : Prop where
  ne_nil : cs ≠ []
  blank : ' ' ∉ cs
  newline : '\n' ∉ cs

instance : DecidablePred IsWord := fun cs =>
  decidable_of_iff (cs ≠ [] ∧ ' ' ∉ cs ∧ '\n' ∉ cs)
    ⟨fun ⟨hn, hb, hl⟩ => ⟨hn, hb, hl⟩, fun ⟨hn, hb, hl⟩ => ⟨hn, hb, hl⟩⟩

/-- The words of a line, and how deep it is. -/
structure Row where
  depth : Nat
  words : List (List Char)
  deriving DecidableEq

namespace Row

variable {r : Row}

/-- The line without its end. -/
def line (r : Row) : List Char := List.replicate (2 * r.depth) ' ' ++ [' '].intercalate r.words

/-- A row of one word or more. -/
structure Readable (r : Row) : Prop where
  ne_nil : r.words ≠ []
  words : ∀ w ∈ r.words, IsWord w

/-- The row that a line shows. -/
def ofLine (cs : List Char) : Row :=
  ⟨(cs.takeWhile (· = ' ')).length / 2, (cs.dropWhile (· = ' ')).splitOn ' '⟩

/-- The words of a row begin with no blank. -/
theorem Readable.exists_eq_cons (h : r.Readable) :
    ∃ c cs, [' '].intercalate r.words = c :: cs ∧ c ≠ ' ' := by
  obtain ⟨depth, words⟩ := r
  obtain ⟨hne, hwords⟩ := h
  obtain ⟨w, ws, rfl⟩ := List.exists_cons_of_ne_nil hne
  obtain ⟨hw, hblank, -⟩ := hwords w List.mem_cons_self
  obtain ⟨c, cs, rfl⟩ := List.exists_cons_of_ne_nil hw
  have hc : c ≠ ' ' := fun e => hblank (e ▸ List.mem_cons_self)
  exact ⟨c, _, by rw [intercalate_cons, List.cons_append], hc⟩

/-- **A row is read back** from its line. -/
theorem ofLine_line (h : r.Readable) : ofLine r.line = r := by
  obtain ⟨c, cs, hwords, hc⟩ := h.exists_eq_cons
  have hblanks : ∀ b ∈ List.replicate (2 * r.depth) ' ', decide (b = ' ') = true :=
    fun b hb => decide_eq_true (List.eq_of_mem_replicate hb)
  have hsplit : ([' '].intercalate r.words).splitOn ' ' = r.words :=
    List.splitOn_intercalate ' ' (fun w hw => (h.words w hw).blank) h.ne_nil
  rw [hwords] at hsplit
  rw [ofLine, line, hwords, List.takeWhile_append_of_pos hblanks,
    List.dropWhile_append_of_pos hblanks, List.takeWhile_cons_of_neg (by simpa using hc),
    List.dropWhile_cons_of_neg (by simpa using hc), List.append_nil, List.length_replicate, hsplit,
    Nat.mul_div_cancel_left _ Nat.two_pos]

theorem newline_notMem_intercalate {words : List (List Char)} (h : ∀ w ∈ words, '\n' ∉ w) :
    '\n' ∉ [' '].intercalate words := by
  cases words with
  | nil => exact List.not_mem_nil
  | cons w ws =>
    obtain ⟨hw, hws⟩ := List.forall_mem_cons.mp h
    rw [intercalate_cons, List.mem_append, List.mem_flatMap]
    rintro (hc | ⟨w', hw', hc⟩)
    · exact hw hc
    · exact (List.mem_cons.mp hc).elim (absurd · (by decide)) (hws w' hw')

theorem Readable.newline_notMem_line (h : r.Readable) : '\n' ∉ r.line := by
  rw [line, List.mem_append, not_or]
  refine ⟨fun hc => ?_, newline_notMem_intercalate fun w hw => (h.words w hw).newline⟩
  exact absurd (List.eq_of_mem_replicate hc) (by decide)

end Row

/-- The text of rows. -/
def chars (rows : List Row) : List Char := rows.flatMap fun r => r.line ++ ['\n']

theorem chars_append (rows rows' : List Row) : chars (rows ++ rows') = chars rows ++ chars rows' :=
  List.flatMap_append

/-- The rows that a text shows. -/
def readRows (cs : List Char) : List Row := (cs.splitOn '\n').dropLast.map Row.ofLine

/-- **Rows are read back** from their text. -/
theorem readRows_chars {rows : List Row} (h : ∀ r ∈ rows, r.Readable) :
    readRows (chars rows) = rows := by
  have hlines : ∀ l ∈ rows.map Row.line, '\n' ∉ l := by
    intro l hl
    obtain ⟨r, hr, rfl⟩ := List.mem_map.mp hl
    exact (h r hr).newline_notMem_line
  have hsplit := splitOn_flatMap_concat hlines
  rw [List.flatMap_map] at hsplit
  rw [readRows, chars, hsplit, List.dropLast_concat, List.map_map, map_eq_self_iff]
  exact fun r hr => Row.ofLine_line (h r hr)

/-! ## The rows of a domain -/

/-- The words behind a tag that tell the encoding. -/
def encodingWords : Encoding → List (List Char)
  | .keyed => []
  | .positional => ["positional".toList]

/-- The word behind what is removed. -/
def markWords (removed : Bool) : List (List Char) := if removed then ["[removed]".toList] else []

/-- The row of a field. -/
def fieldRows (depth : Nat) (f : Field) : List Row :=
  [⟨depth, [f.name.toList ++ [':'], f.type.typeName.toList]⟩]

/-- A product; `keyword` stands in front of one that is no variant. -/
def productRows (depth : Nat) (keyword : List (List Char)) (p : ProductType) : List Row :=
  ⟨depth, keyword ++ p.tag.toList :: (encodingWords p.encoding ++ markWords p.removed)⟩ ::
    p.fields.flatMap (fieldRows (depth + 1))

/-- The rows of a sum and its variants. -/
def sumRows (depth : Nat) (s : SumType) : List Row :=
  ⟨depth, "sum".toList :: s.tag.toList :: markWords s.removed⟩ ::
    s.variants.flatMap (productRows (depth + 1) [])

/-- The rows of a declared type. -/
def typeRows (depth : Nat) : UserType → List Row
  | .product p => productRows depth ["product".toList] p
  | .sum s => sumRows depth s

/-- The rows of a domain: its tag, and its types one step further in. -/
def domainRows (d : Domain) : List Row :=
  ⟨0, ["domain".toList, d.tag.toList]⟩ :: d.userTypes.flatMap (typeRows 1)

/-- What pieces say. -/
def said (pieces : List Piece) : List Char := pieces.flatMap fun piece => piece.text.toList

theorem said_append (pieces pieces' : List Piece) :
    said (pieces ++ pieces') = said pieces ++ said pieces' :=
  List.flatMap_append

theorem said_encodingPieces (e : Encoding) :
    said (encodingPieces e) = (encodingWords e).flatMap ([' '] ++ ·) := by
  cases e <;> rfl

theorem said_mark (removed : Bool) :
    said (mark removed) = (markWords removed).flatMap ([' '] ++ ·) := by
  cases removed <;> rfl

theorem toList_text_entry {depth : Nat} {pieces : List Piece} {words : List (List Char)}
    (h : said pieces = [' '].intercalate words) (origin : Origin) :
    (text Palette.off (entry {} depth pieces origin)).toList = chars [⟨depth, words⟩] := by
  have hentry : entry {} depth pieces origin = [⟨depth, pieces⟩] := by
    simp [entry, span, annotationLines]
  rw [hentry, toList_text, List.flatMap_singleton, Line.toList_text, Line.body]
  simp only [Piece.paint_off]
  rw [← said, h, chars, List.flatMap_singleton, Row.line]

theorem toList_text_block {α : Type} {depth : Nat} {pieces : List Piece} {words : List (List Char)}
    {lines : α → List Line} {rows : α → List Row} (h : said pieces = [' '].intercalate words)
    (hrows : ∀ x, (text Palette.off (lines x)).toList = chars (rows x)) (origin : Origin)
    (xs : List α) :
    (text Palette.off (entry {} depth pieces origin ++ xs.flatMap lines)).toList
      = chars (⟨depth, words⟩ :: xs.flatMap rows) := by
  have hunder : (text Palette.off (xs.flatMap lines)).toList = chars (xs.flatMap rows) := by
    rw [toList_text_flatMap, chars, List.flatMap_assoc]
    exact List.flatMap_congr fun x _ => hrows x
  rw [toList_text_append, toList_text_entry h, hunder, ← chars_append, List.singleton_append]

theorem toList_text_fieldLines (depth : Nat) (f : Field) :
    (text Palette.off (fieldLines {} depth f)).toList = chars (fieldRows depth f) :=
  toList_text_entry (by simp [said, intercalate_cons]) f.origin

theorem toList_text_productLines (depth : Nat) {keyword : List Piece} {words : List (List Char)}
    (hkeyword : keyword = [] ∧ words = [] ∨
      keyword = [⟨.dim, "product"⟩, ⟨.plain, " "⟩] ∧ words = ["product".toList])
    (p : ProductType) :
    (text Palette.off (productLines {} depth keyword p)).toList
      = chars (productRows depth words p) := by
  refine toList_text_block ?_ (toList_text_fieldLines _) p.origin p.fields
  rw [said_append, said_append, said_encodingPieces, said_mark]
  rcases hkeyword with ⟨rfl, rfl⟩ | ⟨rfl, rfl⟩ <;> simp [said, intercalate_cons]

theorem toList_text_sumLines (depth : Nat) (s : SumType) :
    (text Palette.off (sumLines {} depth s)).toList = chars (sumRows depth s) := by
  refine toList_text_block ?_ (toList_text_productLines _ (.inl ⟨rfl, rfl⟩)) s.origin s.variants
  rw [said_append, said_mark]
  simp [said, intercalate_cons]

theorem toList_text_typeLines (depth : Nat) (t : UserType) :
    (text Palette.off (typeLines {} depth t)).toList = chars (typeRows depth t) :=
  match t with
  | .product p => toList_text_productLines depth (.inr ⟨rfl, rfl⟩) p
  | .sum s => toList_text_sumLines depth s

theorem toList_dump (d : Domain) : (d.dump {}).toList = chars (domainRows d) :=
  toList_text_block (by simp [said, intercalate_cons]) (toList_text_typeLines 1) d.origin
    d.userTypes

end Dump

/-! ## Names that are words -/

section Worded

/-- Both names of the field are words. -/
def Field.Worded (f : Field) : Prop :=
  Dump.IsWord f.name.toList ∧ Dump.IsWord f.type.typeName.toList

instance : DecidablePred Field.Worded := fun f => by unfold Field.Worded; infer_instance

/-- The tag of the product and all names in it are words. -/
def ProductType.Worded (p : ProductType) : Prop :=
  Dump.IsWord p.tag.toList ∧ ∀ f ∈ p.fields, f.Worded

instance : DecidablePred ProductType.Worded := fun p => by
  unfold ProductType.Worded; infer_instance

/-- The tag of the sum and all names in it are words. -/
def SumType.Worded (s : SumType) : Prop :=
  Dump.IsWord s.tag.toList ∧ ∀ v ∈ s.variants, v.Worded

instance : DecidablePred SumType.Worded := fun s => by unfold SumType.Worded; infer_instance

/-- The names in a declared type are single words. -/
def UserType.Worded : UserType → Prop
  | .product p => p.Worded
  | .sum s => s.Worded

instance : DecidablePred UserType.Worded
  | .product p => inferInstanceAs (Decidable p.Worded)
  | .sum s => inferInstanceAs (Decidable s.Worded)

/-- All tags and names of the domain are words. -/
def Domain.Worded (d : Domain) : Prop :=
  Dump.IsWord d.tag.toList ∧ ∀ t ∈ d.userTypes, t.Worded

instance : DecidablePred Domain.Worded := fun d => by unfold Domain.Worded; infer_instance

end Worded

namespace Dump

theorem isWord_encodingWords (e : Encoding) : ∀ w ∈ encodingWords e, IsWord w := by
  cases e <;> decide

theorem isWord_markWords (removed : Bool) : ∀ w ∈ markWords removed, IsWord w := by
  cases removed <;> decide

section Readable

variable {depth : Nat} {words : List (List Char)}

theorem readable_block {α : Type} {rows : α → List Row} {xs : List α} (hne : words ≠ [])
    (hwords : ∀ w ∈ words, IsWord w) (hrows : ∀ x ∈ xs, ∀ r ∈ rows x, r.Readable) :
    ∀ r ∈ ⟨depth, words⟩ :: xs.flatMap rows, r.Readable := by
  refine List.forall_mem_cons.mpr ⟨⟨hne, hwords⟩, fun r hr => ?_⟩
  obtain ⟨x, hx, hr⟩ := List.mem_flatMap.mp hr
  exact hrows x hx r hr

theorem readable_fieldRows {f : Field} (h : f.Worded) : ∀ r ∈ fieldRows depth f, r.Readable := by
  obtain ⟨⟨-, hblank, hnewline⟩, htype⟩ := h
  have hname : IsWord (f.name.toList ++ [':']) :=
    ⟨by simp, by simpa using hblank, by simpa using hnewline⟩
  intro r hr
  obtain rfl := List.mem_singleton.mp hr
  exact ⟨List.cons_ne_nil _ _, by simpa using ⟨hname, htype⟩⟩

theorem readable_productRows {p : ProductType} (hwords : ∀ w ∈ words, IsWord w) (h : p.Worded) :
    ∀ r ∈ productRows depth words p, r.Readable := by
  obtain ⟨htag, hfields⟩ := h
  refine readable_block (by simp) (fun w hw => ?_) fun f hf => readable_fieldRows (hfields f hf)
  simp only [List.mem_append, List.mem_cons] at hw
  rcases hw with hw | rfl | hw | hw
  · exact hwords w hw
  · exact htag
  · exact isWord_encodingWords _ w hw
  · exact isWord_markWords _ w hw

theorem readable_sumRows {s : SumType} (h : s.Worded) : ∀ r ∈ sumRows depth s, r.Readable := by
  obtain ⟨htag, hvariants⟩ := h
  refine readable_block (by simp) (fun w hw => ?_)
    fun v hv => readable_productRows (by simp) (hvariants v hv)
  simp only [List.mem_cons] at hw
  rcases hw with rfl | rfl | hw
  · decide
  · exact htag
  · exact isWord_markWords _ w hw

theorem readable_typeRows {t : UserType} (h : t.Worded) : ∀ r ∈ typeRows depth t, r.Readable :=
  match t with
  | .product _ => readable_productRows (by decide) h
  | .sum _ => readable_sumRows h

theorem readable_domainRows {d : Domain} (h : d.Worded) : ∀ r ∈ domainRows d, r.Readable := by
  obtain ⟨htag, htypes⟩ := h
  have hwords : ∀ w ∈ ["domain".toList, d.tag.toList], IsWord w := by
    simpa using ⟨by decide, htag⟩
  exact readable_block (List.cons_ne_nil _ _) hwords fun t ht => readable_typeRows (htypes t ht)

end Readable

/-! ## Blocks -/

section Blocks

variable {depth : Nat} {words : List (List Char)} {α : Type} {rows : α → List Row}

theorem le_depth_block {xs : List α} (hrows : ∀ x, ∀ r ∈ rows x, depth + 1 ≤ r.depth) :
    ∀ r ∈ ⟨depth, words⟩ :: xs.flatMap rows, depth ≤ r.depth := by
  refine List.forall_mem_cons.mpr ⟨le_rfl, fun r hr => ?_⟩
  obtain ⟨x, -, hr⟩ := List.mem_flatMap.mp hr
  exact Nat.le_of_succ_le (hrows x r hr)

theorem begins_block {xs : List α} (hrows : ∀ x, ∀ r ∈ rows x, depth + 1 ≤ r.depth) :
    Begins (·.depth == depth) (⟨depth, words⟩ :: xs.flatMap rows) := by
  refine ⟨_, _, rfl, beq_self_eq_true depth, fun r hr => ?_⟩
  obtain ⟨x, -, hr⟩ := List.mem_flatMap.mp hr
  exact beq_false_of_ne (Nat.ne_of_gt (hrows x r hr))

theorem le_depth_fieldRows (depth : Nat) (f : Field) : ∀ r ∈ fieldRows depth f, depth ≤ r.depth :=
  List.forall_mem_singleton.mpr le_rfl

theorem le_depth_productRows (depth : Nat) (words : List (List Char)) (p : ProductType) :
    ∀ r ∈ productRows depth words p, depth ≤ r.depth :=
  le_depth_block (le_depth_fieldRows _)

theorem begins_fieldRows (depth : Nat) (f : Field) :
    Begins (·.depth == depth) (fieldRows depth f) :=
  ⟨_, [], rfl, beq_self_eq_true depth, fun _ h => absurd h List.not_mem_nil⟩

theorem begins_productRows (depth : Nat) (words : List (List Char)) (p : ProductType) :
    Begins (·.depth == depth) (productRows depth words p) :=
  begins_block (le_depth_fieldRows _)

theorem begins_typeRows (depth : Nat) (t : UserType) :
    Begins (·.depth == depth) (typeRows depth t) :=
  match t with
  | .product p => begins_productRows depth _ p
  | .sum _ => begins_block (le_depth_productRows _ _)

end Blocks

/-! ## What the rows tell -/

theorem eq_of_marks_eq {e e' : Encoding} {removed removed' : Bool}
    (h : encodingWords e ++ markWords removed = encodingWords e' ++ markWords removed') :
    e = e' ∧ removed = removed' := by
  revert h
  cases e <;> cases e' <;> cases removed <;> cases removed' <;> decide

theorem bare_eq_of_fieldRows_eq {depth : Nat} {f g : Field}
    (h : fieldRows depth f = fieldRows depth g) : f.bare = g.bare := by
  have hwords := congrArg Row.words (List.cons.inj h).1
  obtain ⟨hname, hrest⟩ := List.cons.inj hwords
  have hname := String.toList_inj.mp (List.append_cancel_right hname)
  have htype := String.toList_inj.mp (List.cons.inj hrest).1
  simp only [Field.bare, Field.mapOrigins, TypeRef.mapOrigin, hname, htype]

theorem bare_eq_of_productRows_eq {depth : Nat} {words : List (List Char)} {p q : ProductType}
    (h : productRows depth words p = productRows depth words q) : p.bare = q.bare := by
  obtain ⟨hrow, hrows⟩ := List.cons.inj h
  obtain ⟨htag, hmarks⟩ := List.cons.inj (List.append_cancel_left (congrArg Row.words hrow))
  have htag := String.toList_inj.mp htag
  obtain ⟨hencoding, hremoved⟩ := eq_of_marks_eq hmarks
  have hfields : p.fields.map Field.bare = q.fields.map Field.bare :=
    map_eq_of_flatMap_eq (fun f _ => begins_fieldRows _ f) (fun g _ => begins_fieldRows _ g)
      (fun _ _ _ _ => bare_eq_of_fieldRows_eq) hrows
  rw [Field.bare] at hfields
  simp only [ProductType.bare, ProductType.mapOrigins, hfields, htag, hencoding, hremoved]

theorem bare_eq_of_sumRows_eq {depth : Nat} {s t : SumType}
    (h : sumRows depth s = sumRows depth t) : s.bare = t.bare := by
  obtain ⟨hrow, hrows⟩ := List.cons.inj h
  obtain ⟨-, hwords⟩ := List.cons.inj (congrArg Row.words hrow)
  obtain ⟨htag, hmarks⟩ := List.cons.inj hwords
  have htag := String.toList_inj.mp htag
  -- the marks of a sum are those of a product that is not positional
  have hmarks : encodingWords .keyed ++ markWords s.removed
      = encodingWords .keyed ++ markWords t.removed := hmarks
  obtain ⟨-, hremoved⟩ := eq_of_marks_eq hmarks
  have hvariants : s.variants.map ProductType.bare = t.variants.map ProductType.bare :=
    map_eq_of_flatMap_eq (fun v _ => begins_productRows _ _ v)
      (fun w _ => begins_productRows _ _ w) (fun _ _ _ _ => bare_eq_of_productRows_eq) hrows
  rw [ProductType.bare] at hvariants
  simp only [SumType.bare, SumType.mapOrigins, hvariants, htag, hremoved]

/-- The first word of a type tells what kind of a type it is. -/
theorem bare_eq_of_typeRows_eq {depth : Nat} {t u : UserType}
    (h : typeRows depth t = typeRows depth u) : t.bare = u.bare := by
  have hkeyword : "product".toList ≠ "sum".toList := by decide
  cases t with
  | product p =>
    cases u with
    | product q => exact congrArg UserType.product (bare_eq_of_productRows_eq h)
    | sum s =>
      have hwords := congrArg Row.words (List.cons.inj h).1
      exact absurd (List.cons.inj hwords).1 hkeyword
  | sum s =>
    cases u with
    | product p =>
      have hwords := congrArg Row.words (List.cons.inj h).1
      exact absurd (List.cons.inj hwords).1 hkeyword.symm
    | sum t => exact congrArg UserType.sum (bare_eq_of_sumRows_eq h)

theorem bare_eq_of_domainRows_eq {d e : Domain} (h : domainRows d = domainRows e) :
    d.bare = e.bare := by
  obtain ⟨hrow, hrows⟩ := List.cons.inj h
  obtain ⟨-, hwords⟩ := List.cons.inj (congrArg Row.words hrow)
  have htag := String.toList_inj.mp (List.cons.inj hwords).1
  have htypes : d.userTypes.map UserType.bare = e.userTypes.map UserType.bare :=
    map_eq_of_flatMap_eq (fun t _ => begins_typeRows _ t) (fun u _ => begins_typeRows _ u)
      (fun _ _ _ _ => bare_eq_of_typeRows_eq) hrows
  rw [UserType.bare] at htypes
  simp only [Domain.bare, Domain.mapOrigins, htypes, htag]

/-! ## What the rows do not tell -/

theorem productRows_bare (depth : Nat) (words : List (List Char)) (p : ProductType) :
    productRows depth words p.bare = productRows depth words p := by
  rw [productRows, ProductType.bare, ProductType.mapOrigins, List.flatMap_map]
  rfl

theorem sumRows_bare (depth : Nat) (s : SumType) : sumRows depth s.bare = sumRows depth s := by
  rw [sumRows, SumType.bare, SumType.mapOrigins, List.flatMap_map]
  exact congrArg _ (List.flatMap_congr fun v _ => productRows_bare _ _ v)

theorem typeRows_bare (depth : Nat) (t : UserType) : typeRows depth t.bare = typeRows depth t :=
  match t with
  | .product p => productRows_bare depth _ p
  | .sum s => sumRows_bare depth s

theorem domainRows_bare (d : Domain) : domainRows d.bare = domainRows d := by
  rw [domainRows, Domain.bare, Domain.mapOrigins, List.flatMap_map]
  exact congrArg _ (List.flatMap_congr fun t _ => typeRows_bare _ t)

end Dump

/-! ## Faithful dumps -/

/-- **A dump tells a domain** up to the origins in it, whatever words its tags and names are. -/
theorem Domain.dump_eq_dump_iff {d e : Domain} (hd : d.Worded) (he : e.Worded) :
    d.dump {} = e.dump {} ↔ d.bare = e.bare := by
  constructor
  · intro h
    have hread : Dump.readRows (Dump.chars (Dump.domainRows d))
        = Dump.readRows (Dump.chars (Dump.domainRows e)) := by
      rw [← Dump.toList_dump, ← Dump.toList_dump, h]
    rw [Dump.readRows_chars (Dump.readable_domainRows hd),
      Dump.readRows_chars (Dump.readable_domainRows he)] at hread
    exact Dump.bare_eq_of_domainRows_eq hread
  · intro h
    apply String.toList_inj.mp
    rw [Dump.toList_dump, Dump.toList_dump, ← Dump.domainRows_bare d, h, Dump.domainRows_bare]

/-- Three domains in words with a meaning of their own: a product marked as removed is told from a
positional one, and where it is declared is not told. -/
theorem Domain.dump_of_keywords :
    let product (encoding : Encoding) (removed : Bool) (origin : Origin) : UserType :=
      .product ⟨"positional", [⟨"[removed]:", ⟨"product", origin⟩, origin⟩], encoding, origin,
        removed⟩
    let removed : Domain := ⟨"domain", [product .keyed true .blank], .blank⟩
    let declared : Domain := ⟨"domain", [product .keyed true (.ofPosition ⟨2, 3, 4⟩)], .blank⟩
    let positional : Domain := ⟨"domain", [product .positional false .blank], .blank⟩
    removed ≠ declared ∧ removed.dump {} = declared.dump {} ∧
      removed.dump {} ≠ positional.dump {} :=
  ⟨by decide, (dump_eq_dump_iff (by decide) (by decide)).mpr (by decide),
    fun h => absurd ((dump_eq_dump_iff (by decide) (by decide)).mp h) (by decide)⟩

end VersionedTypes
