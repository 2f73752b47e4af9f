import VersionedTypes.Proofs.Dump
import VersionedTypes.Proofs.Lists.Splitting

/-!
# What color adds to a dump

A terminal reads a text as characters and escape sequences. All sequences begin with the same
character; so a text without that character is read as it is, and no sequence is made up of the end
of one piece and the beginning of the next. Color adds sequences to a dump and nothing else, and
every piece that is painted ends its hue itself.

* `Token`, `tokens`, `erase`, `sequences`: a text as a terminal reads it;
* `tokens_paint`, `tokens_body`: pieces and lines are read one by one;
* `Alternates`, `alternates_lineTokens`, `erase_text`: the sequences of a line, and what is left
  without them;
* `IsClear`, `isClear_domainLines`, `isClear_transformLines`: every line has a painted piece, and
  control characters of the strings only;
* `Subject`, `Subject.lines`, `Subject.toList_dump`: what can be dumped, line by line;
* **`Subject.colored_dump`**: colored dumps are plain dumps with sequences in pairs.
-/

namespace VersionedTypes

/-- The sequences that turn on a hue. -/
def Palette.paints (p : Palette) : List String := [p.blue, p.green, p.red, p.dim]

/-- All sequences of the palette. -/
def Palette.sequences (p : Palette) : List String := p.paints ++ [p.reset]

namespace Dump

/-! ## Escape sequences -/

/-- A character, or an escape sequence. -/
inductive Token where
  | char (c : Char)
  | sequence (s : String)
  deriving DecidableEq

namespace Token

/-- The character that is shown, if it is one. -/
def char? : Token → Option Char
  | char c => some c
  | sequence _ => none

/-- The sequence that changes the color, if it is one. -/
def sequence? : Token → Option String
  | char _ => none
  | sequence s => some s

theorem filterMap_char?_map_char (cs : List Char) : (cs.map char).filterMap char? = cs := by
  rw [List.filterMap_map]
  exact List.filterMap_some

theorem filterMap_sequence?_map_char (cs : List Char) : (cs.map char).filterMap sequence? = [] := by
  rw [List.filterMap_map]
  exact List.filterMap_none cs

end Token

/-- The sequence that a text begins with. -/
def leading? (cs : List Char) : Option String :=
  Palette.on.sequences.find? (·.toList.isPrefixOf cs)

/-- A text as it is read behind its first `skip` characters, which belong to a sequence that has
been read. -/
def tokens : Nat → List Char → List Token
  | _, [] => []
  | skip + 1, _ :: cs => tokens skip cs
  | 0, c :: cs =>
    match leading? (c :: cs) with
    -- what is left of the sequence is skipped one by one, which keeps the recursion structural
    | some s => .sequence s :: tokens (s.length - 1) cs
    | none => .char c :: tokens 0 cs

/-- The text without its escape sequences. -/
def erase (cs : List Char) : List Char := (tokens 0 cs).filterMap Token.char?

/-- The escape sequences of the text. -/
def sequences (cs : List Char) : List String := (tokens 0 cs).filterMap Token.sequence?

theorem tokens_sequence {s : String} (hs : s ∈ Palette.on.sequences) (rest : List Char) :
    tokens 0 (s.toList ++ rest) = .sequence s :: tokens 0 rest := by
  simp only [Palette.sequences, Palette.paints, Palette.on, List.cons_append, List.nil_append,
    List.mem_cons, List.not_mem_nil, or_false] at hs
  rcases hs with rfl | rfl | rfl | rfl | rfl <;> rfl

theorem leading?_of_ne {c : Char} (hc : c ≠ '\x1b') (cs : List Char) :
    leading? (c :: cs) = none := by
  refine List.find?_eq_none.mpr fun s hs hprefix => ?_
  have hhead : ∀ s ∈ Palette.on.sequences, s.toList.head? = some '\x1b' := by decide
  obtain ⟨tail, htail⟩ := List.head?_eq_some_iff.mp (hhead s hs)
  rw [htail, List.isPrefixOf_cons_cons, Bool.and_eq_true, beq_iff_eq] at hprefix
  exact hc hprefix.1.symm

theorem tokens_append {front : List Char} (h : '\x1b' ∉ front) (rest : List Char) :
    tokens 0 (front ++ rest) = front.map Token.char ++ tokens 0 rest := by
  induction front with
  | nil => rfl
  | cons c front ih =>
    rw [List.mem_cons, not_or] at h
    rw [List.cons_append, tokens, leading?_of_ne (Ne.symm h.1), ih h.2]
    rfl

/-! ## Painted pieces -/

section Pieces

/-- A painted text as it is read. -/
def pieceTokens (piece : Piece) : List Token :=
  match Palette.on.start? piece.hue with
  | some start =>
    .sequence start :: (piece.text.toList.map Token.char ++ [.sequence Palette.on.reset])
  | none => piece.text.toList.map Token.char

theorem start?_mem_paints {hue : Hue} {start : String} (h : Palette.on.start? hue = some start) :
    start ∈ Palette.on.paints := by
  cases hue with
  | plain => cases h
  | _ =>
    obtain rfl := Option.some.inj h
    simp [Palette.paints]

theorem tokens_paint {piece : Piece} (h : '\x1b' ∉ piece.text.toList) (rest : List Char) :
    tokens 0 ((piece.paint Palette.on).toList ++ rest) = pieceTokens piece ++ tokens 0 rest := by
  rw [Piece.paint, pieceTokens]
  cases hstart : Palette.on.start? piece.hue with
  | none => exact tokens_append h rest
  | some start =>
    have hsequence : start ∈ Palette.on.sequences :=
      List.mem_append_left _ (start?_mem_paints hstart)
    have hreset : Palette.on.reset ∈ Palette.on.sequences :=
      List.mem_append_right _ List.mem_cons_self
    simp only [String.toList_append, List.append_assoc]
    rw [tokens_sequence hsequence, tokens_append h, tokens_sequence hreset]
    simp only [List.cons_append, List.append_assoc, List.nil_append]

theorem filterMap_char?_pieceTokens (piece : Piece) :
    (pieceTokens piece).filterMap Token.char? = (piece.paint Palette.off).toList := by
  rw [Piece.paint_off, pieceTokens]
  cases Palette.on.start? piece.hue with
  | none => exact Token.filterMap_char?_map_char _
  | some start =>
    simp only [List.filterMap_cons, List.filterMap_append, Token.filterMap_char?_map_char,
      List.filterMap_nil, Token.char?, List.append_nil]

theorem filterMap_sequence?_pieceTokens (piece : Piece) :
    (pieceTokens piece).filterMap Token.sequence?
      = (Palette.on.start? piece.hue).elim [] fun start => [start, Palette.on.reset] := by
  rw [pieceTokens]
  cases Palette.on.start? piece.hue with
  | none => exact Token.filterMap_sequence?_map_char _
  | some start =>
    simp only [List.filterMap_cons, List.filterMap_append, Token.filterMap_sequence?_map_char,
      List.filterMap_nil, Token.sequence?, List.nil_append, Option.elim]

end Pieces

/-! ## Painted lines -/

/-- No piece has the character `c`. -/
def Lacks (c : Char) (pieces : List Piece) : Prop := ∀ piece ∈ pieces, c ∉ piece.text.toList

@[simp]
theorem lacks_cons {c : Char} {piece : Piece} {pieces : List Piece} :
    Lacks c (piece :: pieces) ↔ c ∉ piece.text.toList ∧ Lacks c pieces :=
  List.forall_mem_cons

@[simp]
theorem lacks_append {c : Char} {pieces pieces' : List Piece} :
    Lacks c (pieces ++ pieces') ↔ Lacks c pieces ∧ Lacks c pieces' :=
  List.forall_mem_append

@[simp]
theorem lacks_nil (c : Char) : Lacks c [] := fun _ h => absurd h List.not_mem_nil

/-- Sequences in pairs: each one that turns on a hue is followed by one that turns it off. -/
inductive Alternates : List String → Prop
  | nil : Alternates []
  | pair {start : String} {rest : List String} (hstart : start ∈ Palette.on.paints)
      (hrest : Alternates rest) : Alternates (start :: Palette.on.reset :: rest)

section Lines

variable {l : Line}

/-- A line without its end as it is read. -/
def lineTokens (l : Line) : List Token :=
  (List.replicate (2 * l.depth) ' ').map Token.char ++ l.pieces.flatMap pieceTokens

theorem tokens_body (h : Lacks '\x1b' l.pieces) (rest : List Char) :
    tokens 0 (l.body Palette.on ++ rest) = lineTokens l ++ tokens 0 rest := by
  have hpieces : ∀ pieces, Lacks '\x1b' pieces →
      tokens 0 ((pieces.flatMap fun piece => (piece.paint Palette.on).toList) ++ rest)
        = pieces.flatMap pieceTokens ++ tokens 0 rest := by
    intro pieces h
    induction pieces with
    | nil => rfl
    | cons piece pieces ih =>
      obtain ⟨hpiece, hrest⟩ := List.forall_mem_cons.mp h
      rw [List.flatMap_cons, List.append_assoc, tokens_paint hpiece, ih hrest, List.flatMap_cons,
        List.append_assoc]
  have hblanks : '\x1b' ∉ List.replicate (2 * l.depth) ' ' :=
    fun hc => absurd (List.eq_of_mem_replicate hc) (by decide)
  rw [Line.body, List.append_assoc, tokens_append hblanks, hpieces _ h, lineTokens,
    List.append_assoc]

theorem filterMap_char?_lineTokens (l : Line) :
    (lineTokens l).filterMap Token.char? = l.body Palette.off := by
  rw [lineTokens, List.filterMap_append, Token.filterMap_char?_map_char, List.filterMap_flatMap]
  exact congrArg _ (List.flatMap_congr fun piece _ => filterMap_char?_pieceTokens piece)

theorem alternates_lineTokens (l : Line) :
    Alternates ((lineTokens l).filterMap Token.sequence?) := by
  rw [lineTokens, List.filterMap_append, Token.filterMap_sequence?_map_char, List.nil_append]
  induction l.pieces with
  | nil => exact .nil
  | cons piece pieces ih =>
    rw [List.flatMap_cons, List.filterMap_append, filterMap_sequence?_pieceTokens]
    cases hstart : Palette.on.start? piece.hue with
    | none => exact ih
    | some start => exact .pair (start?_mem_paints hstart) ih

theorem filterMap_sequence?_lineTokens_ne_nil (h : ∃ piece ∈ l.pieces, piece.hue ≠ .plain) :
    (lineTokens l).filterMap Token.sequence? ≠ [] := by
  obtain ⟨piece, hpiece, hhue⟩ := h
  obtain ⟨start, hstart⟩ : ∃ start, Palette.on.start? piece.hue = some start := by
    cases hue : piece.hue with
    | plain => exact absurd hue hhue
    | _ => exact ⟨_, rfl⟩
  refine List.ne_nil_of_mem (List.mem_filterMap.mpr ⟨.sequence start, ?_, rfl⟩)
  refine List.mem_append_right _ (List.mem_flatMap.mpr ⟨piece, hpiece, ?_⟩)
  rw [pieceTokens, hstart]
  exact List.mem_cons_self

theorem newline_notMem_body (h : Lacks '\n' l.pieces) : '\n' ∉ l.body Palette.on := by
  have hsequences : ∀ s ∈ Palette.on.sequences, '\n' ∉ s.toList := by decide
  rw [Line.body, List.mem_append, List.mem_flatMap]
  rintro (hc | ⟨piece, hpiece, hc⟩)
  · exact absurd (List.eq_of_mem_replicate hc) (by decide)
  · rw [Piece.paint] at hc
    cases hstart : Palette.on.start? piece.hue with
    | none => exact h piece hpiece (by rwa [hstart] at hc)
    | some start =>
      simp only [hstart, String.toList_append, List.mem_append] at hc
      rcases hc with (hc | hc) | hc
      · exact hsequences _ (List.mem_append_left _ (start?_mem_paints hstart)) hc
      · exact h piece hpiece hc
      · exact hsequences _ (List.mem_append_right _ List.mem_cons_self) hc

end Lines

/-! ## Painted texts -/

section Texts

variable {lines : List Line}

/-- **Without its sequences a painted text is the plain one.** -/
theorem erase_text (h : ∀ l ∈ lines, Lacks '\x1b' l.pieces) :
    erase (text Palette.on lines).toList = (text Palette.off lines).toList := by
  rw [toList_text, toList_text, erase]
  induction lines with
  | nil => rfl
  | cons l lines ih =>
    obtain ⟨hl, hlines⟩ := List.forall_mem_cons.mp h
    have hend : '\x1b' ∉ ['\n'] := by decide
    rw [List.flatMap_cons, List.flatMap_cons, l.toList_text, l.toList_text, List.append_assoc,
      tokens_body hl, tokens_append hend, List.filterMap_append, List.filterMap_append,
      filterMap_char?_lineTokens, Token.filterMap_char?_map_char, ih hlines, List.append_assoc]

example : erase "\x1b[34mv1\x1b[0m [34m\x1b[2m:\x1b[0m".toList = "v1 [34m:".toList := by decide

/-- What the newlines of a painted text separate is its lines. -/
theorem splitOn_text (h : ∀ l ∈ lines, Lacks '\n' l.pieces) :
    (text Palette.on lines).toList.splitOn '\n' = lines.map (Line.body Palette.on) ++ [[]] := by
  have hbodies : ∀ part ∈ lines.map (Line.body Palette.on), '\n' ∉ part := by
    intro part hpart
    obtain ⟨l, hl, rfl⟩ := List.mem_map.mp hpart
    exact newline_notMem_body (h l hl)
  rw [← splitOn_flatMap_concat hbodies, List.flatMap_map, toList_text]
  simp only [Line.toList_text]

theorem sequences_body {l : Line} (h : Lacks '\x1b' l.pieces) :
    sequences (l.body Palette.on) = (lineTokens l).filterMap Token.sequence? := by
  have hread := tokens_body h []
  rw [List.append_nil] at hread
  rw [sequences, hread]
  exact congrArg _ (List.append_nil _)

end Texts

end Dump

/-! ## What is shown of a value -/

/-- The keys and values of the annotations. -/
def Origin.strings (o : Origin) : List String := o.annotations.entries.flatMap fun (k, v) => [k, v]

/-- The strings that are shown of a field. -/
def Field.strings (f : Field) : List String := f.name :: f.type.typeName :: f.origin.strings

/-- The strings that are shown of a product. -/
def ProductType.strings (p : ProductType) : List String :=
  p.tag :: (p.origin.strings ++ p.fields.flatMap Field.strings)

/-- The strings that are shown of a sum. -/
def SumType.strings (s : SumType) : List String :=
  s.tag :: (s.origin.strings ++ s.variants.flatMap ProductType.strings)

/-- The strings that are shown of a declared type. -/
def UserType.strings : UserType → List String
  | .product p => p.strings
  | .sum s => s.strings

/-- The strings that are shown of a domain. -/
def Domain.strings (d : Domain) : List String :=
  d.tag :: (d.origin.strings ++ d.userTypes.flatMap UserType.strings)

/-- The strings that are shown of a transform. -/
def Transform.strings (t : Transform) : List String :=
  t.name :: t.source :: t.destination :: (t.origin.strings ++ t.delta.strings)

/-- The strings of the published domains; no transforms are shown with a universe. -/
def Universe.strings (u : Universe) : List String := u.domains.values.flatMap Domain.strings

namespace Dump

/-! ## Clear lines -/

/-- No piece has the character `c`, and some piece is painted. -/
structure IsClear (c : Char) (l : Line) : Prop where
  lacks : Lacks c l.pieces
  painted : ∃ piece ∈ l.pieces, piece.hue ≠ .plain

section Clear

variable {c : Char} (hc : c = '\x1b' ∨ c = '\n') (o : Options) {depth : Nat}

include hc

theorem notMem_position_text (p : Position) : c ∉ p.text.toList := by
  have hnumber : ∀ n : Nat, c ∉ (toString n).toList := by
    intro n h
    rw [Nat.toString_eq_ofList_toDigits, String.toList_ofList] at h
    have hdigit := Nat.isDigit_of_mem_toDigits (by omega) (by omega) h
    rcases hc with rfl | rfl <;> exact absurd hdigit (by decide)
  rw [Position.text]
  split
  · simp only [String.toList_append, List.mem_append, hnumber, or_false, false_or]
    rcases hc with rfl | rfl <;> decide
  · rcases hc with rfl | rfl <;> decide

theorem lacks_span (origin : Origin) : Lacks c (span o origin) := by
  have hposition := notMem_position_text hc origin.position
  rw [span]
  split
  · rcases hc with rfl | rfl <;> simp [hposition]
  · exact lacks_nil c

theorem lacks_mark (removed : Bool) : Lacks c (mark removed) := by
  rcases hc with rfl | rfl <;> cases removed <;> simp [mark]

theorem lacks_encodingPieces (e : Encoding) : Lacks c (encodingPieces e) := by
  rcases hc with rfl | rfl <;> cases e <;> simp [encodingPieces]

theorem isClear_annotationLines {origin : Origin} (h : ∀ s ∈ origin.strings, c ∉ s.toList) :
    ∀ l ∈ annotationLines o depth origin, IsClear c l := by
  rw [annotationLines]
  split
  · intro l hl
    obtain ⟨⟨k, v⟩, hentry, rfl⟩ := List.mem_map.mp hl
    have hk := h k (List.mem_flatMap.mpr ⟨_, hentry, by simp⟩)
    have hv := h v (List.mem_flatMap.mpr ⟨_, hentry, by simp⟩)
    refine ⟨?_, by simp⟩
    rcases hc with rfl | rfl <;> simp [toString, hk, hv]
  · exact fun _ h => absurd h List.not_mem_nil

theorem isClear_entry {pieces : List Piece} {origin : Origin} (hpieces : Lacks c pieces)
    (hpainted : ∃ piece ∈ pieces, piece.hue ≠ .plain)
    (h : ∀ s ∈ origin.strings, c ∉ s.toList) :
    ∀ l ∈ entry o depth pieces origin, IsClear c l := by
  obtain ⟨piece, hpiece, hhue⟩ := hpainted
  refine List.forall_mem_cons.mpr ⟨⟨lacks_append.mpr ⟨hpieces, lacks_span hc o origin⟩, ?_⟩,
    isClear_annotationLines hc o h⟩
  exact ⟨piece, List.mem_append_left _ hpiece, hhue⟩

theorem isClear_block {α : Type} {xs : List α} {lines : α → List Line} {strings : α → List String}
    {tag : String} {pieces : List Piece} {origin : Origin}
    (hpieces : c ∉ tag.toList → Lacks c pieces) (hpainted : ∃ piece ∈ pieces, piece.hue ≠ .plain)
    (hlines : ∀ x, (∀ s ∈ strings x, c ∉ s.toList) → ∀ l ∈ lines x, IsClear c l)
    (h : ∀ s ∈ tag :: (origin.strings ++ xs.flatMap strings), c ∉ s.toList) :
    ∀ l ∈ entry o depth pieces origin ++ xs.flatMap lines, IsClear c l := by
  obtain ⟨htag, hrest⟩ := List.forall_mem_cons.mp h
  obtain ⟨horigin, hxs⟩ := List.forall_mem_append.mp hrest
  refine List.forall_mem_append.mpr ⟨isClear_entry hc o (hpieces htag) hpainted horigin, ?_⟩
  intro l hl
  obtain ⟨x, hx, hl⟩ := List.mem_flatMap.mp hl
  exact hlines x (fun s hs => hxs s (List.mem_flatMap.mpr ⟨x, hx, hs⟩)) l hl

theorem isClear_fieldLines (f : Field) (h : ∀ s ∈ f.strings, c ∉ s.toList) :
    ∀ l ∈ fieldLines o depth f, IsClear c l := by
  obtain ⟨hname, hrest⟩ := List.forall_mem_cons.mp h
  obtain ⟨htype, horigin⟩ := List.forall_mem_cons.mp hrest
  refine isClear_entry hc o ?_ (by simp) horigin
  rcases hc with rfl | rfl <;> simp [hname, htype]

theorem isClear_productLines {keyword : List Piece} (hkeyword : Lacks c keyword) (p : ProductType)
    (h : ∀ s ∈ p.strings, c ∉ s.toList) : ∀ l ∈ productLines o depth keyword p, IsClear c l := by
  refine isClear_block hc o (fun htag => ?_) ⟨⟨.blue, p.tag⟩, by simp, by simp⟩
    (isClear_fieldLines hc o) h
  simp only [lacks_append, lacks_cons]
  exact ⟨⟨⟨hkeyword, htag, lacks_nil c⟩, lacks_encodingPieces hc _⟩, lacks_mark hc _⟩

theorem isClear_sumLines (s : SumType) (h : ∀ x ∈ s.strings, c ∉ x.toList) :
    ∀ l ∈ sumLines o depth s, IsClear c l := by
  refine isClear_block hc o (fun htag => ?_) (by simp) (isClear_productLines hc o (lacks_nil c)) h
  refine lacks_append.mpr ⟨?_, lacks_mark hc _⟩
  rcases hc with rfl | rfl <;> simp [htag]

theorem isClear_typeLines (t : UserType) (h : ∀ s ∈ t.strings, c ∉ s.toList) :
    ∀ l ∈ typeLines o depth t, IsClear c l := by
  cases t with
  | product p =>
    refine isClear_productLines hc o ?_ p h
    rcases hc with rfl | rfl <;> simp
  | sum s => exact isClear_sumLines hc o s h

theorem isClear_domainLines (d : Domain) (h : ∀ s ∈ d.strings, c ∉ s.toList) :
    ∀ l ∈ domainLines o d, IsClear c l := by
  refine isClear_block hc o (fun htag => ?_) (by simp) (isClear_typeLines hc o) h
  rcases hc with rfl | rfl <;> simp [htag]

theorem isClear_transformLines (t : Transform) (h : ∀ s ∈ t.strings, c ∉ s.toList) :
    ∀ l ∈ transformLines o t, IsClear c l := by
  simp only [Transform.strings, List.forall_mem_cons, List.forall_mem_append] at h
  obtain ⟨hname, hsource, hdestination, horigin, hdelta⟩ := h
  refine List.forall_mem_append.mpr
    ⟨isClear_entry hc o ?_ (by simp) horigin, isClear_domainLines hc o t.delta hdelta⟩
  rcases hc with rfl | rfl <;> simp [hname, hsource, hdestination]

end Clear

/-! ## Colored dumps -/

/-- What can be dumped. -/
inductive Subject where
  | ofDomain (d : Domain)
  | ofTransform (t : Transform)
  | ofUniverse (u : Universe)

namespace Subject

/-- The dump of a domain, a transform or a universe. -/
def dump (o : Options) : Subject → String
  | ofDomain d => d.dump o
  | ofTransform t => t.dump o
  | ofUniverse u => u.dump o

/-- The strings that a dump shows. -/
def strings : Subject → List String
  | ofDomain d => d.strings
  | ofTransform t => t.strings
  | ofUniverse u => u.strings

/-- The empty line between two domains. -/
def gap : Line := ⟨0, []⟩

/-- The lines of a dump. -/
def lines (o : Options) : Subject → List Line
  | ofDomain d => domainLines o d
  | ofTransform t => transformLines o t
  | ofUniverse u => [gap].intercalate (u.domains.values.map (domainLines o))

theorem toList_dump (o : Options) (x : Subject) :
    (x.dump o).toList = (text o.palette (x.lines o)).toList := by
  cases x with
  | ofDomain d => rfl
  | ofTransform t => rfl
  | ofUniverse u =>
    rw [dump, Universe.dump, spaced, lines, String.toList_intercalate, List.map_map]
    cases u.domains.values with
    | nil => rfl
    | cons d ds =>
      rw [List.map_cons, List.map_cons, intercalate_cons, intercalate_cons, toList_text_append,
        List.flatMap_map, List.flatMap_map, toList_text_flatMap]
      refine congrArg _ (List.flatMap_congr fun d _ => ?_)
      rw [toList_text_append]
      rfl

theorem lines_palette (spans annotations : Bool) (p : Palette) (x : Subject) :
    x.lines ⟨spans, annotations, p⟩ = x.lines ⟨spans, annotations, Palette.off⟩ := by
  cases x <;> rfl

theorem isClear_of_mem_lines {c : Char} (hc : c = '\x1b' ∨ c = '\n') {o : Options} {x : Subject}
    (h : ∀ s ∈ x.strings, c ∉ s.toList) : ∀ l ∈ x.lines o, IsClear c l ∨ l = gap := by
  cases x with
  | ofDomain d => exact fun l hl => .inl (isClear_domainLines hc o d h l hl)
  | ofTransform t => exact fun l hl => .inl (isClear_transformLines hc o t h l hl)
  | ofUniverse u =>
    have hdomains : ∀ d ∈ u.domains.values, ∀ l ∈ domainLines o d, IsClear c l := fun d hd =>
      isClear_domainLines hc o d fun s hs => h s (List.mem_flatMap.mpr ⟨d, hd, hs⟩)
    rw [lines]
    cases hvalues : u.domains.values with
    | nil => exact fun _ h => absurd h List.not_mem_nil
    | cons d ds =>
      rw [hvalues] at hdomains
      obtain ⟨hd, hds⟩ := List.forall_mem_cons.mp hdomains
      rw [List.map_cons, intercalate_cons, List.flatMap_map]
      intro l hl
      rcases List.mem_append.mp hl with hl | hl
      · exact .inl (hd l hl)
      · obtain ⟨d', hd', hl⟩ := List.mem_flatMap.mp hl
        exact (List.mem_cons.mp hl).elim .inr fun hl => .inl (hds d' hd' l hl)

theorem lacks_of_mem_lines {c : Char} (hc : c = '\x1b' ∨ c = '\n') {o : Options} {x : Subject}
    (h : ∀ s ∈ x.strings, c ∉ s.toList) : ∀ l ∈ x.lines o, Lacks c l.pieces := fun l hl =>
  (isClear_of_mem_lines hc h l hl).elim IsClear.lacks fun hgap => hgap ▸ lacks_nil c

/-- **Color never changes the text** of a dump whose strings have no escape character: without its
escape sequences it is the plain dump. If the strings have no newlines either then the sequences on
every line come in pairs, and only an empty line has none. -/
theorem colored_dump (spans annotations : Bool) (x : Subject)
    (h : ∀ s ∈ x.strings, '\x1b' ∉ s.toList) :
    erase (x.dump ⟨spans, annotations, Palette.on⟩).toList
        = (x.dump ⟨spans, annotations, Palette.off⟩).toList ∧
      ((∀ s ∈ x.strings, '\n' ∉ s.toList) →
        ∀ line ∈ (x.dump ⟨spans, annotations, Palette.on⟩).toList.splitOn '\n',
          Alternates (sequences line) ∧ (sequences line = [] ↔ line = [])) := by
  have hlacks := lacks_of_mem_lines (.inl rfl) (o := ⟨spans, annotations, Palette.off⟩) h
  rw [toList_dump, toList_dump, lines_palette]
  refine ⟨erase_text hlacks, fun hnewline line hline => ?_⟩
  rw [splitOn_text (lacks_of_mem_lines (.inr rfl) hnewline), List.mem_append, List.mem_map,
    List.mem_singleton] at hline
  have hempty : Alternates (sequences []) ∧ (sequences [] = [] ↔ ([] : List Char) = []) :=
    ⟨.nil, iff_of_true rfl rfl⟩
  rcases hline with ⟨l, hl, rfl⟩ | rfl
  · rcases isClear_of_mem_lines (.inl rfl) h l hl with hclear | rfl
    · have hsequences := sequences_body hclear.lacks
      have hne := filterMap_sequence?_lineTokens_ne_nil hclear.painted
      refine ⟨hsequences ▸ alternates_lineTokens l, fun hnone => ?_, fun hline => hline ▸ rfl⟩
      exact absurd (hsequences.symm.trans hnone) hne
    · exact hempty
  · exact hempty

/-- The dump of a transform whose delta has a mark, with positions and annotations. -/
theorem colored_dump_of_marked :
    let origin : Origin := (Origin.ofPosition ⟨2, 3, 5⟩).annotate "note" "[removed] in v2"
    let point : ProductType :=
      { tag := "point", fields := [⟨"x", ⟨"int", origin⟩, origin⟩], encoding := .positional,
        origin, removed := true }
    let x : Subject := .ofTransform ⟨"up", "v1", "v2", ⟨"v1", [.product point], origin⟩, origin⟩
    erase (x.dump ⟨true, true, Palette.on⟩).toList
        = (x.dump ⟨true, true, Palette.off⟩).toList ∧
      ∀ line ∈ (x.dump ⟨true, true, Palette.on⟩).toList.splitOn '\n',
        Alternates (sequences line) ∧ (sequences line = [] ↔ line = []) :=
  ⟨(colored_dump true true _ (by decide)).1, (colored_dump true true _ (by decide)).2 (by decide)⟩

end Subject

end Dump

end VersionedTypes
