import Mathlib.Data.List.Basic
import VersionedTypes.Json.Format

/-!
# What a format lets through

A text can say the same in many ways, but all that a format reads goes through its parts. If these
let through only what has some property, so does the format. What is known of a record is an
invariant of its draft: each column keeps it, whatever the order of the members.

* `Gives`: a property of all results of a computation that can fail;
* `Yields`, `Yields.bind`: the same for readers;
* `yields_readItems`, `yields_readMembers`: the inside of brackets;
* `Format.Ensures`: the same for formats, in a text and in a JSON value;
* `Format.ensures_list`, `Format.ensures_record`, **`Format.ensures_tagged`**;
* **`Format.Ensures.parse`**: whole texts.
-/

namespace VersionedTypes

/-! ## Computations that can fail -/

section Gives

variable {α β σ ε : Type} {P : α → Prop} {Q : β → Prop} {I : σ → Prop}

/-- Every result of the computation has the property. -/
def Gives (x : Except ε α) (P : α → Prop) : Prop := ∀ a, x = .ok a → P a

theorem gives_ok {a : α} (h : P a) : Gives (.ok a : Except ε α) P := by
  rintro _ ⟨⟩
  exact h

theorem gives_error (e : ε) : Gives (.error e : Except ε α) P := nofun

theorem gives_any (x : Except ε α) : Gives x fun _ => True := fun _ _ => trivial

theorem Gives.bind {x : Except ε α} {f : α → Except ε β} (h : Gives x P)
    (hf : ∀ a, P a → Gives (f a) Q) : Gives (x >>= f) Q := by
  cases x with
  | error e => exact gives_error e
  | ok a => exact hf a (h a rfl)

theorem Gives.map {x : Except ε α} {f : α → β} (h : Gives x fun a => Q (f a)) :
    Gives (x.map f) Q := by
  cases x with
  | error e => exact gives_error e
  | ok a => exact gives_ok (h a rfl)

theorem gives_mapM {f : α → Except ε β} (h : ∀ a, Gives (f a) Q) (xs : List α) :
    Gives (xs.mapM f) fun ys => ∀ y ∈ ys, Q y := by
  induction xs with
  | nil => exact gives_ok nofun
  | cons x xs ih =>
    rw [List.mapM_cons]
    exact (h x).bind fun y hy => ih.bind fun ys hys => gives_ok (List.forall_mem_cons.mpr ⟨hy, hys⟩)

theorem gives_foldlM {f : σ → α → Except ε σ} {s : σ} (hs : I s)
    (h : ∀ s a, I s → Gives (f s a) I) (xs : List α) : Gives (xs.foldlM f s) I := by
  induction xs generalizing s with
  | nil => exact gives_ok hs
  | cons x xs ih =>
    rw [List.foldlM_cons]
    exact (h s x hs).bind fun s' hs' => ih hs'

end Gives

/-! ## Readers -/

namespace Json.Reader

variable {α β σ : Type} {P : α → Prop} {Q : β → Prop} {I : σ → Prop} {r : Reader α}

/-- Whatever the reader gives has the property, wherever it stands. -/
def Yields (r : Reader α) (P : α → Prop) : Prop := ∀ c, Gives (r c) fun result => P result.1

theorem yields_pure {a : α} (h : P a) : Yields (pure a) P := fun _ => gives_ok h

theorem yields_fail (p : Problem) : Yields (fail p) P := fun _ => gives_error _

theorem yields_failNext (p : Problem) : Yields (failNext p) P := fun _ => gives_error _

theorem yields_failUnplaced (p : Problem) : Yields (failUnplaced p) P := fun _ => gives_error _

theorem Yields.bind {f : α → Reader β} (h : Yields r P) (hf : ∀ a, P a → Yields (f a) Q) :
    Yields (r >>= f) Q := by
  intro c
  change Gives (r c >>= fun result => f result.1 result.2) _
  exact (h c).bind fun result hresult => hf result.1 hresult result.2

theorem yields_bind {f : α → Reader β} (hf : ∀ a, Yields (f a) Q) : Yields (r >>= f) Q :=
  Yields.bind (P := fun _ => True) (fun _ => gives_any _) fun a _ => hf a

theorem Yields.map {f : α → β} (h : Yields r fun a => Q (f a)) : Yields (f <$> r) Q :=
  h.bind fun _ ha => yields_pure ha

theorem yields_ofExcept {x : Except Problem α} (h : Gives x P) : Yields (ofExcept x) P := by
  cases x with
  | error p => exact yields_failUnplaced p
  | ok a => exact yields_pure (h a rfl)

theorem yields_unexpected (expected : String) : Yields (unexpected expected) P := by
  refine yields_bind fun next => ?_
  split
  · exact yields_fail _
  · exact yields_fail _
  · exact yields_bind fun _ => yields_fail _

theorem Yields.enclosed (h : Yields r P) (ending : Reader Unit) :
    Yields (enclosed r ending) P := by
  intro c
  have hc := h c
  unfold Reader.enclosed
  generalize r c = result at hc
  -- a failure is a failure still, whatever place it gets
  rcases result with ⟨p, _ | place, c'⟩ | ⟨a, c'⟩
  · exact gives_error _
  · exact gives_error _
  · exact .map fun _ _ => hc (a, c') rfl

theorem yields_nested {inside : Nat → Reader α} (h : ∀ depth, Yields (inside depth) P)
    (depth : Nat) : Yields (nested inside depth) P := by
  cases depth with
  | zero => exact yields_failNext _
  | succ depth => exact yields_bind fun _ => h depth

theorem yields_itemsFrom (h : Yields r P) (fuel : Nat) (first : Bool) :
    Yields (itemsFrom r fuel first) fun xs => ∀ x ∈ xs, P x := by
  induction fuel generalizing first with
  | zero => exact yields_fail _
  | succ fuel ih =>
    refine yields_bind fun more => ?_
    split
    · exact h.bind fun x hx => (ih false).bind fun xs hxs =>
        yields_pure (List.forall_mem_cons.mpr ⟨hx, hxs⟩)
    · exact yields_pure nofun

theorem yields_readItems (h : Yields r P) (first : Bool) :
    Yields (readItems r first) fun xs => ∀ x ∈ xs, P x :=
  yields_bind fun _ => yields_itemsFrom h _ first

/-- **What every member keeps**, all members keep. -/
theorem yields_membersFrom {member : String → σ → Reader σ}
    (h : ∀ key s, I s → Yields (member key s) I) (fuel : Nat) (first : Bool) {s : σ} (hs : I s) :
    Yields (membersFrom member fuel first s) I := by
  induction fuel generalizing first s with
  | zero => exact yields_fail _
  | succ fuel ih =>
    refine yields_bind fun more => ?_
    split
    · exact yields_bind fun key => (h key s hs).bind fun s' hs' => ih false hs'
    · exact yields_pure hs

theorem yields_readMembers {member : String → σ → Reader σ}
    (h : ∀ key s, I s → Yields (member key s) I) {s : σ} (hs : I s) :
    Yields (readMembers member s) I :=
  yields_bind fun _ => yields_membersFrom h _ true hs

end Json.Reader

/-! ## Formats -/

namespace Format

open Json Json.Reader

variable {α β σ : Type} {P : α → Prop} {Q : β → Prop} {I : σ → Prop} {format item : Format α}

/-- All that is read with the format has the property, straight from a text or from a JSON value. -/
structure Ensures (format : Format α) (P : α → Prop) : Prop where
  read : ∀ depth, Yields (format.read depth) P
  ofJson : ∀ v, Gives (format.ofJson v) P

theorem ensures_any (format : Format α) : format.Ensures fun _ => True :=
  ⟨fun _ _ => gives_any _, fun _ => gives_any _⟩

theorem ensures_list (h : item.Ensures P) : (list item).Ensures fun xs => ∀ x ∈ xs, P x where
  read depth := by
    refine yields_bind fun next => ?_
    split
    · exact yields_nested (fun d => .enclosed (yields_readItems (h.read d) true) endOfList) depth
    · exact yields_unexpected _
  ofJson v := by
    cases v with
    | array items => exact gives_mapM h.ofJson items
    | _ => exact gives_error _

/-! ### Records -/

/-- The column keeps an invariant of the draft. -/
structure Column.Keeps (c : Column σ) (I : σ → Prop) : Prop where
  read : ∀ depth s, I s → Yields (c.read depth s) I
  ofJson : ∀ v s, I s → Gives (c.ofJson v s) I

theorem keeps_any (c : Column σ) : c.Keeps fun _ => True :=
  ⟨fun _ _ _ _ => gives_any _, fun _ _ _ => gives_any _⟩

section Column

variable {name : String} {required : Bool} {get : σ → Option α} {set : σ → α → σ}

theorem Ensures.keeps (h : format.Ensures P) (hset : ∀ s a, I s → P a → I (set s a)) :
    (columnOf name required format get set).Keeps I where
  read depth s hs := .map fun c a ha => hset s a.1 hs (h.read depth c a ha)
  ofJson v s hs := .map fun a ha => hset s a hs (h.ofJson v a ha)

theorem keeps_of_set (hset : ∀ s a, I s → I (set s a)) :
    (columnOf name required format get set).Keeps I :=
  (ensures_any format).keeps fun s a hs _ => hset s a hs

end Column

section Record

variable {columns : List (Column σ)} {s blank : σ} {finish : σ → Except Problem α}

theorem yields_readColumns (hcolumns : ∀ c ∈ columns, c.Keeps I) (tooShort : Nat → Problem)
    (depth i : Nat) (hs : I s) : Yields (readColumns tooShort depth i columns s) I := by
  induction columns generalizing i s with
  | nil => exact yields_pure hs
  | cons c cs ih =>
    obtain ⟨hc, hcs⟩ := List.forall_mem_cons.mp hcolumns
    refine yields_bind fun more => ?_
    split
    · exact (hc.read depth s hs).bind fun s' hs' => ih hcs _ hs'
    · split
      · exact yields_failUnplaced _
      · exact ih hcs _ hs

theorem gives_takeColumns (hcolumns : ∀ c ∈ columns, c.Keeps I) (tooShort : Nat → Problem)
    (i : Nat) (items : List Json) (hs : I s) :
    Gives (takeColumns tooShort i columns items s) fun result => I result.1 := by
  induction columns generalizing i items s with
  | nil => exact gives_ok hs
  | cons c cs ih =>
    obtain ⟨hc, hcs⟩ := List.forall_mem_cons.mp hcolumns
    cases items with
    | nil =>
      rw [takeColumns]
      split
      · exact gives_error _
      · exact ih hcs _ _ hs
    | cons v items =>
      rw [takeColumns]
      split
      · next s' hv => exact ih hcs _ _ (hc.ofJson v s hs s' hv)
      · exact gives_error _

theorem yields_readMember (hcolumns : ∀ c ∈ columns, c.Keeps I) (depth : Nat) (key : String)
    (s : σ) (hs : I s) : Yields (readMember columns depth key s) I := by
  unfold readMember
  split
  · next c hc =>
    split
    · exact yields_failUnplaced _
    · exact yields_bind fun _ => (hcolumns c (List.mem_of_find?_eq_some hc)).read depth s hs
  · exact yields_bind fun _ => yields_bind fun _ => yields_pure hs

theorem gives_takeMember (hcolumns : ∀ c ∈ columns, c.Keeps I) (s : σ) (member : String × Json)
    (hs : I s) : Gives (takeMember columns s member) I := by
  unfold takeMember
  split
  · next c hc =>
    split
    · exact gives_error _
    · exact (hcolumns c (List.mem_of_find?_eq_some hc)).ofJson member.2 s hs
  · exact gives_ok hs

/-- **A record lets through what its invariant leads to**, in whatever form it is written. -/
theorem ensures_record (hblank : I blank) (hcolumns : columns.Forall fun c => c.Keeps I)
    (hfinish : ∀ s, I s → Gives (finish s) P) {title : String} :
    (record title columns blank finish).Ensures P := by
  rw [List.forall_iff_forall_mem] at hcolumns
  refine ⟨fun depth => ?_, fun v => ?_⟩
  · refine yields_bind fun next => ?_
    split
    · refine yields_nested (fun d => .enclosed ?_ endOfList) depth
      exact (yields_readColumns hcolumns _ d 0 hblank).bind fun s hs =>
        yields_ofExcept (hfinish s hs)
    · refine yields_nested (fun d => .enclosed ?_ endOfObject) depth
      exact (yields_readMembers (yields_readMember hcolumns d) hblank).bind fun s hs =>
        yields_ofExcept (hfinish s hs)
    · exact yields_unexpected _
  · cases v with
    | array items =>
      refine (gives_takeColumns hcolumns _ 0 items hblank).bind fun result hresult => ?_
      refine (hfinish result.1 hresult).bind fun a ha => ?_
      split
      · exact gives_ok ha
      · exact gives_error _
    | object members =>
      exact (gives_foldlM hblank (gives_takeMember hcolumns) members).bind hfinish
    | _ => exact gives_error _

end Record

/-! ### Tagged values -/

section Tagged

variable {options : List (String × α)}

theorem yields_readScalar {convert : Json → Except Problem α} (h : ∀ v, Gives (convert v) P) :
    Yields (readScalar convert) P := by
  have hplaced : ∀ v, Yields (placed (convert v)) P := by
    intro v
    have hv := h v
    cases hconvert : convert v with
    | error p => exact yields_fail p
    | ok a => exact yields_pure (hv a hconvert)
  refine yields_bind fun next => ?_
  split
  · exact hplaced _
  · exact hplaced _
  · exact yields_bind fun v => hplaced v

theorem gives_optionNamed (h : ∀ o ∈ options, P o.2) (name : String) :
    Gives (optionNamed options name) P := by
  unfold optionNamed
  split
  · next o ho => exact gives_ok (h o (List.mem_of_find?_eq_some ho))
  · exact gives_error _

theorem gives_optionOfName (h : ∀ o ∈ options, P o.2) (v : Json) :
    Gives (optionOfName options v) P := by
  cases v with
  | string name => exact gives_optionNamed h name
  | _ => exact gives_error _

theorem gives_optionOfJson (h : ∀ o ∈ options, P o.2) (v : Json) :
    Gives (optionOfJson options v) P := by
  unfold optionOfJson
  split
  · exact gives_optionNamed h _
  · split
    · exact gives_error _
    · split
      · next o ho => exact gives_ok (h o (List.mem_of_getElem? ho))
      · exact gives_error _
  · exact gives_error _

/-- The kind that was found, if any, has the property. -/
def KindHas (P : α → Prop) (s : Option α × List (String × Json)) : Prop := ∀ a ∈ s.1, P a

theorem yields_readTagged (h : ∀ o ∈ options, P o.2) (depth : Nat) (key : String)
    (s : Option α × List (String × Json)) (hs : KindHas P s) :
    Yields (readTagged options depth key s) (KindHas P) := by
  unfold readTagged
  split
  · split
    · exact yields_failUnplaced _
    · refine yields_bind fun _ => ?_
      refine (yields_readScalar (gives_optionOfName h)).bind fun a ha => yields_pure ?_
      rintro _ ⟨⟩
      exact ha
  · exact yields_bind fun rest => yields_pure hs

theorem gives_splitKind (h : ∀ o ∈ options, P o.2) {kind : Option α} (hkind : ∀ a ∈ kind, P a)
    (rest members : List (String × Json)) :
    Gives (splitKind options kind rest members) (KindHas P) := by
  induction members generalizing kind rest with
  | nil => exact gives_ok hkind
  | cons m members ih =>
    unfold splitKind
    split
    · split
      · exact gives_error _
      · split
        · next a ha =>
          refine ih ?_ rest
          rintro _ ⟨⟩
          exact gives_optionOfJson h _ a ha
        · exact gives_error _
    · exact ih hkind _

end Tagged

/-- All that the form takes of a JSON value has the property. -/
def FormEnsures (P : α → Prop) (form : Json → Except Problem α) : Prop := ∀ v, Gives (form v) P

/-- **A tagged value is what the form of its kind lets through**, wherever the kind stands. -/
theorem ensures_tagged {options : List (String × (Json → Except Problem α))}
    (h : options.Forall fun o => FormEnsures P o.2) {title : String} :
    (tagged title options).Ensures P := by
  rw [List.forall_iff_forall_mem] at h
  have hnone : KindHas (FormEnsures P) (none, []) := nofun
  refine ⟨fun depth => ?_, fun v => ?_⟩
  · -- behind the brackets the form is known and has the property
    have hform : ∀ inside : Nat → Reader ((Json → Except Problem α) × Json),
        (∀ d, Yields (inside d) fun result => FormEnsures P result.1) →
          Yields (nested inside depth >>= fun result => ofExcept (result.1 result.2)) P :=
      fun inside hinside => (yields_nested hinside depth).bind fun result hresult =>
        yields_ofExcept (hresult result.2)
    refine yields_bind fun next => ?_
    split
    · refine hform _ fun d => .enclosed (yields_bind fun more => ?_) endOfList
      split
      · refine (yields_readScalar (gives_optionOfName h)).bind fun form hform => ?_
        exact yields_bind fun items => yields_pure hform
      · exact yields_failUnplaced _
    · refine hform _ fun d => .enclosed ?_ endOfObject
      refine (yields_readMembers (yields_readTagged h d) hnone).bind fun result hresult => ?_
      split
      · next form members => exact yields_pure (hresult form rfl)
      · exact yields_failUnplaced _
    · exact yields_unexpected _
  · cases v with
    | array items =>
      cases items with
      | nil => exact gives_error _
      | cons kind rest =>
        exact Gives.bind (gives_optionOfJson h kind) fun form hform => hform (.array rest)
    | object members =>
      refine Gives.bind (gives_splitKind h hnone [] members) fun result hresult => ?_
      split
      · next form rest => exact hresult form rfl (.object rest)
      · exact gives_error _
    | _ => exact gives_error _

/-- **What a text stands for** is what the format lets through. -/
theorem Ensures.parse (h : format.Ensures P) (text : String) : Gives (format.parse text) P := by
  have hall : Yields format.readAll P := by
    refine (h.read maxDepth).bind fun a ha => yields_bind fun next => ?_
    split
    · exact yields_pure ha
    · exact yields_failNext _
  intro a ha
  unfold Format.parse at ha
  split at ha
  · next hread =>
    cases ha
    exact hall _ _ hread
  · cases ha

end Format

end VersionedTypes
