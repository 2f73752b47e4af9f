import VersionedTypes.Diagnostic
import VersionedTypes.Snippet

/-!
# Reports

Diagnostics are reported one below the other: as lines with the location in front, or as snippets
where the source is at hand. Also then a diagnostic that the source has no place for is a line.

* `Report.Settings`; `ByteRange.widen`, `Diagnostic.shownRange`;
* `Diagnostic.plainLine`, `Diagnostic.snippet`;
* **`Report.render`**.
-/

namespace VersionedTypes

/-- How diagnostics are reported. -/
structure Report.Settings where
  source : Option String := none
  /-- The name of the source. -/
  path : Option String := none
  /-- Snippets have colors. -/
  colored : Bool := false
  deriving DecidableEq

/-- A range ends within a character, so that no snippet can show it. -/
structure CutCharacter where
  range : ByteRange
  deriving DecidableEq

/-- An empty range is widened by a byte, unless `limit` is reached. -/
def ByteRange.widen (limit : Nat) (r : ByteRange) : ByteRange :=
  if r.start = r.stop then ⟨r.start, min (r.start + 1) limit⟩ else r

namespace Diagnostic

/-- The range of `source` that a snippet shows, if the source has a place for the diagnostic. -/
def shownRange (d : Diagnostic) (source : List Char) : Option ByteRange :=
  (d.origin.position.byteRange source).map (ByteRange.widen (utf8Size source))

/-- The diagnostic on a line, behind the name of the source. -/
def plainLine (path : Option String) (d : Diagnostic) : String :=
  match path with
  | some path => s!"{path}:{d.display}\n"
  | none => d.display ++ "\n"

/-- The diagnostic as a snippet of `source`. -/
def snippet (colored : Bool) (path : Option String) (source : List Char) (d : Diagnostic) :
    Except CutCharacter String :=
  match d.shownRange source with
  | none => .ok s!"error: {d.display}\n"
  | some range =>
    if isBoundary range.stop source then
      .ok ((Snippet.ofRange d.message path source range).render colored ++ "\n")
    else .error ⟨range⟩

end Diagnostic

/-- The report on diagnostics. -/
def Report.render (settings : Report.Settings) (ds : List Diagnostic) :
    Except CutCharacter String :=
  match settings.source with
  | none => .ok (String.join (ds.map (Diagnostic.plainLine settings.path)))
  | some source =>
    (ds.mapM (Diagnostic.snippet settings.colored settings.path source.toList)).map String.join

end VersionedTypes
