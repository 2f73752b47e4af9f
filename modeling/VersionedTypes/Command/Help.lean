import VersionedTypes.Command.Arguments

/-!
# Help

* `HelpEntry`, `HelpList`, `HelpPage`: a page of help and its layout;
* `Topic.page`, **`Topic.text`**: the page on a topic.
-/

namespace VersionedTypes.Command

/-- An item of a list, with a remark on it. -/
structure HelpEntry where
  item : String
  remark : String

/-- The entry with its remark behind `width` columns. -/
def HelpEntry.line (width : Nat) (e : HelpEntry) : String :=
  "  " ++ String.ofList (e.item.toList.rightpad width ' ') ++ e.remark

/-- A list of entries under a heading. -/
structure HelpList where
  heading : String
  /-- The width of the first column, if it is not that of its widest item and a gap. -/
  width : Option Nat := none
  entries : List HelpEntry

/-- The width of the first column. -/
def HelpList.columnWidth (l : HelpList) : Nat :=
  l.width.getD ((l.entries.map fun e => e.item.length).foldl max 0 + 2)

/-- A heading with its entries below it. -/
def HelpList.text (l : HelpList) : String :=
  "\n".intercalate (s!"{l.heading}:" :: l.entries.map (HelpEntry.line l.columnWidth))

/-- A page of help. -/
structure HelpPage where
  about : String
  usage : List String
  lists : List HelpList

/-- What the page is about, how it is used and its lists, with empty lines between them. -/
def HelpPage.text (p : HelpPage) : String :=
  let usage := "Usage: " ++ "\n  ".intercalate p.usage
  "\n\n".intercalate (p.about :: usage :: p.lists.map HelpList.text) ++ "\n"

/-! ## Entries -/

/-- The file operand. -/
def fileEntry : HelpEntry := ⟨"<FILE>", "Declarations file (JSON), or - for stdin"⟩

/-- The entry of the switch that every command has. -/
def helpEntry : HelpEntry := ⟨"-h, --help", "Print help"⟩

/-- The parameters of all commands. -/
def commonEntries : List HelpEntry :=
  [⟨"    --source <FILE>", "Universe source the declarations were produced from"⟩,
    ⟨"    --color <WHEN>",
      "Colorize output [default: auto] [possible values: auto, always, never]"⟩,
    ⟨"-v, --verbose...", "Raise log verbosity (repeatable)"⟩, helpEntry]

/-- The parameters of a command that shows something. -/
def viewEntries : List HelpEntry :=
  [⟨"    --json", "Output JSON"⟩, ⟨"    --spans", "Show source positions"⟩,
    ⟨"    --annotations", "Show annotations attached to declarations"⟩]

/-- The line on the page of the program, and the first one on the page of the command. -/
def Name.about : Name → String
  | check => "Resolve a universe and report problems"
  | dump => "Show resolved domains"
  | transform => "Show transform deltas"

/-- What is said about the command that prints help, in the list of commands and on its own page. -/
def helpAbout : String := "Print this message or the help of the given subcommand(s)"

/-! ## Pages -/

/-- How a command is called, without and with its main option. -/
def Name.usage : Name → List String
  | check => ["tyverse check <FILE>", "tyverse check <FILE> --source <FILE>"]
  | dump => ["tyverse dump <FILE>", "tyverse dump <FILE> --domain <TAG>"]
  | transform => ["tyverse transform <FILE>", "tyverse transform <FILE> --name <NAME>"]

/-- The named parameters of a command. -/
def Name.entries : Name → List HelpEntry
  | check => commonEntries
  | dump => ⟨"    --domain <TAG>", "Only show this domain"⟩ :: viewEntries ++ commonEntries
  | transform => ⟨"    --name <NAME>", "Only show this transform"⟩ :: viewEntries ++ commonEntries

/-- Calls of a command, each with what it does. -/
def Name.examples : Name → HelpList
  | check =>
    { heading := "EXAMPLES",
      entries :=
        [⟨"tyverse check universe.json", "# plain diagnostics"⟩,
          ⟨"tyverse check universe.json --source lang.ty", "# with source snippets"⟩,
          ⟨"tyverse check - < universe.json", "# from stdin"⟩] }
  | dump =>
    { heading := "EXAMPLES", width := some 42,
      entries :=
        [⟨"tyverse dump universe.json", "# every domain"⟩,
          ⟨"tyverse dump universe.json --domain v2", "# one domain"⟩,
          ⟨"tyverse dump universe.json --spans", "# with source positions"⟩,
          ⟨"tyverse dump universe.json --json", "# serialized domains"⟩] }
  | transform =>
    { heading := "EXAMPLES", width := some 49,
      entries :=
        [⟨"tyverse transform universe.json", "# every transform"⟩,
          ⟨"tyverse transform universe.json --name upgrade", "# one transform"⟩,
          ⟨"tyverse transform universe.json --json", "# serialized deltas"⟩] }

/-- The help page of a topic. -/
def Topic.page : Topic → HelpPage
  | program =>
    { about := "Versioned type domains, permutations, and transform deltas",
      usage := ["tyverse <COMMAND>"],
      lists :=
        [{ heading := "Commands",
           entries := Name.all.map (fun n => ⟨n.text, n.about⟩) ++ [⟨helpWord, helpAbout⟩] },
          { heading := "Options", entries := [helpEntry] }] }
  | command name =>
    { about := name.about, usage := name.usage,
      lists :=
        [{ heading := "Arguments", entries := [fileEntry] },
          { heading := "Options", entries := name.entries }, name.examples] }
  | help =>
    { about := helpAbout, usage := ["tyverse help [COMMAND]..."],
      lists :=
        [{ heading := "Arguments",
           entries := [⟨"[COMMAND]...", "Print help for the subcommand(s)"⟩] }] }

/-- The text that is printed when help on a topic is asked for. -/
def Topic.text (t : Topic) : String := t.page.text

end VersionedTypes.Command
