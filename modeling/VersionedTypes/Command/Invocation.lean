/-!
# Invocations

The program checks declarations, dumps the domains that they declare, or shows the transforms.

* `Color`, `View`: how results are shown;
* `Task`: what is asked for; `Name`: the word for it;
* **`Invocation`**: a task, the inputs that it is for, and how it is reported.
-/

namespace VersionedTypes.Command

/-- When output has colors. -/
inductive Color where
  /-- On a terminal only. -/
  | auto
  | always
  | never
  deriving DecidableEq, Repr

namespace Color

/-- All choices. -/
def all : List Color := [auto, always, never]

/-- The word for a choice. -/
def text : Color → String
  | auto => "auto"
  | always => "always"
  | never => "never"

/-- The choice with the given word. -/
def ofText? (text : String) : Option Color := all.find? (·.text == text)

/-- Output has colors; `terminal` says whether it goes to a terminal. -/
def isOn (terminal : Bool) : Color → Bool
  | auto => terminal
  | always => true
  | never => false

end Color

/-- The words for the commands. -/
inductive Name where
  | check
  | dump
  | transform
  deriving DecidableEq, Repr

namespace Name

/-- All commands. -/
def all : List Name := [check, dump, transform]

/-- The word of a command. -/
def text : Name → String
  | check => "check"
  | dump => "dump"
  | transform => "transform"

/-- The command with the given word. -/
def ofText? (text : String) : Option Name := all.find? (·.text == text)

end Name

/-- How domains and transforms are shown. -/
structure View where
  /-- As JSON, and not as a dump. -/
  json : Bool := false
  spans : Bool := false
  annotations : Bool := false
  deriving DecidableEq, Repr

/-- What is asked for. -/
inductive Task where
  /-- The mistakes in the declarations. -/
  | check
  /-- One domain, or all of them. -/
  | dump (domain : Option String) (view : View)
  /-- One transform, or all of them. -/
  | transform (name : Option String) (view : View)
  deriving DecidableEq, Repr

/-- The command that a task belongs to. -/
def Task.name : Task → Name
  | check => .check
  | dump _ _ => .dump
  | transform _ _ => .transform

/-- A task with its inputs. -/
structure Invocation where
  task : Task
  /-- The file that holds the declarations. -/
  file : String
  /-- The file that holds the source of the declarations. -/
  source : Option String := none
  color : Color := .auto
  /-- How often more messages were asked for. -/
  verbosity : Nat := 0
  deriving DecidableEq, Repr

end VersionedTypes.Command
