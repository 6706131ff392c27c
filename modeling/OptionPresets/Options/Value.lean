/-!
# OptionPresets.Options.Value

The kinds of value that an option can hold besides a plain switch, each with
the lower-case word that stands for it in print. The constructors of a kind go
from the weakest to the strongest effect, and no two of them print alike
(the `text_inj` lemmas), so printed values can be compared in place of the
values themselves.
-/

namespace OptionPresets

/-! ## breadth of a transformation -/

/-- Which definitions may be substituted or removed. -/
inductive Reach where
  | none
  /-- Function-local names. -/
  | localOnly
  /-- Local and global names. -/
  | all
  deriving DecidableEq, Repr

/-- The printed word. -/
def Reach.text : Reach → String
  | .none => "none"
  | .localOnly => "local-only"
  | .all => "all"

theorem Reach.text_inj {a b : Reach} : a.text = b.text ↔ a = b := by
  cases a <;> cases b <;> decide

/-- Which variables may be renamed. -/
inductive VariableRenaming where
  | off
  /-- Function-local variables. -/
  | localOnly
  /-- Local and global variables. -/
  | all
  deriving DecidableEq, Repr

/-- The printed word. -/
def VariableRenaming.text : VariableRenaming → String
  | .off => "off"
  | .localOnly => "local"
  | .all => "all"

theorem VariableRenaming.text_inj {a b : VariableRenaming} : a.text = b.text ↔ a = b := by
  cases a <;> cases b <;> decide

/-- Which object properties may be renamed. -/
inductive PropertyRenaming where
  | off
  /-- Unquoted properties that no external declaration names. -/
  | allUnquoted
  deriving DecidableEq, Repr

/-- The printed word. -/
def PropertyRenaming.text : PropertyRenaming → String
  | .off => "off"
  | .allUnquoted => "all-unquoted"

theorem PropertyRenaming.text_inj {a b : PropertyRenaming} : a.text = b.text ↔ a = b := by
  cases a <;> cases b <;> decide

/-- Which qualified names `a.b.c` may be flattened into one variable. -/
inductive Collapsing where
  | none
  /-- Properties of module export objects. -/
  | moduleExport
  /-- Every name that is safe to flatten. -/
  | all
  deriving DecidableEq, Repr

/-- The printed word. -/
def Collapsing.text : Collapsing → String
  | .none => "none"
  | .moduleExport => "module-export"
  | .all => "all"

theorem Collapsing.text_inj {a b : Collapsing} : a.text = b.text ↔ a = b := by
  cases a <;> cases b <;> decide

/-! ## inputs and checks -/

/-- How the dependency graph of the inputs is used. -/
inductive DependencyMode where
  /-- The inputs stay in the order given. -/
  | none
  /-- The inputs are sorted and all of them are kept. -/
  | sortOnly
  /-- The inputs are sorted, and those that no entry point reaches are dropped. -/
  | prune
  deriving DecidableEq, Repr

/-- The printed word. -/
def DependencyMode.text : DependencyMode → String
  | .none => "none"
  | .sortOnly => "sort-only"
  | .prune => "prune"

theorem DependencyMode.text_inj {a b : DependencyMode} : a.text = b.text ↔ a = b := by
  cases a <;> cases b <;> decide

/-- How the findings of a check are reported. -/
inductive ReportLevel where
  | off
  | warning
  | error
  deriving DecidableEq, Repr

/-- The printed word. -/
def ReportLevel.text : ReportLevel → String
  | .off => "off"
  | .warning => "warning"
  | .error => "error"

theorem ReportLevel.text_inj {a b : ReportLevel} : a.text = b.text ↔ a = b := by
  cases a <;> cases b <;> decide

/-- The groups of findings whose report level can be overridden. -/
inductive WarningGroup where
  /-- Dangerous uses of the global `this` object. -/
  | globalThis
  deriving DecidableEq, Repr

/-- The printed word. -/
def WarningGroup.text : WarningGroup → String
  | .globalThis => "globalThis"

end OptionPresets
