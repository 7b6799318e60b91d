/-!
How far user functions are stripped of captured state before they are shipped.
-/
namespace JobConfig

/-- How far the closure cleaner goes. -/
inductive CleanerLevel where
  /-- Functions are shipped as they are. -/
  | disabled
  /-- Only the outermost function is cleaned. -/
  | topLevel
  /-- The function and all it refers to are cleaned. -/
  | recursive
deriving DecidableEq, Hashable, Repr

namespace CleanerLevel

instance : Inhabited CleanerLevel := ⟨recursive⟩

def all : List CleanerLevel := [disabled, topLevel, recursive]

def name : CleanerLevel → String
  | disabled => "none"
  | topLevel => "top_level"
  | recursive => "recursive"

def ofName? (s : String) : Option CleanerLevel :=
  all.find? fun level => level.name = s

@[simp] theorem ofName?_name (level : CleanerLevel) : ofName? level.name = some level := by
  cases level <;> decide

end CleanerLevel

end JobConfig
