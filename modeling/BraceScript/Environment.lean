import BraceScript.Table

/-!
# The environment

A table of settings from text to text that all sessions of a run share. Three settings have a
meaning of their own: the format of the shell's prompt, whether the shell echoes results, and which
code blocks are masked.
-/

namespace BraceScript

/-- Settings by name. -/
structure Environment where
  settings : Table String := []
deriving Repr, Inhabited

namespace Environment

/-- The setting that holds the format of the shell's prompt. -/
def promptFormat : String := "ShellInputHead"

/-- The setting that makes the shell echo results when it is `1`. -/
def echo : String := "PrintResult"

/-- The setting that masks code blocks: `1` for all, or names each followed by a semicolon. -/
def blockMask : String := "MaskCodeblock"

/-- The prompt format where none is set. -/
def defaultPromptFormat : String :=
  "\x7bUsername\x7d@\x7bCurrentDirectoryWithSimplifyIfHome\x7d # "

/-- The value of a setting. -/
def get? (env : Environment) (name : String) : Option String :=
  Table.value? name env.settings

/-- The value of a setting, or `fallback` where it is not set. -/
def getD (env : Environment) (name fallback : String) : String :=
  (env.get? name).getD fallback

/-- Is the setting there? -/
def has (env : Environment) (name : String) : Bool :=
  (env.get? name).isSome

/-- Is the setting exactly `1`? -/
def isEnabled (env : Environment) (name : String) : Bool :=
  env.get? name = some "1"

/-- The environment with a setting. -/
def set (env : Environment) (name value : String) : Environment :=
  ⟨Table.put name value env.settings⟩

/-- The environment without a setting. -/
def unset (env : Environment) (name : String) : Environment :=
  ⟨Table.remove name env.settings⟩

/-- The settings in the order of their names. -/
def sorted (env : Environment) : List (String × String) :=
  Table.sorted env.settings

/-- How many settings there are. -/
def size (env : Environment) : Nat :=
  env.settings.length

end Environment
end BraceScript
