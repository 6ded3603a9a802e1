import Scriptlet.Text.Basic
/-!
Records of diagnostic logging: a level, a message and named attributes.
-/
namespace Scriptlet

/-- The weight of a record. Named levels are four apart. -/
abbrev Level := Int

namespace Level

def debug : Level := -4

def info : Level := 0

def warn : Level := 4

def error : Level := 8

def nameFrom (base : String) (distance : Int) : Text :=
  if distance = 0 then utf8 base
  else if 0 < distance then utf8 base ++ utf8 "+" ++ Text.ofInt distance
  else utf8 base ++ Text.ofInt distance

def name (level : Level) : Text :=
  if level < info then nameFrom "DEBUG" (level - debug)
  else if level < warn then nameFrom "INFO" (level - info)
  else if level < error then nameFrom "WARN" (level - warn)
  else nameFrom "ERROR" (level - error)

end Level

inductive Attribute where
  | text (value : Text)
  | integer (value : Int)
  deriving DecidableEq, Repr

structure Record where
  level : Level
  message : Text
  attributes : List (Text × Attribute) := []
  deriving DecidableEq, Repr

end Scriptlet
