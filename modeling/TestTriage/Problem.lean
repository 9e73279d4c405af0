import TestTriage.FileTree
import TestTriage.Go.Diagnosis
import TestTriage.Json.Value
import TestTriage.Toml.Value

/-!
# Problems

Everything that can go wrong in a run.  A problem has a message and may have causes, which are told
one after the other.
-/

namespace TestTriage

/-- Why a settings file cannot be used. -/
inductive SettingsFault where
  | missing
  | unreadable (fault : FileTree.Fault)
  | malformed (error : Toml.Error)
  deriving Repr, DecidableEq

def SettingsFault.message : SettingsFault → String
  | .missing => "config file does not exist"
  | .unreadable fault => fault.message
  | .malformed error => error.message

inductive Problem where
  /-- A line of the feed is no JSON object. -/
  | malformedEvent (line : Nat) (error : Json.Error)
  | unreadableFeed (fault : FileTree.Fault)
  | sourceNotFound (name : String) (root : Path)
  | unwalkableRoot (root : Path) (fault : FileTree.Fault)
  | unreadableSource (path : Path) (fault : FileTree.Fault)
  /-- A source file is not well formed. -/
  | brokenSource (path : Path) (diagnosis : Go.Diagnosis)
  | badSettings (path : Path) (fault : SettingsFault)
  deriving Repr, DecidableEq

namespace Problem

/-- What kept a root from being walked. -/
def walkMessage (root : Path) (fault : FileTree.Fault) : String :=
  "IO error for operation on " ++ root.text ++ ": " ++ fault.message

def message : Problem → String
  | .malformedEvent line error =>
    "malformed test event on line " ++ toString line ++ ": " ++ error.message
  | .unreadableFeed fault => "failed to read test output: " ++ fault.message
  | .sourceNotFound name root => "source file " ++ name ++ " not found under " ++ root.text
  | .unwalkableRoot root fault => "failed to walk " ++ root.text ++ ": " ++ walkMessage root fault
  | .unreadableSource path fault => "failed to read " ++ path.text ++ ": " ++ fault.message
  | .brokenSource path diagnosis =>
    "failed to parse " ++ path.text ++ ":" ++ toString (diagnosis.row + 1) ++ ":"
      ++ toString (diagnosis.column + 1) ++ ": " ++ diagnosis.message
  | .badSettings path fault => "invalid config " ++ path.text ++ ": " ++ fault.message

/-- The causes behind the message, the nearest first. -/
def causes : Problem → List String
  | .malformedEvent _ error => [error.message]
  | .unreadableFeed fault => [fault.message]
  | .unwalkableRoot root fault => [walkMessage root fault, fault.message]
  | .unreadableSource _ fault => [fault.message]
  | .sourceNotFound .. | .brokenSource .. | .badSettings .. => []

end Problem

end TestTriage
