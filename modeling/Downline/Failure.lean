import Downline.Fault

/-!
# What can go wrong with files

A `Failure` is why an operation on files gives no result: the domain refuses what was read, the
settings make no sense, or an action on a file did not succeed. Its wording is in one place.
-/

namespace Downline

/-- What is wrong with the settings. -/
inductive ConfigFault where
  | unreadable (path : String)
  | malformed (path : String)
  | unknownTreeType (name : String)
  deriving DecidableEq, Repr

def ConfigFault.message : ConfigFault → String
  | unreadable path => "read " ++ path
  | malformed path => "parse " ++ path
  | unknownTreeType name => "unknown tree_type: " ++ name

/-- An action on a file or directory that may fail. -/
inductive FileAction where
  | readOrganization
  | parseTree
  | parseRecords
  | listBundles
  | readBundle
  | parseBundle
  | createExportDirectory
  | writeExport
  deriving DecidableEq, Repr

def FileAction.name : FileAction → String
  | readOrganization => "read organization file"
  | parseTree => "parse organization tree"
  | parseRecords => "parse organization records"
  | listBundles => "list token bundles"
  | readBundle => "read token bundle"
  | parseBundle => "parse token bundle"
  | createExportDirectory => "create export directory"
  | writeExport => "write token export"

/-- Why an operation on files gives no result. -/
inductive Failure where
  | domain (fault : Fault)
  | config (fault : ConfigFault)
  | operation (action : FileAction) (path : String)
  deriving DecidableEq, Repr

/-- The wording of a failure. -/
def Failure.message : Failure → String
  | domain fault => fault.message
  | config fault => "config error: " ++ fault.message
  | operation action path => "operation failed: " ++ action.name ++ ": " ++ path

end Downline
