import Downline.Signup.Step

/-!
# What can go wrong in the domain

A `Fault` is a cause: which rule of organizations, signups or tokens was broken and by what. Its
wording is in one place, `Fault.message`.
-/

namespace Downline

/-- Why a document is no token bundle. -/
inductive BundleDefect where
  | notAnObject
  /-- Nothing is left besides the schema and the metadata. -/
  | emptyPayload
  deriving DecidableEq, Repr

def BundleDefect.message : BundleDefect → String
  | notAnObject => "must be a JSON object"
  | emptyPayload => "payload is empty"

/-- A broken rule of the domain. -/
inductive Fault where
  /-- There is no root node to flatten. -/
  | rootAbsent
  | emptyOrganization
  | multipleRoots (first second : String)
  | unknownParent (node parent : String)
  | duplicateNode (id : String)
  | cycleDetected (id : String)
  | nodeNotFound (id : String)
  | noBinarySlot (sponsor : String)
  | stepNotReady (step : Signup.Step)
  | bundleNotFound (category path : String)
  | bundleInvalid (category : String) (defect : BundleDefect)
  /-- A dotted path leaves the document at `segment`. -/
  | tokenPath (path segment : String)
  deriving DecidableEq, Repr

/-- The wording of a fault. -/
def Fault.message : Fault → String
  | rootAbsent => "invalid input: root node is absent"
  | emptyOrganization => "organization has no records"
  | multipleRoots first second =>
      "organization has more than one root: " ++ first ++ ", " ++ second
  | unknownParent node parent => "node " ++ node ++ " references unknown parent " ++ parent
  | duplicateNode id => "duplicate node id: " ++ id
  | cycleDetected id => "cycle detected in hierarchy at node: " ++ id
  | nodeNotFound id => "node not found: " ++ id
  | noBinarySlot sponsor => "no free binary slot below sponsor: " ++ sponsor
  | stepNotReady step => "signup step " ++ step.title ++ " is not complete"
  | bundleNotFound category path =>
      "token bundle '" ++ category ++ "' not found at " ++ path
  | bundleInvalid category defect =>
      "token bundle '" ++ category ++ "' is invalid: " ++ defect.message
  | tokenPath path segment =>
      "unable to resolve '" ++ path ++ "' (failed at '" ++ segment ++ "')"

end Downline
