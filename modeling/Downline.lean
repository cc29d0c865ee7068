import Downline.Arena.Placement
import Downline.Files.Store
import Downline.Main
import Downline.Signup.Document
import Downline.Proofs.Arena.Calls
import Downline.Proofs.Arena.Complete
import Downline.Proofs.Arena.Independent
import Downline.Proofs.Arena.Legs
import Downline.Proofs.Arena.Links
import Downline.Proofs.Arena.Preorder
import Downline.Proofs.Arena.Placing
import Downline.Proofs.Arena.Runs
import Downline.Proofs.Organization.Loading
import Downline.Proofs.Organization.Recovery
import Downline.Proofs.Organization.Rows
import Downline.Proofs.Record.Appended
import Downline.Proofs.Record.Flat
import Downline.Proofs.Settings.LocalPaths
import Downline.Proofs.Signup.Completion
import Downline.Proofs.Signup.Passage
import Downline.Proofs.Token.History
import Downline.Proofs.Token.Shadowing
import Downline.Proofs.Settings.Document
import Downline.Proofs.Json.Keyed
import Downline.Proofs.Record.Document
import Downline.Proofs.Token.Lookup
import Downline.Proofs.Arena.Breadth
import Downline.Proofs.Arena.Measures
import Downline.Proofs.Arena.Outcome
import Downline.Proofs.Arena.Branches
import Downline.Proofs.Organization.Drawing
import Downline.Proofs.Arena.Drawing
import Downline.Proofs.Organization.Summary
import Downline.Proofs.Token.Groups
import Downline.Proofs.Token.Braces
import Downline.Proofs.Token.Categories
import Downline.Proofs.Token.Leaves
import Downline.Proofs.Token.Words
import Downline.Proofs.Arena.Traversal
import Downline.Proofs.Token.Payload
import Downline.Proofs.Token.Carried
import Downline.Proofs.Token.Exporting
