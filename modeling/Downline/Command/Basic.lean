import Downline.Command.Grammar

/-!
# The commands

What can be asked of the program, and the grammar of its command line.
-/

namespace Downline

/-- A command. -/
inductive Command where
  /-- Members row by row, as text or as JSON. -/
  | levels (file : String) (json : Bool)
  /-- The hierarchy as a drawing. -/
  | tree (file : String)
  /-- Where a new member would be placed; `binary` overrules the settings. -/
  | place (file sponsor id name rank : String) (binary : Bool)
  /-- The categories of token bundles. -/
  | categories
  /-- One token by its dotted path. -/
  | token (category path : String)
  /-- Write the exports, by default where the settings say. -/
  | writeExports (directory : Option String)
  /-- The settings in effect. -/
  | settings
  /-- Where the settings come from. -/
  | settingsPaths
  /-- Completions for a shell. -/
  | completion (shell : String)
  deriving DecidableEq, Repr

/-- A command line that can be carried out. -/
structure Invocation where
  /-- The project directory, if it is not the current one. -/
  project : Option String
  command : Option Command
  deriving DecidableEq, Repr

namespace Command

/-! ## The grammar -/

/-- Options that every command takes. -/
def sharedOptions : List OptionForm := [
  ⟨"debug", some 'd', .tally, false⟩,
  ⟨"project-dir", some 'C', .path, false⟩,
  ⟨"help", some 'h', .information, false⟩,
  ⟨"version", some 'V', .information, false⟩]

/-- A command without subcommands. -/
def simple (options : List OptionForm) (operands : List Operand) : Grammar :=
  .leaf (sharedOptions ++ options) operands

/-- A command that needs a subcommand. -/
def group (subcommands : List (String × Grammar)) : Grammar :=
  .node sharedOptions [] subcommands false

def fileOperand : Operand := ⟨"file", .path⟩

def organizationGrammar : Grammar := group [
  ("levels", simple [⟨"json", none, .flag, false⟩] [fileOperand]),
  ("tree", simple [] [fileOperand]),
  ("place", simple [
    ⟨"sponsor", none, .text, true⟩,
    ⟨"id", none, .text, true⟩,
    ⟨"name", none, .text, true⟩,
    ⟨"rank", none, .text, false⟩,
    ⟨"binary", none, .flag, false⟩] [fileOperand])]

def tokensGrammar : Grammar := group [
  ("list", simple [] []),
  ("get", simple [] [⟨"category", .text⟩, ⟨"path", .text⟩]),
  ("export", simple [⟨"dist", none, .path, false⟩] [])]

def configGrammar : Grammar := group [("show", simple [] []), ("path", simple [] [])]

/-- The shells that completions can be made for. -/
def shells : List String := ["bash", "elvish", "fish", "powershell", "zsh"]

/-- The grammar of the whole command line, which may do without a command. -/
def grammar : Grammar := .node sharedOptions [] [
  ("org", organizationGrammar),
  ("tokens", tokensGrammar),
  ("config", configGrammar),
  ("completion", simple [] [⟨"shell", .oneOf shells⟩])] true

/-- How the program is called. -/
def usage : String :=
  "usage: downline [options] " ++ " | ".intercalate (grammar.subcommands.map Prod.fst)

/-! ## Reading -/

/-- The command that a command line names; the outer `none` is for lines that the grammar does not
admit. -/
def ofParsed? (p : Parsed) : Option (Option Command) :=
  match p.subcommands with
  | [] => some none
  | ["org", "levels"] => do return some (.levels (← p.value? "file") (p.has "json"))
  | ["org", "tree"] => do return some (.tree (← p.value? "file"))
  | ["org", "place"] => do
    return some (.place (← p.value? "file") (← p.value? "sponsor") (← p.value? "id")
      (← p.value? "name") ((p.value? "rank").getD "") (p.has "binary"))
  | ["tokens", "list"] => some (some .categories)
  | ["tokens", "get"] => do return some (.token (← p.value? "category") (← p.value? "path"))
  | ["tokens", "export"] => some (some (.writeExports (p.value? "dist")))
  | ["config", "show"] => some (some .settings)
  | ["config", "path"] => some (some .settingsPaths)
  | ["completion"] => do return some (.completion (← p.value? "shell"))
  | _ => none

end Command

/-- Reads a command line, the words behind the program's name. -/
def Invocation.ofWords (words : List String) : Except Command.Refusal Invocation :=
  match Command.grammar.read words with
  | .error e => .error e
  | .ok p =>
    match Command.ofParsed? p with
    | none => .error .misuse
    | some command => .ok ⟨p.value? "project-dir", command⟩

end Downline
