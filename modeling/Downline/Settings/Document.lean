import Downline.Settings.Basic
import Downline.Toml.Document
import Downline.Toml.Style

/-!
# Settings as TOML

A document specifies a setting by a key of its top table; other keys do not count. Paths and the
prefix are texts. The shape of trees is its name, or a table whose only key is that name and has a
void value.
-/

namespace Downline.Settings

open Toml

/-- The text under a key; the outer `none` means that there is a value which is no text. -/
def textField? (entries : List (String × Value)) (key : String) : Option (Option String) :=
  match Value.find? entries key with
  | none => some none
  | some v => v.text?.map some

/-- The shape that a value names. -/
def treeTypeOf? : Value → Option TreeType
  | .text name => TreeType.ofName? name
  | .table [(name, v)] => if v.isVoid then TreeType.ofName? name else none
  | _ => none

/-- The shape under a key; the outer `none` means that there is a value which names no shape. -/
def treeTypeField? (entries : List (String × Value)) (key : String) : Option (Option TreeType) :=
  match Value.find? entries key with
  | none => some none
  | some v => (treeTypeOf? v).map some

/-- The layer that the entries of a document specify. -/
def Layer.ofEntries? (entries : List (String × Value)) : Option Layer := do
  let tokensDir ← textField? entries "tokens_dir"
  let distDir ← textField? entries "dist_dir"
  let varPrefix ← textField? entries "var_prefix"
  let treeType ← treeTypeField? entries "tree_type"
  return { tokensDir, distDir, varPrefix, treeType }

/-- The layer that a document specifies. -/
def Layer.ofToml? (text : String) : Option Layer := (readDocument? text).bind Layer.ofEntries?

/-- The settings that a document alone specifies. -/
def ofToml? (text : String) : Option Settings := (Layer.ofToml? text).map default.overlay

/-- One line of a document: a key and the text that it has. -/
def line (key value : String) : String := key ++ " = " ++ literal value ++ "\n"

/-- Settings as a document. -/
def toToml (s : Settings) : String :=
  line "tokens_dir" s.tokensDir ++ line "dist_dir" s.distDir ++ line "var_prefix" s.varPrefix ++
    line "tree_type" s.treeType.name

end Downline.Settings
