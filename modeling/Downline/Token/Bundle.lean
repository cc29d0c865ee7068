import Downline.Json.Value
import Downline.Fault

/-!
# Token bundles

A bundle is one category of design tokens, such as colours. Its document is an object with an
optional schema, optional metadata and the payload, which is everything else; without payload it is
no bundle.
-/

namespace Downline.Token

open Json

/-- One category of design tokens. -/
structure Bundle where
  category : String
  schema : Option String
  metadata : Entries
  payload : Entries

namespace Bundle

def schemaKey : String := "$schema"

def metadataKey : String := "meta"

/-- What is left of a document without its schema and metadata, in the same order. -/
def payloadOf (document : Entries) : Entries := (document.erase schemaKey).erase metadataKey

/-- The bundle that a document describes. A schema that is no text and metadata that are no object
count as absent; they are not part of the payload either way. -/
def ofValue (category : String) (document : Value) : Except Fault Bundle :=
  match document with
  | .object entries =>
    if (payloadOf entries).isEmpty then .error (.bundleInvalid category .emptyPayload)
    else
      .ok
        { category
          schema := (Entries.get? entries schemaKey).bind Value.text?
          metadata := ((Entries.get? entries metadataKey).map Value.entries).getD []
          payload := payloadOf entries }
  | _ => .error (.bundleInvalid category .notAnObject)

/-- A bundle as its document without schema and metadata. -/
def document (b : Bundle) : Value := .object b.payload

end Bundle

end Downline.Token
