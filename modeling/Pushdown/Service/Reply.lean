import Pushdown.Json.Text
import Pushdown.Request.Request

/-!
# Replies

The document with which a request is answered. Its members always come in the same order, and
those without content are left out.
-/

namespace Pushdown

structure Reply where
  type : RequestType
  sql : String := ""
  dialect : String := ""
  capabilities : List String := []
deriving DecidableEq, Inhabited

namespace Reply

/-- A member of the document, unless its text is empty. -/
def textMember (name text : String) : List String :=
  if text = "" then [] else [Json.writeString name ++ ":" ++ Json.writeString text]

/-- A member that is a list of texts, unless it is empty. -/
def listMember (name : String) (texts : List String) : List String :=
  if texts.isEmpty then []
  else [Json.writeString name ++ ":[" ++ ",".intercalate (texts.map Json.writeString) ++ "]"]

/-- The text of the document. -/
def write (r : Reply) : String :=
  let type := Json.writeString "type" ++ ":" ++ Json.writeString r.type.name
  let members := type :: (textMember "sql" r.sql ++ textMember "dialect" r.dialect ++
    listMember "capabilities" r.capabilities)
  "\x7b" ++ ",".intercalate members ++ "\x7d"

end Reply

end Pushdown
