import Pushdown.Dialect.Version
import Pushdown.Dictionary

/-!
# Adapter notes

What is known about the target database: a table of texts under the names that the database's
own metadata uses.
-/

namespace Pushdown

/-- Texts that describe the target database. -/
abbrev Notes := Dictionary String String

namespace Notes

/-- The text under a key, empty if there is none. -/
def text (notes : Notes) (key : String) : String := (notes.get? key).getD ""

/-- Whether the text under a key is a truth value that is true. -/
def flag (notes : Notes) (key : String) : Bool :=
  ((notes.get? key).bind Text.readBool?).getD false

/-- The version of the product, if its text contains one. -/
def version? (notes : Notes) : Option Version := Version.find? (notes.text "databaseProductVersion")

/-- Whether the product is at least of the required version. A product of unknown version
counts as recent enough, and a minimum that is no version is never missed. -/
def atLeast (notes : Notes) (minimum : String) : Bool :=
  match notes.version?, Version.readMinimum? minimum with
  | some version, some minimum => version.atLeast minimum
  | _, _ => true

end Notes

end Pushdown
