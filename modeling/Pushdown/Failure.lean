import Pushdown.Dialect.Registry
import Pushdown.Request.ReadError
import Pushdown.Sql.Render

/-!
# Failures

Everything that can go wrong on the way from a request to a statement, with its category. A
caller may run the query without the pushdown exactly if the failure is that the dialect lacks
something.
-/

namespace Pushdown

inductive Failure where
  | malformed (error : Malformed)
  | construction (error : ConstructionError)
  | unsupported (error : Unsupported)
  | unknownDialect (error : UnknownDialect)
  | canceled
  | deadlineExceeded
  /-- A request that is answered elsewhere. -/
  | unhandled
  | other (message : String)
  /-- A failure with words in front that say where it occurred. -/
  | within (place : String) (failure : Failure)
deriving Inhabited

namespace Failure

/-- A request that was refused while it was read. -/
def ofRead : ReadError → Failure
  | .malformed e => malformed e
  | .construction e => construction e

def message : Failure → String
  | malformed e => e.message
  | construction e => e.message
  | unsupported e => e.message
  | unknownDialect e => e.message
  | canceled => "context canceled"
  | deadlineExceeded => "context deadline exceeded"
  | unhandled => "request type is not handled by pushql"
  | other message => message
  | within place failure => place ++ ": " ++ failure.message

/-- The category that callers tell failures apart by. -/
def category : Failure → String
  | malformed _ => "malformed_request"
  | construction _ => "ast_construction"
  | unsupported _ => "unsupported_pushdown"
  | unknownDialect _ => "unknown_dialect"
  | canceled | deadlineExceeded => "canceled"
  | unhandled | other _ => "internal"
  | within _ failure => failure.category

/-- Whether the query should be run without the pushdown. -/
def allowsFallback (f : Failure) : Bool := f.category == "unsupported_pushdown"

end Failure

end Pushdown
