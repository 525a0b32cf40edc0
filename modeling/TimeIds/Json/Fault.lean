/-!
The three ways in which a text fails to be the wanted JSON.
-/
namespace TimeIds.Json

/-- Why a text was refused. -/
inductive Fault
  /-- The text breaks the grammar or a limit of its reader. -/
  | malformed
  /-- The text is well formed so far, but its content is not what is wanted here. -/
  | unfit
  /-- The text ends too early. -/
  | truncated
deriving DecidableEq, Repr

/-- A word for the kind of failure. -/
def Fault.message : Fault → String
  | malformed => "the text is not well formed"
  | unfit => "the content is not what is wanted"
  | truncated => "the text ends too early"

end TimeIds.Json
