import VirtualModem.Config.Leaf
/-!
# Configuration errors
-/

namespace VirtualModem.Config
set_option autoImplicit false

inductive ReadFailure
  | notFound
  | notPermitted
  | notDirectory
  | isDirectory
  | nameTooLong
  | notUtf8
  | other (reason : String)
  deriving DecidableEq, Repr

def ReadFailure.message : ReadFailure → String
  | .notFound => "No such file or directory (os error 2)"
  | .notPermitted => "Permission denied (os error 13)"
  | .notDirectory => "Not a directory (os error 20)"
  | .isDirectory => "Is a directory (os error 21)"
  | .nameTooLong => "File name too long (os error 36)"
  | .notUtf8 => "stream did not contain valid UTF-8"
  | .other reason => reason

inductive Error
  | unreadable (path : String) (reason : ReadFailure)
  | malformed
  | rootNotObject
  | unsupported (path : String)
  | typeMismatch (path : String) (expected : LeafType)
  deriving DecidableEq, Repr

namespace Error

/-- `detail` is what the reader of JSON says of a text that it does not accept. -/
def message (e : Error) (detail : String) : String :=
  match e with
  | .unreadable path reason => "failed to read " ++ path ++ ": " ++ reason.message
  | .malformed => "invalid JSON: " ++ detail
  | .rootNotObject => "configuration root must be an object"
  | .unsupported path => "unsupported value at " ++ path
  | .typeMismatch path expected => path ++ " is not a " ++ expected.name

/-- The error and what it comes from, outermost first. -/
def causes (e : Error) (detail : String) : List String :=
  match e with
  | .unreadable _ reason => [e.message detail, reason.message]
  | .malformed => [e.message detail, detail]
  | _ => [e.message detail]

def isTypeMismatch : Error → Bool
  | .typeMismatch _ _ => true
  | _ => false

end Error

end VirtualModem.Config
