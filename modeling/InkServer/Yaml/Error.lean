import InkServer.Number.Integer
import InkServer.Text.Quoted

/-!
# Errors of YAML

Reading a document has stages, and an error is told by the stage that it comes from. A text whose tag calls
for a number, a truth value or a date that it does not hold is an error of its own.
-/

namespace InkServer.Yaml

/-- Why a text has no value of the sort that was asked for. -/
inductive ScalarFault where
  | notBool (text : String)
  | notInt (base : Nat) (text : String)
  | tooLong (digits : Nat)
  | notFloat (text : String)
  /-- There is no such date or time of day. -/
  | noMoment (reason : String)
  deriving DecidableEq, Repr

namespace ScalarFault

def kindName : ScalarFault → String
  | .notBool _ => "KeyError"
  | _ => "ValueError"

def message : ScalarFault → String
  | .notBool text => Text.quoted text
  | .notInt base text => s!"invalid literal for int() with base {base}: " ++ Text.quoted text
  | .tooLong digits => (Integer.Error.tooLong digits).message
  | .notFloat text => "could not convert string to float: " ++ Text.quoted text
  | .noMoment reason => reason

end ScalarFault

/-- At which stage a document turned out to be malformed. -/
inductive Error where
  /-- A character that no document may hold. -/
  | reader
  /-- Text that forms no token. -/
  | scanner
  /-- Tokens that form no node. -/
  | parser
  /-- An alias without an anchor, an anchor given twice, or a second document. -/
  | composer
  /-- A node that has no meaning under its tag. -/
  | constructor
  | scalar (fault : ScalarFault)
  deriving DecidableEq, Repr

/-- The kind of an error, as it is shown. -/
def Error.kindName : Error → String
  | .reader => "ReaderError"
  | .scanner => "ScannerError"
  | .parser => "ParserError"
  | .composer => "ComposerError"
  | .constructor => "ConstructorError"
  | .scalar fault => fault.kindName

/-- What an error says; what it says about the syntax is not kept. -/
def Error.message : Error → String
  | .scalar fault => fault.message
  | e => e.kindName

end InkServer.Yaml
