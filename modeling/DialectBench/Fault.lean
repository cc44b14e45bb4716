/-!
# Faults

Why a piece of work stopped.  A fault is a cause; `kind` names the class of cause and `message`
gives its wording.  Some classes have no wording of their own: their `message?` is `none`.
-/

namespace DialectBench

/-- The cause of a failed piece of work. -/
inductive Fault where
  /-- A failure that says in words what went wrong. -/
  | general (message : String)
  /-- A condition that had to hold does not. -/
  | assertion (message : String)
  /-- A look-up of a key that is not there; `shown` is the key as quoted text. -/
  | missingKey (shown : String)
  /-- Something that is recognised and not supported. -/
  | unsupported (message : String)
  /-- A division of floats by zero. -/
  | divisionByZero
  /-- A tensor type that cannot be formed. -/
  | tensorType (message : String)
  /-- A graph that is not in the form that the function builder reads. -/
  | forwardBuilder (message : String)
  /-- A failure of the machine that runs compiled code. -/
  | runtime (message : String)
  /-- An operation on a value of the wrong type. -/
  | wrongType
  /-- A member that an object does not have. -/
  | noAttribute
  /-- A variable that is read before it is set. -/
  | unbound
  /-- A position outside a sequence. -/
  | badIndex
  /-- A file or directory that does not exist. -/
  | noFile
  /-- A failure that a program under test raised itself. -/
  | raised (kind message : String)
  deriving DecidableEq, Repr

/-- The name of the class of a fault. -/
def Fault.kind : Fault → String
  | .general _ => "Exception"
  | .assertion _ => "AssertionError"
  | .missingKey _ => "KeyError"
  | .unsupported _ => "NotImplementedError"
  | .divisionByZero => "ZeroDivisionError"
  | .tensorType _ => "TorchTensorTypeError"
  | .forwardBuilder _ => "_ForwardFunctionBuilderError"
  | .runtime _ => "RuntimeError"
  | .wrongType => "TypeError"
  | .noAttribute => "AttributeError"
  | .unbound => "UnboundLocalError"
  | .badIndex => "IndexError"
  | .noFile => "FileNotFoundError"
  | .raised k _ => k

/-- The wording of a fault, for the classes that have one. -/
def Fault.message? : Fault → Option String
  | .general m | .assertion m | .missingKey m | .unsupported m => some m
  | .tensorType m | .forwardBuilder m | .runtime m | .raised _ m => some m
  | .divisionByZero => some "float division by zero"
  | .wrongType | .noAttribute | .unbound | .badIndex | .noFile => none

/-- One line that names the fault: its kind, then its wording if there is any. -/
def Fault.line (f : Fault) : String :=
  match f.message? with
  | none => f.kind
  | some m => if m.isEmpty then f.kind else f.kind ++ ": " ++ m

/-- The fault that a program raises under a given name; `shown` is the quoted form of `message`. -/
def Fault.ofRaise (kind message shown : String) : Fault :=
  match kind with
  | "Exception" => .general message
  | "AssertionError" => .assertion message
  | "KeyError" => .missingKey shown
  | "NotImplementedError" => .unsupported message
  | "RuntimeError" => .runtime message
  | "TypeError" => .wrongType
  | "AttributeError" => .noAttribute
  | "UnboundLocalError" => .unbound
  | "IndexError" => .badIndex
  | "FileNotFoundError" => .noFile
  | k => .raised k message

end DialectBench
