import DialectBench.Bench.Store
import DialectBench.Bench.Test
import DialectBench.Value.Printer

/-!
# Code of programs

Programs of the suite are straight-line code over an operator library, which is a parameter: it
says what a call gives.  In the symbolic library a result is the expression it was computed from,
so that equal calls give equal results; the numbering library writes every call down and tells its
result by the number of the call.
-/

namespace DialectBench

/-! ## Operator libraries -/

/-- An operator library, as far as programs can see it. -/
structure Library where
  /-- What a call gives; the library may write the call down. -/
  call : LibraryCall → StateM Log Value
  /-- The member of a name of a value. -/
  member : String → Value → Except Fault Value

mutual

/-- The expression that a value stands for. -/
def Value.term : Value → Term
  | .tensor (.result t) => t
  | .list xs => .node "list" (Value.terms xs)
  | .tuple xs => .node "tuple" (Value.terms xs)
  | .dict es => .node "dict" (Value.entryTerms es)
  | v => .node v.show []

/-- The expressions that values stand for. -/
def Value.terms : List Value → List Term
  | [] => []
  | x :: xs => x.term :: Value.terms xs

/-- The expressions that dictionary entries stand for. -/
def Value.entryTerms : List (Value × Value) → List Term
  | [] => []
  | (k, v) :: es => .node k.show [v.term] :: Value.entryTerms es

end

/-- The expression of the result of a library call. -/
def LibraryCall.term (c : LibraryCall) : Term :=
  .node c.function (Value.terms c.args ++ c.keywords.map fun k => .node k.1 [k.2.term])

namespace Library

/-- The library in which a result is the expression that it was computed from. -/
def symbolic : Library where
  call := fun c log => (.tensor (.result c.term), log)
  member := fun name v =>
    match v with
    | .tensor (.result t) => .ok (.tensor (.result (.node ("." ++ name) [t])))
    | _ => .error .noAttribute

/-- Integers that the numbering library reads off results count from here, by the number of the
    call. -/
def readOffset : Nat := 1000

/-- The library that writes calls down and tells results by the number of the call, which is also
    how it tells an integer that is read off a result. -/
def numbering : Library where
  call := fun c log =>
    match c.function, c.args with
    | "int", [.symbol (.recorded n [])] => (.int (readOffset + n), log.push c)
    | _, _ => (.symbol (.recorded log.size []), log.push c)
  member := fun name v =>
    match v with
    | .symbol (.recorded n path) => .ok (.symbol (.recorded n (path ++ [name])))
    | _ => .error .noAttribute

end Library

/-- Makes a library call.  Adding integers is arithmetic and no call. -/
def LibraryCall.make (lib : Library) (c : LibraryCall) : StateM Log Value :=
  match c.function, c.args with
  | "+", [.int a, .int b] => return .int (a + b)
  | _, _ => lib.call c

/-! ## Code -/

/-- An expression of code. -/
inductive Expr where
  | value (v : Value)
  /-- A parameter, or a variable set before. -/
  | var (name : String)
  /-- A member of the program. -/
  | field (name : String)
  | list (items : List Expr)
  | tuple (items : List Expr)
  | dict (entries : List (String × Expr))
  /-- A member of a value of the library. -/
  | member (e : Expr) (name : String)
  /-- A library call: a dotted name, an operator's sign, or a method of the first argument, whose
      name then starts with a dot. -/
  | call (function : String) (args : List Expr) (keywords : List (String × Expr))
  deriving Repr

/-- A statement of code. -/
inductive Stmt where
  | set (name : String) (e : Expr)
  /-- Sets a member of the program. -/
  | setField (name : String) (e : Expr)
  /-- Evaluates an expression for the calls in it. -/
  | run (e : Expr)
  deriving Repr

/-- The body of a method. -/
structure Code where
  params : List String
  body : List Stmt
  result : Expr
  deriving Repr

/-- The names that code can read, and what it has set. -/
structure Scope where
  vars : List (String × Value)
  fields : List (String × Value)
  /-- The members of the program that were set, in order. -/
  assigned : List (String × Value)

/-- The scope in which variables are known and nothing else. -/
def Scope.ofVars (vars : List (String × Value)) : Scope := ⟨vars, [], []⟩

mutual

/-- The value of an expression.  Parts are evaluated from left to right. -/
def Expr.eval (lib : Library) (scope : Scope) : Expr → Run Log Value
  | .value v => return v
  | .var x =>
    match scope.vars.lookup x with
    | some v => return v
    | none => throw .unbound
  | .field x =>
    match scope.fields.lookup x with
    | some v => return v
    | none => throw .noAttribute
  | .list es => do return .list (← Expr.evalAll lib scope es)
  | .tuple es => do return .tuple (← Expr.evalAll lib scope es)
  | .dict ks => do
    let entries ← Expr.evalKeywords lib scope ks
    return .dict (entries.map fun k => (.str k.1, k.2))
  | .member e name => do
    match lib.member name (← e.eval lib scope) with
    | .ok v => return v
    | .error f => throw f
  | .call f es ks => do
    let args ← Expr.evalAll lib scope es
    let keywords ← Expr.evalKeywords lib scope ks
    (LibraryCall.make lib ⟨f, args, keywords⟩ : StateM Log Value)

/-- The values of expressions. -/
def Expr.evalAll (lib : Library) (scope : Scope) : List Expr → Run Log (List Value)
  | [] => return []
  | e :: es => do
    let v ← e.eval lib scope
    return v :: (← Expr.evalAll lib scope es)

/-- The values of keyword arguments or of entries. -/
def Expr.evalKeywords (lib : Library) (scope : Scope) :
    List (String × Expr) → Run Log (List (String × Value))
  | [] => return []
  | (k, e) :: ks => do
    let v ← e.eval lib scope
    return (k, v) :: (← Expr.evalKeywords lib scope ks)

end

/-- What a statement makes of the names in scope. -/
def Stmt.exec (lib : Library) (scope : Scope) : Stmt → Run Log Scope
  | .set x e => do return { scope with vars := (x, ← e.eval lib scope) :: scope.vars }
  | .setField x e => do
    let v ← e.eval lib scope
    return { scope with fields := (x, v) :: scope.fields, assigned := scope.assigned ++ [(x, v)] }
  | .run e => do
    let _ ← e.eval lib scope
    return scope

/-- What statements make of the names in scope. -/
def Stmt.execAll (lib : Library) : List Stmt → Scope → Run Log Scope
  | [], scope => return scope
  | s :: ss, scope => do Stmt.execAll lib ss (← s.exec lib scope)

/-- What a method does with values: given the values of its module and its arguments it returns a
    value, with the values of the module that it set. -/
abbrev Body := List (String × Value) → List Value → Run Log (Value × List (String × Value))

/-- The body of a method runs on arguments, one for each parameter. -/
def Code.run (lib : Library) (c : Code) : Body := fun fields args => do
  if c.params.length ≠ args.length then throw .wrongType
  let scope ← Stmt.execAll lib c.body ⟨c.params.zip args, fields, []⟩
  return (← c.result.eval lib scope, scope.assigned)

end DialectBench
