import DialectBench.Bench.Code
import DialectBench.Table

/-!
# Modules

A program is a tree of modules.  A module has members of its own, which are methods and values in
order, methods of its class, and child modules.  Looking up a name tries them in this order.
-/

namespace DialectBench

/-- What a method does when it is called. -/
inductive Behaviour where
  /-- Returns a fresh copy of a value. -/
  | const (v : Value)
  /-- Returns the tuple of positional arguments. -/
  | echo
  /-- Returns the first argument. -/
  | first
  /-- Returns the number of arguments. -/
  | arity
  /-- Returns the keyword arguments. -/
  | keywords
  /-- Returns how often the method was called. -/
  | counter
  /-- Appends a value to its first argument, which has to be a list, and returns that list. -/
  | append (v : Value)
  | raise (f : Fault)
  /-- Does anything else with the values of its module and its arguments. -/
  | body (run : Body)

/-- A method. -/
structure Method where
  behaviour : Behaviour
  /-- The mark that the method is exported. -/
  exportMark : Option Value
  /-- What is known of the arguments. -/
  argTypes : Option Value
  /-- Whether the method was compiled by the scripting front end. -/
  isScripted : Bool
  /-- How often the method was called. -/
  calls : Nat

/-- A method as it is defined.  A scripted method is a wrapper without the marks of what it
    wraps. -/
def Method.define (behaviour : Behaviour) (exportMark argTypes : Option Value)
    (isScripted : Bool) : Method :=
  if isScripted then ⟨behaviour, none, none, true, 0⟩
  else ⟨behaviour, exportMark, argTypes, false, 0⟩

/-- A member of a module. -/
inductive Member where
  | method (m : Method)
  | value (v : Value)

/-- The value that a member is. -/
def Member.value? : Member → Option Value
  | .method _ => none
  | .value v => some v

/-- A module. -/
structure Module where
  className : String
  /-- The members of the instance, in order. -/
  members : Table String Member
  /-- The methods of the class. -/
  classMethods : Table String Method
  children : List (String × Module)
  /-- The name of the class that a scripted module was made from. -/
  sourceName : String
  /-- Whether the module is itself a scripted one. -/
  isScripted : Bool

/-- The values among members. -/
def memberValues (members : Table String Member) : List (String × Value) :=
  members.filterMap fun m => m.2.value?.map fun v => (m.1, v)

/-- Sets a member to a value.  Code spells members as one word, so that no name with a dot is ever
    set. -/
def setValue (members : Table String Member) (f : String × Value) : Table String Member :=
  if f.1.toList.contains '.' then members else Table.set f.1 (.value f.2) members

/-- Sets members to values, in order. -/
def setValues (members : Table String Member) (fields : List (String × Value)) :
    Table String Member :=
  fields.foldl setValue members

/-! ## Calls -/

/-- The arguments of a call. -/
structure Arguments where
  positional : List Datum
  keywords : List (String × Datum)

/-- Puts the parts of a value into new cells of the store. -/
def thawIn (v : Value) : Run Store Datum := fun s => (v.thaw s).map .ok id

/-- Work on the log as work on the store. -/
def onLog {α : Type} (r : Run Log α) : Run Store α := fun s =>
  let (out, log) := r s.log
  (out, { s with log })

/-- Puts an object into a new cell. -/
def allocIn (c : Cell) : Run Store Datum := fun s =>
  let (a, s') := s.alloc c
  (.ok (.object a), s')

/-- What a method returns and which values of its module it sets, given how often it was called
    before and the values of the module. -/
def Behaviour.act (b : Behaviour) (before : Nat) (fields : List (String × Value)) (a : Arguments) :
    Run Store (Datum × List (String × Value)) := do
  match b with
  | .const v => return (← thawIn v, [])
  | .echo => return (.tuple a.positional, [])
  | .first =>
    match a.positional with
    | [] => throw .badIndex
    | d :: _ => return (d, [])
  | .arity => return (.leaf (.int (a.positional.length + a.keywords.length)), [])
  | .keywords => return (← allocIn (.dict (a.keywords.map fun k => (.str k.1, k.2))), [])
  | .counter => return (.leaf (.int (before + 1)), [])
  | .append v =>
    match a.positional with
    | [] => throw .badIndex
    | .object address :: _ =>
      match (← get).read address with
      | .list items =>
        let d ← thawIn v
        modify fun s => s.write address (.list (items ++ [d]))
        return (.object address, [])
      | _ => throw .noAttribute
    | _ :: _ => throw .noAttribute
  | .raise f => throw f
  | .body run =>
    if !a.keywords.isEmpty then throw .wrongType
    let s ← get
    let (v, assigned) ← onLog (run fields (a.positional.map s.freeze))
    return (← thawIn v, assigned)

/-- Calls a method, which counts the call. -/
def Method.call (m : Method) (fields : List (String × Value)) (a : Arguments) :
    Run Store (Datum × Method × List (String × Value)) := do
  let (out, assigned) ← m.behaviour.act m.calls fields a
  return (out, { m with calls := m.calls + 1 }, assigned)

/-- Calls what is found at a path of names below a value.  Only lists have a member that can be
    called, the one that appends; what it appends cannot be read back. -/
def Value.callMember (v : Value) (path : List String) (a : Arguments) :
    Run Store Datum :=
  match v, path with
  | _, [] => throw .wrongType
  | .list _, ["append"] =>
    if a.positional.length == 1 && a.keywords.isEmpty then return .leaf .none
    else throw .wrongType
  | _, _ => throw .noAttribute

/-- The name that a path starts with, and the rest.  Calling a module is calling its `forward`. -/
def splitPath : List String → String × List String
  | [] => ("forward", [])
  | name :: rest => (name, rest)

mutual

/-- Calls what is found at a path of names below a module. -/
def Module.call : Module → List String → Arguments →
    Run Store (Datum × Module)
  | ⟨className, members, classMethods, children, sourceName, isScripted⟩, path, a => do
    let (name, rest) := splitPath path
    match members.lookup name, classMethods.lookup name with
    | some (.method m), _ =>
      if !rest.isEmpty then throw .noAttribute
      let (out, m', assigned) ← m.call (memberValues members) a
      return (out, ⟨className, setValues (Table.set name (.method m') members) assigned,
        classMethods, children, sourceName, isScripted⟩)
    | some (.value v), _ =>
      let out ← v.callMember rest a
      return (out, ⟨className, members, classMethods, children, sourceName, isScripted⟩)
    | none, some m =>
      if !rest.isEmpty then throw .noAttribute
      let (out, m', assigned) ← m.call (memberValues members) a
      return (out, ⟨className, setValues members assigned, Table.set name m' classMethods,
        children, sourceName, isScripted⟩)
    | none, none =>
      let (out, children') ← Module.callChild children name rest a
      return (out, ⟨className, members, classMethods, children', sourceName, isScripted⟩)

/-- Calls what is found at a path of names below the child of a name. -/
def Module.callChild : List (String × Module) → String → List String → Arguments →
    Run Store (Datum × List (String × Module))
  | [], _, _, _ => throw .noAttribute
  | (n, m) :: more, name, rest, a =>
    if n == name then do
      let (out, m') ← m.call rest a
      return (out, (n, m') :: more)
    else do
      let (out, more') ← Module.callChild more name rest a
      return (out, (n, m) :: more')

end

end DialectBench
