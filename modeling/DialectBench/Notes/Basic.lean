import DialectBench.Bench.Module

/-!
# Annotations of methods

Methods may be marked as exported and may say what is known of their arguments.  The annotations
of a tree of modules can be taken out as a value of their own and put onto another tree.
-/

namespace DialectBench

/-- The annotations of a method. -/
structure MethodNote where
  name : String
  exportMark : Value
  argTypes : Value
  deriving Repr

/-- The annotations of a tree of modules. -/
inductive ModuleNotes where
  | node (methods : List MethodNote) (children : List (String × ModuleNotes))

/-- Whether a value is nothing. -/
def Value.isNone : Value → Bool
  | .none => true
  | _ => false

namespace Notes

/-- The annotations of a member.  A method counts only if it has both an export mark and argument
    types, neither of them nothing. -/
def note? (name : String) : Member → Option MethodNote
  | .value _ => none
  | .method m =>
    match m.exportMark, m.argTypes with
    | some e, some a => if e.isNone || a.isNone then none else some ⟨name, e, a⟩
    | _, _ => none

mutual

/-- Takes out the annotations of a tree of modules. -/
def extract : Module → ModuleNotes
  | ⟨_, members, _, children, _, _⟩ =>
    .node (members.filterMap fun m => note? m.1 m.2) (extractAll children)

/-- Takes out the annotations of child modules. -/
def extractAll : List (String × Module) → List (String × ModuleNotes)
  | [] => []
  | (name, m) :: rest => (name, extract m) :: extractAll rest

end

/-- Changes to a tree of modules that may stop half way; what was changed before stays changed. -/
abbrev Edit := ExceptT Fault (StateM Module)

/-- Changes the method that a name of a module stands for.  Methods of the class and values take
    no annotations; a child module takes them without showing them. -/
def editMethod (name : String) (f : Method → Method) : Edit Unit := do
  let m ← get
  match m.members.lookup name, m.classMethods.lookup name, m.children.lookup name with
  | some (.method old), _, _ =>
    set { m with members := Table.set name (.method (f old)) m.members }
  | some (.value _), _, _ => throw .noAttribute
  | none, some _, _ => throw .noAttribute
  | none, none, some _ => return ()
  | none, none, none => throw .noAttribute

/-- Marks a method as exported. -/
def markExported (name : String) : Edit Unit :=
  editMethod name fun m => { m with exportMark := some (.bool true) }

/-- Sets what is known of the arguments of a method. -/
def setArgTypes (name : String) (types : Value) : Edit Unit :=
  editMethod name fun m => { m with argTypes := some types }

/-- Puts the annotations of a method onto the method of that name. -/
def applyNote (n : MethodNote) : Edit Unit := do
  if !n.exportMark.isNone then markExported n.name
  if !n.argTypes.isNone then setArgTypes n.name n.argTypes

/-- Puts the annotations of methods onto the methods of their names. -/
def applyNotes : List MethodNote → Edit Unit
  | [] => return ()
  | n :: rest => do
    applyNote n
    applyNotes rest

/-- Work on the child module of a name. -/
def onChild (name : String) (edit : Edit Unit) : Edit Unit := fun m =>
  match m.members.lookup name, m.classMethods.lookup name, m.children.lookup name with
  | none, none, some child =>
    let (out, child') := edit child
    (out, { m with children := Table.set name child' m.children })
  | _, _, _ => (.error .noAttribute, m)

mutual

/-- Puts annotations onto a tree of modules. -/
def apply : ModuleNotes → Edit Unit
  | .node methods children => do
    applyNotes methods
    applyAll children

/-- Puts annotations onto child modules. -/
def applyAll : List (String × ModuleNotes) → Edit Unit
  | [] => return ()
  | (name, notes) :: rest => do
    onChild name (apply notes)
    applyAll rest

end

/-- Work on the module at a path of child names. -/
def atPath : List String → Edit Unit → Edit Unit
  | [], edit => edit
  | name :: rest, edit => onChild name (atPath rest edit)

/-- The marks of a method that a module shows. -/
structure Marks where
  name : String
  exportMark : Option Value
  argTypes : Option Value
  deriving Repr

/-- The marks of all methods in a tree of modules. -/
inductive State where
  | node (methods : List Marks) (children : List (String × State))

/-- The marks of a member. -/
def marks? (name : String) : Member → Option Marks
  | .value _ => none
  | .method m => some ⟨name, m.exportMark, m.argTypes⟩

mutual

/-- The marks of all methods in a tree of modules. -/
def state : Module → State
  | ⟨_, members, _, children, _, _⟩ =>
    .node (members.filterMap fun m => marks? m.1 m.2) (stateAll children)

/-- The marks of all methods in child modules. -/
def stateAll : List (String × Module) → List (String × State)
  | [] => []
  | (name, m) :: rest => (name, state m) :: stateAll rest

end

end Notes

end DialectBench
