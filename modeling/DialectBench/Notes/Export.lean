import DialectBench.Notes.Basic

/-!
# Telling the compiler what is exported

The scripted form of a program is walked along with the program.  For every scripted method the
annotations of the program's method of the same name are passed on, under the type of the scripted
module.  How the front end names the types of scripted modules is a parameter, `typeName`.
-/

namespace DialectBench.Notes

/-- What the compiler is told. -/
inductive Notice where
  /-- Nothing below a type is exported unless it is said so later. -/
  | exportNone (type : String)
  | exportPath (type : String) (path : List String)
  | annotateArgs (type : String) (path : List String) (types : Value)
  deriving Repr

/-- What was told so far, and how it ended. -/
structure Told where
  notices : List Notice
  outcome : Except Fault Unit

/-- One telling after another, up to the first fault. -/
def Told.andThen (t : Told) (next : Told) : Told :=
  match t.outcome with
  | .error _ => t
  | .ok () => ⟨t.notices ++ next.notices, next.outcome⟩

/-- What the annotations of a method make known. -/
def methodNotices (type name : String) (m : Method) : List Notice :=
  (if m.exportMark.isSome then [.exportPath type [name]] else []) ++
    (match m.argTypes with
      | some types => [.annotateArgs type [name] types]
      | none => [])

/-- What is told of the scripted method of a name: the annotations of what the program has under
    that name. -/
def tellMethod (program : Module) (type name : String) : Told :=
  match program.members.lookup name, program.classMethods.lookup name,
      program.children.lookup name with
  | some (.method m), _, _ => ⟨methodNotices type name m, .ok ()⟩
  | some (.value _), _, _ => ⟨[], .ok ()⟩
  | none, some m, _ => ⟨methodNotices type name m, .ok ()⟩
  | none, none, some _ => ⟨[], .ok ()⟩
  | none, none, none => ⟨[], .error .noAttribute⟩

/-- What is told of the scripted methods among members, in order. -/
def tellMembers (program : Module) (type : String) : Table String Member → Told
  | [] => ⟨[], .ok ()⟩
  | (name, .method m) :: rest =>
    if m.isScripted then (tellMethod program type name).andThen (tellMembers program type rest)
    else tellMembers program type rest
  | (_, .value _) :: rest => tellMembers program type rest

/-- The child module that a name of a module stands for. -/
def childOf (m : Module) (name : String) : Except Fault Module :=
  match m.members.lookup name, m.classMethods.lookup name, m.children.lookup name with
  | none, none, some child => .ok child
  | _, _, _ => .error .noAttribute

section Walk

variable (typeName : Module → String)

mutual

/-- What is told of a module and its scripted form; `shared` says at which paths below them the two
    have one object in common. -/
def tellModule (shared : List String → Bool) : Module → Module → Told
  | ⟨className, members, classMethods, children, sourceName, isScripted⟩, scripted =>
    let program : Module := ⟨className, members, classMethods, children, sourceName, isScripted⟩
    if className == scripted.sourceName || (isScripted && shared []) then
      (tellMembers program (typeName scripted) scripted.members).andThen
        (tellChildren shared children scripted)
    else ⟨[], .error (.assertion "script module does not come from specified module")⟩

/-- What is told of child modules. -/
def tellChildren (shared : List String → Bool) : List (String × Module) → Module → Told
  | [], _ => ⟨[], .ok ()⟩
  | (name, child) :: rest, scripted =>
    match childOf scripted name with
    | .error e => ⟨[], .error e⟩
    | .ok scriptedChild =>
      (tellModule (fun path => shared (name :: path)) child scriptedChild).andThen
        (tellChildren shared rest scripted)

end

/-- What is told of a program and its scripted form, which have the objects at some paths in
    common. -/
def tellShared (shared : List String → Bool) (program scripted : Module) : Told :=
  (⟨[.exportNone (typeName scripted)], .ok ()⟩ : Told).andThen
    (tellModule typeName shared program scripted)

/-- What is told of a program and its scripted form; `same` says that they are one object. -/
def tell (same : Bool) (program scripted : Module) : Told :=
  tellShared typeName (fun _ => same) program scripted

end Walk

end DialectBench.Notes
