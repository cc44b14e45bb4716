import DialectBench.Bench.Test
import DialectBench.Text.Path

/-!
# Building the package

The package is built by another build tool: the build step runs it in a directory of its own, unless
it is told that this was done before, and then copies what came out over the directory that is
packed.  Commands are written down in place of being run.
-/

namespace DialectBench.Packaging

/-! ## Description -/

/-- What the package says of itself. -/
structure Description where
  name : String
  version : String
  longDescription : String
  includesData : Bool
  isZipSafe : Bool
  /-- The names of the build commands that the package defines. -/
  commands : List String
  /-- The compiled modules and their sources, which the other build tool knows. -/
  extensions : List (String × List String)

/-- The description of the package. -/
def description : Description where
  name := "torch-mlir"
  version := "0.0.1"
  longDescription := ""
  includesData := true
  isZipSafe := false
  commands := ["build", "build_py", "built_ext"]
  extensions := [("torch_mlir._mlir_libs._jit_ir_importer", [])]

/-- The commands that building runs. -/
def phases : List String := ["build_py", "build_ext", "build_scripts"]

/-! ## Files -/

/-- A place in a tree of files, as the names on the way to it. -/
abbrev Place := List String

/-- A tree of files. -/
structure Tree where
  directories : List Place
  files : List Place
  deriving Repr

/-- The places above a place. -/
def above (p : Place) : List Place := (List.range p.length).map p.take

/-- The tree that consists of files and the directories above them. -/
def Tree.ofFiles (files : List Place) : Tree := ⟨(files.flatMap above).eraseDups, files⟩

/-- Follows names from a place; all but the last have to lead to directories. -/
def Tree.follow (t : Tree) : Place → List String → Option Place
  | p, [] => some p
  | p, name :: rest =>
    if !t.directories.contains p then none
    else
      match name with
      | "" => t.follow p rest
      | "." => t.follow p rest
      | ".." => t.follow p.dropLast rest
      | _ => t.follow (p ++ [name]) rest

/-- The place that a path leads to. -/
def Tree.resolve (t : Tree) (path : String) : Option Place := t.follow [] (Text.pathParts path)

/-- Adds a directory. -/
def Tree.addDirectory (t : Tree) (p : Place) : Tree :=
  if t.directories.contains p then t else { t with directories := t.directories ++ [p] }

/-- Makes the directories on the way that names lead from a place. -/
def Tree.makeAlong (t : Tree) : Place → List String → Tree
  | p, [] => t.addDirectory p
  | p, name :: rest =>
    let t := t.addDirectory p
    match name with
    | "" => t.makeAlong p rest
    | "." => t.makeAlong p rest
    | ".." => t.makeAlong p.dropLast rest
    | _ => t.makeAlong (p ++ [name]) rest

/-- Makes a directory and those above it. -/
def Tree.makeDirectory (t : Tree) (path : String) : Tree := t.makeAlong [] (Text.pathParts path)

/-- Removes a file if it is there. -/
def Tree.remove (t : Tree) (path : String) : Tree :=
  match t.resolve path with
  | none => t
  | some p => { t with files := t.files.filter (· ≠ p) }

/-- Adds a file and the directories above it; a file that is there already is written over. -/
def Tree.addFile (t : Tree) (p : Place) : Tree :=
  let t := (above p).foldl Tree.addDirectory t
  if t.files.contains p then t else { t with files := t.files ++ [p] }

/-- Copies all files below a directory to another directory, over those that are there. -/
def Tree.copyOver (t : Tree) (source target : String) : Except Fault Tree :=
  match t.resolve source with
  | none => .error .noFile
  | some p =>
    if !t.directories.contains p then .error .noFile
    else
      let t := t.makeDirectory target
      match t.resolve target with
      | none => .error .noFile
      | some q =>
        .ok ((t.files.filter p.isPrefixOf).foldl (fun t f => t.addFile (q ++ f.drop p.length)) t)

/-- The files below a place, by their paths from there, in order. -/
def Tree.listing (t : Tree) (p : Place) : List String :=
  ((t.files.filter p.isPrefixOf).map fun f => Text.joinWith "/" (f.drop p.length)).mergeSort
    fun a b => !(b < a)

/-! ## The build step -/

/-- Where the package is built. -/
structure Site where
  /-- The directory of the sources. -/
  sources : String
  /-- The interpreter that the modules are built for. -/
  interpreter : String
  /-- The environment. -/
  environment : List (String × String)
  /-- The number of the command that fails. -/
  failing : Option Nat

/-- A command and the directory that it runs in. -/
structure Command where
  words : List String
  directory : String
  deriving DecidableEq, Repr

/-- What has been done: the commands that were started and the files as they are now. -/
structure Yard where
  tree : Tree
  commands : List Command

/-- A variable of the environment that is set to something. -/
def Site.setting? (site : Site) (name : String) : Option String :=
  (site.environment.lookup name).filter fun v => !v.isEmpty

/-- Runs a command. -/
def Site.runCommand (site : Site) (c : Command) : Run Yard Unit := do
  let y ← get
  set { y with commands := y.commands ++ [c] }
  if site.failing == some y.commands.length then throw (.runtime "command failed")

/-- The settings that the other build tool is given. -/
def Site.definitions (site : Site) : List String := [
  "-DCMAKE_BUILD_TYPE=Release",
  "-DPython3_EXECUTABLE=" ++ site.interpreter,
  "-DLLVM_TARGETS_TO_BUILD=host",
  "-DMLIR_ENABLE_BINDINGS_PYTHON=ON",
  "-DLLVM_ENABLE_PROJECTS=mlir",
  "-DLLVM_EXTERNAL_PROJECTS=torch-mlir",
  "-DLLVM_EXTERNAL_TORCH_MLIR_SOURCE_DIR=" ++ site.sources,
  "-DCMAKE_VISIBILITY_INLINES_HIDDEN=ON",
  "-DCMAKE_C_VISIBILITY_PRESET=hidden",
  "-DCMAKE_CXX_VISIBILITY_PRESET=hidden"]

/-- Runs the other build tool in its directory, from a clean start. -/
def Site.runTool (site : Site) (directory : String) : Run Yard Unit := do
  modify fun y => { y with
    tree := (y.tree.makeDirectory directory).remove (Text.pathIn directory "CMakeCache.txt") }
  site.runCommand ⟨["cmake", site.sources ++ "/external/llvm-project/llvm"] ++ site.definitions,
    directory⟩
  site.runCommand ⟨["cmake", "--build", ".", "--target", "TorchMLIRPythonModules"], directory⟩

/-- The build step: builds, unless that was done before, and copies the outcome to a directory. -/
def Site.build (site : Site) (target : String) : Run Yard Unit := do
  let directory := (site.setting? "TORCH_MLIR_CMAKE_BUILD_DIR").getD
    (Text.pathIn (Text.pathIn target "..") "cmake_build")
  if (site.setting? "TORCH_MLIR_CMAKE_BUILD_DIR_ALREADY_BUILT").isNone then
    site.runTool directory
  let outcome := Text.pathIn directory "tools/torch-mlir/python_packages/torch_mlir"
  let y ← get
  match y.tree.copyOver outcome target with
  | .error e => throw e
  | .ok t => set { y with tree := t }

end DialectBench.Packaging
