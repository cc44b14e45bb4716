import DialectBench.Operator.Catalogue

/-!
# The generated files

Looking up the requested operators and writing their definitions.  A look-up that fails stops the
work in the file where it occurs.
-/

namespace DialectBench.Operator

/-- The head of every generated file. -/
def banner : String := Text.joinWith "\n" [
  "//===-------------------------------------------------------*- tablegen -*-===//",
  "//",
  "// This file is licensed under the Apache License v2.0 with LLVM Exceptions.",
  "// See https://llvm.org/LICENSE.txt for license information.",
  "// SPDX-License-Identifier: Apache-2.0 WITH LLVM-exception",
  "// Also available under a BSD-style license. See LICENSE.",
  "//",
  "// Operation summaries and descriptions were systematically derived from public",
  "// API docstrings and are licensed accordingly:",
  "//   https://github.com/pytorch/pytorch/blob/master/LICENSE",
  "//===----------------------------------------------------------------------===//",
  "//",
  "// This file is automatically generated.  Please do not edit.",
  "// Generated via:",
  "//   python -m torch_mlir.dialects.torch.importer.jit_ir.build_tools.torch_ods_gen",
  "//",
  "//===----------------------------------------------------------------------===//",
  "",
  ""]

/-- The triple of the variant that works in place. -/
def inPlaceTriple (o : Operator) : Triple := { o.triple with base := o.base ++ "_" }

/-- The definition of the variant that works in place. -/
def inPlaceDefinition (r : Registry) (o : Operator) : List Piece :=
  match r.getTriple o.inPlaceTriple with
  | .error e => [.error e]
  | .ok variant => variant.fullDefinition ⟨["IsTrailingUnderscoreInplaceVariant"], false, false⟩

/-- The definitions that a request asks for. -/
def Request.pieces (r : Registry) (q : Request) : List Piece :=
  match r.get q.key with
  | .error e => [.error e]
  | .ok o => o.fullDefinition ⟨q.traits, q.hasFolder, q.hasCanonicalizer⟩ ++
      (if q.inPlace then inPlaceDefinition r o else [])

/-- The generated files; a description of the registry comes first, under the name given for it. -/
def outputFiles (r : Registry) (dumpName : Option String) : List (String × List Piece) :=
  (match dumpName with
    | some name => [(name, [.ok r.dump])]
    | none => []) ++
  catalogue.map fun f => (f.1, .ok banner :: f.2.flatMap (Request.pieces r))

/-- Generates the files for the records of a registry. -/
def generate (records : List Record) (dumpName : Option String) : Files String :=
  match Registry.ofRecords records with
  | .error e => ⟨[], .error e⟩
  | .ok r => Files.ofPieces (outputFiles r dumpName)

end DialectBench.Operator
