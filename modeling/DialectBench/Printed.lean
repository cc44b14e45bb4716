import DialectBench.Fault

/-!
# Partial output

Work that writes text and may stop half way.  What was written before a fault stays written.
-/

namespace DialectBench

/-- Text written so far, and how the work ended. -/
structure Printed (α : Type) where
  text : String
  outcome : Except Fault α

/-- A piece of output: a text, or the fault that stops the work in its place. -/
abbrev Piece := Except Fault String

/-- Writes pieces one after the other, up to the first fault. -/
def Printed.ofPieces : List Piece → Printed Unit
  | [] => ⟨"", .ok ()⟩
  | .error e :: _ => ⟨"", .error e⟩
  | .ok s :: ps =>
    let rest := Printed.ofPieces ps
    ⟨s ++ rest.text, rest.outcome⟩

/-- Pieces are written to their end exactly if none of them is a fault. -/
theorem Printed.outcome_ofPieces_eq_ok_iff {ps : List Piece} :
    (Printed.ofPieces ps).outcome = .ok () ↔ ∀ e, .error e ∉ ps := by
  induction ps with
  | nil => simp [Printed.ofPieces]
  | cons p ps ih =>
      cases p with
      | error e =>
          exact iff_of_false (fun h => nomatch h) (fun h => h e List.mem_cons_self)
      | ok t => simp [Printed.ofPieces, ih]

/-- Files written so far, in the order in which they were opened, and how the work ended. -/
structure Files (α : Type) where
  files : List (String × α)
  outcome : Except Fault Unit

/-- Writes files one after the other, up to the first fault; the file in which it occurs keeps what
    was written before. -/
def Files.ofPieces : List (String × List Piece) → Files String
  | [] => ⟨[], .ok ()⟩
  | (name, pieces) :: rest =>
    let file := Printed.ofPieces pieces
    match file.outcome with
    | .error e => ⟨[(name, file.text)], .error e⟩
    | .ok () =>
      let more := Files.ofPieces rest
      ⟨(name, file.text) :: more.files, more.outcome⟩

end DialectBench
