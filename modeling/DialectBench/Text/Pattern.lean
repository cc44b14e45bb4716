import DialectBench.Fault

/-!
# Patterns

Regular expressions that select names: characters, `.`, sets, the classes of digits, word characters
and blanks, groups, alternatives, repetition, also counted, and the anchors `^` and `$`.  A pattern
is matched by its derivatives: what is left of it after one character.  It accepts a text if it
matches some beginning of the text, so only the start is anchored.
-/

namespace DialectBench

/-- A pattern. -/
inductive Pattern where
  /-- Matches nothing. -/
  | never
  /-- Matches the empty text. -/
  | empty
  | char (c : Char)
  /-- Any character but a line break. -/
  | any
  /-- A character within, or outside, all the ranges. -/
  | set (negated : Bool) (ranges : List (Char × Char))
  | seq (p q : Pattern)
  | alt (p q : Pattern)
  | star (p : Pattern)
  /-- The start of the text. -/
  | start
  /-- The end of the text, or the place before a line break that ends it. -/
  | stop
  deriving DecidableEq, Repr

namespace Pattern

/-! ## Matching -/

/-- One pattern after the other, simplified. -/
def join : Pattern → Pattern → Pattern
  | .never, _ => .never
  | _, .never => .never
  | .empty, q => q
  | p, .empty => p
  | p, q => .seq p q

/-- The alternatives of a pattern. -/
def branches : Pattern → List Pattern
  | .never => []
  | .alt p q => branches p ++ branches q
  | p => [p]

/-- One of patterns. -/
def oneOf : List Pattern → Pattern
  | [] => .never
  | [p] => p
  | p :: ps => .alt p (oneOf ps)

/-- Either of two patterns, each alternative once. -/
def either (p q : Pattern) : Pattern := oneOf (branches p ++ branches q).eraseDups

/-- Whether the pattern matches the empty text at a place, given whether the place is the start and
    what comes after it. -/
def isNullable (atStart : Bool) (rest : List Char) : Pattern → Bool
  | .never | .char _ | .any | .set _ _ => false
  | .empty | .star _ => true
  | .seq p q => p.isNullable atStart rest && q.isNullable atStart rest
  | .alt p q => p.isNullable atStart rest || q.isNullable atStart rest
  | .start => atStart
  | .stop => rest == [] || rest == ['\n']

/-- Whether a character lies in one of the ranges. -/
def inRanges (c : Char) (ranges : List (Char × Char)) : Bool :=
  ranges.any fun r => r.1 ≤ c && c ≤ r.2

/-- What is left of the pattern after the character at a place. -/
def deriv (atStart : Bool) (c : Char) (rest : List Char) : Pattern → Pattern
  | .never | .empty | .start | .stop => .never
  | .char d => if c = d then .empty else .never
  | .any => if c = '\n' then .never else .empty
  | .set negated ranges => if inRanges c ranges = negated then .never else .empty
  | .seq p q =>
    let first := (p.deriv atStart c rest).join q
    if p.isNullable atStart (c :: rest) then either first (q.deriv atStart c rest) else first
  | .alt p q => either (p.deriv atStart c rest) (q.deriv atStart c rest)
  | .star p => (p.deriv atStart c rest).join (.star p)

/-- Whether the pattern matches a beginning of what comes after a place. -/
def matchesFrom (atStart : Bool) (p : Pattern) : List Char → Bool
  | [] => p.isNullable atStart []
  | c :: rest =>
    p.isNullable atStart (c :: rest) || matchesFrom false (p.deriv atStart c rest) rest

/-- Whether the pattern matches a beginning of a text. -/
def accepts (p : Pattern) (s : String) : Bool := p.matchesFrom true s.toList

/-! ## Classes and counted repetition -/

/-- The ranges of digits, word characters and blanks, and of all other characters. -/
def classes : List (Char × List (Char × Char)) :=
  let top := Char.ofNat 0x10ffff
  [('d', [('0', '9')]),
   ('D', [('\x00', '/'), (':', top)]),
   ('w', [('0', '9'), ('A', 'Z'), ('_', '_'), ('a', 'z')]),
   ('W', [('\x00', '/'), (':', '@'), ('[', '^'), (Char.ofNat 96, Char.ofNat 96), ('\x7b', top)]),
   ('s', [('\t', '\r'), (' ', ' ')]),
   ('S', [('\x00', Char.ofNat 8), (Char.ofNat 14, Char.ofNat 31), ('!', top)])]

/-- The characters that are written as a backslash and a letter. -/
def controls : List (Char × Char) :=
  [('a', Char.ofNat 7), ('t', '\t'), ('n', '\n'), ('v', Char.ofNat 11), ('f', Char.ofNat 12),
   ('r', '\r')]

/-- A pattern a number of times. -/
def times (p : Pattern) : Nat → Pattern
  | 0 => .empty
  | n + 1 => p.join (times p n)

/-- A pattern at most a number of times. -/
def atMost (p : Pattern) : Nat → Pattern
  | 0 => .empty
  | n + 1 => .alt (p.join (atMost p n)) .empty

/-- A pattern at least and, if a second number is given, at most a number of times. -/
def between (p : Pattern) (low : Nat) (high : Option Nat) : Pattern :=
  (p.times low).join (high.elim (.star p) fun n => p.atMost (n - low))

/-! ## Reading -/

/-- A part of a pattern, and whether it is a repetition as it was written. -/
structure Item where
  pattern : Pattern
  isRepeated : Bool

/-- A group that is being read: where it starts, its finished alternatives and the parts of the
    current one, the last first. -/
structure Group where
  position : Nat
  finished : List Pattern
  items : List Item

/-- What may start a range of a set: a character, or a class, which must not. -/
inductive Bound where
  | char (c : Char)
  | cls (letter : Char)

/-- The text of the start of a range. -/
def Bound.text : Bound → String
  | .char c => String.ofList [c]
  | .cls c => String.ofList ['\\', c]

/-- The ranges that the start of a range stands for by itself. -/
def Bound.ranges : Bound → List (Char × Char)
  | .char c => [(c, c)]
  | .cls c => (classes.lookup c).getD []

/-- A set that is being read. -/
structure CharSet where
  position : Nat
  negated : Bool
  /-- Nothing was read yet, so that a closing bracket stands for itself. -/
  isFresh : Bool
  ranges : List (Char × Char)
  /-- What came last and may start a range. -/
  low : Option Bound
  /-- A dash came after that. -/
  dash : Bool
  /-- A backslash came last. -/
  escaped : Bool

/-- What the next character means. -/
inductive Mode where
  | plain
  | escaped
  /-- After a repetition, where a question mark asks for the shortest match. -/
  | repeated
  /-- After the parenthesis that opens a group, where a question mark and a colon say that the group
      is not numbered. -/
  | opened
  /-- After that question mark. -/
  | marked
  /-- After the brace that opens a count, with the digits and the comma since then. -/
  | counting (read : List Char)
  | inSet (s : CharSet)

/-- The state of the reader: the groups around the place, the innermost first. -/
structure Reader where
  position : Nat
  mode : Mode
  group : Group
  outer : List Group

/-- The fault of a text that is no pattern. -/
def malformed (what : String) (position : Nat) : Fault :=
  .raised "error" (what ++ " at position " ++ toString position)

/-- The pattern of the parts of an alternative. -/
def Group.current (g : Group) : Pattern :=
  g.items.foldl (fun rest i => i.pattern.join rest) .empty

/-- The pattern of a group. -/
def Group.pattern (g : Group) : Pattern := oneOf (g.finished.reverse ++ [g.current])

/-- Adds a part to the current alternative. -/
def Reader.add (r : Reader) (p : Pattern) : Reader :=
  { r with mode := .plain, group := { r.group with items := ⟨p, false⟩ :: r.group.items } }

/-- Repeats the last part. -/
def Reader.repeatLast (r : Reader) (f : Pattern → Pattern) : Except Fault Reader :=
  match r.group.items with
  | [] => .error (malformed "nothing to repeat" r.position)
  | i :: rest =>
    if i.pattern = .start ∨ i.pattern = .stop then
      .error (malformed "nothing to repeat" r.position)
    else if i.isRepeated then .error (malformed "multiple repeat" r.position)
    else .ok { r with mode := .repeated,
                      group := { r.group with items := ⟨f i.pattern, true⟩ :: rest } }

/-- Reads a character that a backslash stands before. -/
def Reader.escaped (r : Reader) (c : Char) : Except Fault Reader :=
  match classes.lookup c, controls.lookup c with
  | some ranges, _ => .ok (r.add (.set false ranges))
  | none, some d => .ok (r.add (.char d))
  | none, none =>
    if c.isAlphanum then .error (malformed ("bad escape \\" ++ String.ofList [c]) (r.position - 1))
    else .ok (r.add (.char c))

/-- Reads a character with its special meaning. -/
def Reader.plain (r : Reader) (c : Char) : Except Fault Reader :=
  match c with
  | '.' => .ok (r.add .any)
  | '^' => .ok (r.add .start)
  | '$' => .ok (r.add .stop)
  | '\\' => .ok { r with mode := .escaped }
  | '*' => r.repeatLast .star
  | '+' => r.repeatLast fun p => p.join (.star p)
  | '?' => r.repeatLast fun p => .alt p .empty
  | '\x7b' => .ok { r with mode := .counting [] }
  | '|' => .ok { r with
      mode := .plain
      group := { r.group with finished := r.group.current :: r.group.finished, items := [] } }
  | '(' =>
    .ok { r with mode := .opened, group := ⟨r.position, [], []⟩, outer := r.group :: r.outer }
  | ')' =>
    match r.outer with
    | [] => .error (malformed "unbalanced parenthesis" r.position)
    | g :: rest => .ok ({ r with group := g, outer := rest }.add r.group.pattern)
  | '[' => .ok { r with mode := .inSet ⟨r.position, false, true, [], none, false, false⟩ }
  | c => .ok (r.add (.char c))

/-- What was read since a brace stands for itself, if it does not end as a count. -/
def Reader.uncounted (r : Reader) (read : List Char) : Reader :=
  read.foldl (fun r c => r.add (.char c)) (r.add (.char '\x7b'))

/-- The number that digits spell, if there are any. -/
def number? (digits : List Char) : Option Nat :=
  if digits.isEmpty then none else (String.ofList digits).toNat?

/-- Reads a character after the brace that opens a count. -/
def Reader.counting (r : Reader) (read : List Char) (c : Char) : Except Fault Reader :=
  if c.isDigit || c == ',' && !read.contains ',' then
    .ok { r with mode := .counting (read ++ [c]) }
  else if c == '\x7d' && !read.isEmpty then
    let (before, after) := read.span (· != ',')
    let low := (number? before).getD 0
    let high := if after.isEmpty then some low else number? after.tail
    let start := r.position - read.length - 1
    if high.any (· < low) then
      .error (malformed "min repeat greater than max repeat" (start + 1))
    else do
      let counted ← { r with position := start }.repeatLast fun p => p.between low high
      return { counted with position := r.position }
  else (r.uncounted read).plain c

/-- The ranges of a set with what is still open. -/
def CharSet.closed (s : CharSet) : List (Char × Char) :=
  s.ranges ++ (s.low.map Bound.ranges).getD [] ++ if s.dash then [('-', '-')] else []

/-- Reads a character or a class of a set. -/
def Reader.inSetBound (r : Reader) (s : CharSet) (b : Bound) : Except Fault Reader :=
  let s := { s with isFresh := false, escaped := false }
  match s.low, s.dash with
  | some low, true =>
    let range := low.text ++ "-" ++ b.text
    let bad := malformed ("bad character range " ++ range) (r.position + 1 - range.length)
    match low, b with
    | .char a, .char c =>
      if a ≤ c then
        .ok { r with mode := .inSet { s with ranges := s.ranges ++ [(a, c)], low := none,
                                             dash := false } }
      else .error bad
    | _, _ => .error bad
  | some low, false =>
    .ok { r with mode := .inSet { s with ranges := s.ranges ++ low.ranges, low := some b } }
  | none, _ => .ok { r with mode := .inSet { s with low := some b } }

/-- Reads a character of a set. -/
def Reader.inSet (r : Reader) (s : CharSet) (c : Char) : Except Fault Reader :=
  if s.escaped then
    if (classes.lookup c).isSome then r.inSetBound s (.cls c)
    else
      match controls.lookup c with
      | some d => r.inSetBound s (.char d)
      | none =>
        if c.isAlphanum then
          .error (malformed ("bad escape \\" ++ String.ofList [c]) (r.position - 1))
        else r.inSetBound s (.char c)
  else if c = '\\' then .ok { r with mode := .inSet { s with escaped := true } }
  else if c = '^' ∧ s.isFresh ∧ ¬ s.negated then
    .ok { r with mode := .inSet { s with negated := true } }
  else if c = ']' ∧ ¬ s.isFresh then .ok (r.add (.set s.negated s.closed))
  else if c = '-' ∧ s.low.isSome ∧ ¬ s.dash then
    .ok { r with mode := .inSet { s with dash := true } }
  else r.inSetBound s (.char c)

/-- Reads one character. -/
def Reader.step (r : Reader) (c : Char) : Except Fault Reader :=
  let next : Except Fault Reader :=
    match r.mode with
    | .plain => r.plain c
    | .escaped => r.escaped c
    | .counting read => r.counting read c
    | .repeated => if c = '?' then .ok { r with mode := .plain } else r.plain c
    | .opened => if c = '?' then .ok { r with mode := .marked } else r.plain c
    | .marked =>
      if c = ':' then .ok { r with mode := .plain }
      else .error (malformed ("unknown extension ?" ++ String.ofList [c]) (r.position - 1))
    | .inSet s => r.inSet s c
  next.map fun r => { r with position := r.position + 1 }

/-- The pattern when all is read. -/
def Reader.finish (r : Reader) : Except Fault Pattern :=
  let r := match r.mode with
    | .counting read => r.uncounted read
    | _ => r
  match r.mode, r.outer with
  | .inSet s, _ => .error (malformed "unterminated character set" s.position)
  | .escaped, _ => .error (malformed "bad escape (end of pattern)" (r.position - 1))
  | _, _ :: _ => .error (malformed "missing ), unterminated subpattern" r.group.position)
  | _, [] => .ok r.group.pattern

/-- Reads a pattern. -/
def read (s : String) : Except Fault Pattern := do
  (← s.toList.foldlM Reader.step ⟨0, .plain, ⟨0, [], []⟩, []⟩).finish

end Pattern

end DialectBench
