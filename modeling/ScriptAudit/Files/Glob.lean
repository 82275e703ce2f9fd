namespace ScriptAudit

/-- One part of a pattern for file names. -/
inductive GlobPart where
  | star
  | any
  | char (c : Char)
  | set (negated : Bool) (ranges : List (Char × Char))
  deriving DecidableEq, Repr

abbrev Glob := List GlobPart

namespace GlobPart

def accepts : GlobPart → Char → Bool
  | .star, _ => false
  | .any, _ => true
  | .char d, c => c == d
  | .set negated ranges, c => (ranges.any fun r => r.1 ≤ c && c ≤ r.2) != negated

end GlobPart

namespace Glob

/-- Splits a set at each hyphen that can make a range: from `skip` characters on in the first piece, and after two
in the others. The pieces are between the hyphens. -/
def pieces : Nat → List Char → List Char → List (List Char)
  | _, seen, [] => [seen.reverse]
  | 0, seen, c :: rest => if c = '-' then seen.reverse :: pieces 2 [] rest else pieces 0 (c :: seen) rest
  | skip + 1, seen, c :: rest => pieces skip (c :: seen) rest

/-- A hyphen at the very end makes no range. -/
def mendLast : List (List Char) → List (List Char)
  | [] => []
  | [p] => [p]
  | [p, []] => [p ++ ['-']]
  | p :: rest => p :: mendLast rest

/-- Leaves out ranges that run downwards, with both their ends. -/
def dropEmptyRanges : List (List Char) → List (List Char)
  | [] => []
  | p :: rest =>
    match dropEmptyRanges rest with
    | [] => [p]
    | q :: more =>
      match p.getLast?, q.head? with
      | some a, some b => if b < a then (p.dropLast ++ q.tail) :: more else p :: q :: more
      | _, _ => p :: q :: more

def single (c : Char) : Char × Char := (c, c)

/-- The last character of a piece and the first of the next are the ends of a range; the others stand alone. -/
def rangesOf : List (List Char) → List (Char × Char)
  | [] => []
  | [p] => p.map single
  | p :: q :: rest =>
    match p.getLast?, q with
    | some a, b :: _ => p.dropLast.map single ++ (a, b) :: rangesOf (q.tail :: rest)
    | _, _ => p.map single ++ rangesOf (q :: rest)
termination_by ps => ps.length

/-- The part for what stands between brackets. -/
def setPart (stuff : List Char) : GlobPart :=
  let chunks :=
    if stuff.contains '-' then
      dropEmptyRanges (mendLast (pieces (if stuff.head? = some '!' then 2 else 1) [] stuff))
    else [stuff]
  match chunks with
  | ['!'] :: [] => .any
  | ('!' :: p) :: rest => .set true (rangesOf (p :: rest))
  | chunks => .set false (rangesOf chunks)

/-- The length of what stands between brackets, if there is a closing one. A bracket that comes first is a
member. -/
def setLength? (cs : List Char) : Option Nat :=
  let start := if cs.head? = some '!' then 1 else 0
  let start := if (cs.drop start).head? = some ']' then start + 1 else start
  let body := (cs.drop start).takeWhile (· != ']')
  if start + body.length < cs.length then some (start + body.length) else none

/-- Reads a pattern. The fuel is its length. -/
def parse : Nat → List Char → Glob
  | 0, _ => []
  | _, [] => []
  | n + 1, '*' :: rest => .star :: parse n rest
  | n + 1, '?' :: rest => .any :: parse n rest
  | n + 1, '[' :: rest =>
    match setLength? rest with
    | some length => setPart (rest.take length) :: parse n (rest.drop (length + 1))
    | none => .char '[' :: parse n rest
  | n + 1, c :: rest => .char c :: parse n rest

def ofText (s : String) : Glob := parse s.length s.toList

def anySuffix (test : List Char → Bool) : List Char → Bool
  | [] => test []
  | c :: rest => test (c :: rest) || anySuffix test rest

/-- Whether a whole name fits a pattern. -/
def accepts : Glob → List Char → Bool
  | [], cs => cs.isEmpty
  | .star :: rest, cs => anySuffix (accepts rest) cs
  | part :: rest, c :: cs => part.accepts c && accepts rest cs
  | _ :: _, [] => false

end Glob

end ScriptAudit
