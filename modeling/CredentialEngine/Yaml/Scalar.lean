import CredentialEngine.Json.Reader
import CredentialEngine.Yaml.Cursor

/-!
# The text of scalars

Scalars are plain, quoted once or twice, or blocks of lines. A gap inside the first three is kept
if it holds blanks only; one line break in it reads as a space, and of several the first one is
dropped. Blocks keep their lines or fold them in the same way, and say what happens to the breaks
at the end.
-/
namespace CredentialEngine.Yaml

/-- What stands between two runs of a scalar. -/
inductive Gap where
  | blanks (text : List Char)
  /-- Ends of lines; the first one may be escaped. -/
  | lines (first : Option Char) (more : List Char)
  deriving DecidableEq, Repr

namespace Gap

def text : Gap → List Char
  | .blanks t => t
  | .lines (some '\n') [] => [' ']
  | .lines (some '\n') more => more
  | .lines (some c) more => c :: more
  | .lines none more => more

def isLines : Gap → Bool
  | .blanks _ => false
  | .lines _ _ => true

def next (cs : List Char) : Gap :=
  match cs.dropWhile isBlank with
  | c :: r =>
    if isBreak c then .lines (some c) ((r.takeWhile isGap).filter isBreak)
    else .blanks (cs.takeWhile isBlank)
  | [] => .blanks (cs.takeWhile isBlank)

/-- The gap that comes next after an escaped end of line. -/
def afterEscape (cs : List Char) : Gap :=
  .lines none ((cs.takeWhile isGap).filter isBreak)

end Gap

/-- A tab stands left of a column, on a line that begins within the gap. -/
def hasStrayTab (indent : Int) (begun : Bool) (column : Nat) : List Char → Bool
  | [] => false
  | c :: cs =>
    if isBreak c then hasStrayTab indent true 0 cs
    else (begun && c == '\t' && column < indent) || hasStrayTab indent begun (column + 1) cs

/-! ## Plain scalars -/

/-- The run that comes next, up to a gap or an indicator that ends it. In a flow collection a colon
may not stand directly before an indicator. -/
def plainRun? (flow : Bool) : List Char → Option (List Char)
  | [] => some []
  | c :: cs =>
    if isGap c || (flow && isFlowIndicator c) then some []
    else if c == ':' && flow && (cs.head?.any fun d => d == '?' || isFlowIndicator d) then none
    else if c == ':' && atGap cs then some []
    else (plainRun? flow cs).map (c :: ·)

structure PlainEnd where
  text : List Char
  /-- Whether it was found on a later line. -/
  broken : Bool
  cursor : Cursor

/-- A plain scalar after one of its runs. It ends at an indicator, at a comment, at a mark between
documents, and outside of flow collections at a line that begins left of `indent`. -/
def plainMore? (flow : Bool) (indent : Int) : Nat → Cursor → Option PlainEnd
  | 0, _ => none
  | fuel + 1, c =>
    let space := c.rest.takeWhile isGap
    if space.isEmpty then some ⟨[], false, c⟩
    else if hasStrayTab indent false c.column space then none
    else do
      let gap := Gap.next c.rest
      let c := c.skip space.length
      let stop : PlainEnd := ⟨[], gap.isLines, c⟩
      if (!flow && c.column < indent) || c.atDocumentMark || c.rest.head? == some '#' then
        return stop
      let run ← plainRun? flow c.rest
      if run.isEmpty then return stop
      let more ← plainMore? flow indent fuel (c.skip run.length)
      return { more with text := gap.text ++ run ++ more.text }

def plain? (flow : Bool) (indent : Int) (c : Cursor) : Option PlainEnd := do
  let run ← plainRun? flow c.rest
  let more ← plainMore? flow indent (c.rest.length + 1) (c.skip run.length)
  return { more with text := run ++ more.text }

/-! ## Quoted scalars -/

/-- A run between single quotes and what follows it; two quotes are one. -/
def singleRun : List Char → List Char × List Char
  | [] => ([], [])
  | '\'' :: '\'' :: cs =>
    let (t, r) := singleRun cs
    ('\'' :: t, r)
  | c :: cs =>
    if c == '\'' || isGap c then ([], c :: cs)
    else
      let (t, r) := singleRun cs
      (c :: t, r)

/-- The character that a short escape stands for. -/
def shortEscape? : Char → Option Char
  | '0' => some '\x00'
  | 'a' => some '\x07'
  | 'b' => some '\x08'
  | 't' => some '\t'
  | '\t' => some '\t'
  | 'n' => some '\n'
  | 'v' => some '\x0b'
  | 'f' => some '\x0c'
  | 'r' => some '\r'
  | 'e' => some '\x1b'
  | ' ' => some ' '
  | '"' => some '"'
  | '/' => some '/'
  | '\\' => some '\\'
  | 'N' => some '\x85'
  | '_' => some '\xa0'
  | 'L' => some '\u2028'
  | 'P' => some '\u2029'
  | _ => none

def codeEscape? (digits : List Char) : Option Char := do
  let n ← digits.foldlM (fun n d => (Json.hexVal? d).map fun v => n * 16 + v) 0
  if n.isValidChar then return Char.ofNat n else none

/-- A run between double quotes, whether an escaped end of line ends it, and what follows it. -/
def doubleRun? : List Char → Option (List Char × Bool × List Char)
  | [] => some ([], false, [])
  | '\\' :: 'x' :: a :: b :: cs => do
    let e ← codeEscape? [a, b]
    let (t, r) ← doubleRun? cs
    return (e :: t, r)
  | '\\' :: 'u' :: a :: b :: c :: d :: cs => do
    let e ← codeEscape? [a, b, c, d]
    let (t, r) ← doubleRun? cs
    return (e :: t, r)
  | '\\' :: 'U' :: a :: b :: c :: d :: a' :: b' :: c' :: d' :: cs => do
    let e ← codeEscape? [a, b, c, d, a', b', c', d']
    let (t, r) ← doubleRun? cs
    return (e :: t, r)
  | '\\' :: c :: cs =>
    if isBreak c then some ([], true, cs)
    else do
      let e ← shortEscape? c
      let (t, r) ← doubleRun? cs
      return (e :: t, r)
  | c :: cs =>
    if c == '"' || isGap c then some ([], false, c :: cs)
    else if c == '\\' then none
    else do
      let (t, r) ← doubleRun? cs
      return (c :: t, r)

/-- The runs and gaps up to a closing quote. No mark between documents may stand at the beginning of
a line. -/
def quotedMore? (double : Bool) : Nat → Cursor → Option (List Char × Cursor)
  | 0, _ => none
  | fuel + 1, c =>
    if c.atDocumentMark then none
    else do
      let (run, escaped, rest) ←
        if double then doubleRun? c.rest
        else
          let (t, r) := singleRun c.rest
          some (t, false, r)
      let c := c.moveTo rest
      if c.rest.head? == some (if double then '"' else '\'') then return (run, c.skip 1)
      let gap := if escaped then Gap.afterEscape c.rest else Gap.next c.rest
      let (more, c) ← quotedMore? double fuel (c.skipWhile isGap)
      return (run ++ gap.text ++ more, c)

def quoted? (double : Bool) (c : Cursor) : Option (List Char × Cursor) :=
  quotedMore? double (c.rest.length + 1) (c.skip 1)

/-! ## Block scalars -/

/-- What becomes of the line breaks at the end of a block. -/
inductive Chomp where
  | strip
  /-- One is kept. -/
  | clip
  | keep
  deriving DecidableEq, Repr

/-- The breaks that are left of the last one and of the empty lines after it. -/
def Chomp.tail (last empty : List Char) : Chomp → List Char
  | .strip => []
  | .clip => last
  | .keep => last ++ empty

def chomp? : Char → Option Chomp
  | '+' => some .keep
  | '-' => some .strip
  | _ => none

/-- The indentation that a digit asks for; zero is refused. -/
def indentHint? (d : Char) : Option Nat :=
  if d == '0' then none else some (d.toNat - '0'.toNat)

/-- The hints after the indicator of a block, in either order: the indentation, or zero, and what
becomes of the breaks at the end. -/
def blockHints? : List Char → Option (Nat × Chomp × List Char)
  | [] => some (0, .clip, [])
  | c :: cs =>
    match chomp? c with
    | some chomp =>
      match cs with
      | d :: r => if d.isDigit then (indentHint? d).map fun n => (n, chomp, r)
        else some (0, chomp, cs)
      | [] => some (0, chomp, [])
    | none =>
      if c.isDigit then do
        let n ← indentHint? c
        match cs with
        | d :: r =>
          match chomp? d with
          | some chomp => return (n, chomp, r)
          | none => return (n, .clip, cs)
        | [] => return (n, .clip, [])
      else some (0, .clip, c :: cs)

/-- The empty lines that come next, and the spaces at the beginning of the line after them, up to
`indent` if that is known. Answers the breaks, the deepest column reached and the cursor. -/
def emptyLines? (indent : Nat) : Nat → Cursor → Option (List Char × Nat × Cursor)
  | 0, _ => none
  | fuel + 1, c =>
    let spaces := (c.rest.takeWhile (· == ' ')).length
    let c := c.skip (if indent = 0 then spaces else min spaces (indent - c.column))
    let below := indent = 0 || c.column < indent
    match c.rest with
    | b :: _ =>
      if below && b == '\t' then none
      else if isBreak b then do
        let (breaks, deepest, c') ← emptyLines? indent fuel (c.skip 1)
        return (b :: breaks, max c.column deepest, c')
      else some ([], c.column, c)
    | [] => some ([], c.column, c)

/-- The lines of a block from the one at the cursor on. `last` is the break before it and `empty`
are those of the empty lines in between; `blank` tells whether the line before began with a
blank. -/
def blockLines? (folded : Bool) (indent : Nat) (chomp : Chomp) :
    Nat → Bool → List Char → List Char → Cursor → Option (List Char × Cursor)
  | 0, _, _, _, _ => none
  | fuel + 1, blank, last, empty, c =>
    if c.column ≠ indent || c.rest.isEmpty then some (chomp.tail last empty, c)
    else do
      let blank' := c.rest.head?.any isBlank
      let join :=
        if folded && last == ['\n'] && !blank && !blank' then if empty.isEmpty then [' '] else []
        else last
      let line := c.rest.takeWhile fun x => !isBreak x
      let c := c.skip line.length
      let last' := c.rest.take 1
      let (empty', _, c) ← emptyLines? indent (c.rest.length + 1) c.skipBreak
      let (more, c) ← blockLines? folded indent chomp fuel blank' last' empty' c
      return (join ++ empty ++ line ++ more, c)

/-- The block scalar that comes next, below a node at column `outer`. -/
def block? (folded : Bool) (outer : Int) (c : Cursor) : Option (List Char × Cursor) := do
  let (hint, chomp, rest) ← blockHints? (c.rest.drop 1)
  let rest := skipComment (rest.dropWhile isBlank)
  if !atBreak rest then none
  let c := (c.moveTo rest).skipBreak
  let given := if hint = 0 then 0 else (max outer 0).toNat + hint
  let (empty, deepest, c) ← emptyLines? given (c.rest.length + 1) c
  let indent := if given = 0 then max (max deepest (outer + 1).toNat) 1 else given
  blockLines? folded indent chomp (c.rest.length + 1) false [] empty c

end CredentialEngine.Yaml
