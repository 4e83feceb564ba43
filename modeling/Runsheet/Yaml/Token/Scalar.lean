import Runsheet.Yaml.Token

/-!
Reading scalars: words without quotes, texts in quotes, and blocks of lines. A scalar in several lines
is folded: one line break is read as a space, and of several all but the first are kept.
-/
namespace Runsheet

namespace Yaml

/-- The content of a scalar so far, and the white space after it, which counts only if more content
follows. -/
structure Folded where
  content : List Char := []
  blanks : List Char := []
  broken : Bool := false
  firstBreak : List Char := []
  laterBreaks : List Char := []

namespace Folded

/-- Takes in a space or a tab. At the start of a line it does not count. -/
def blank (f : Folded) (c : Char) : Folded :=
  if f.broken then f else { f with blanks := f.blanks ++ [c] }

def lineBreak (f : Folded) (c : Char) : Folded :=
  if f.broken then { f with laterBreaks := f.laterBreaks ++ [c] }
  else { f with blanks := [], firstBreak := [c], broken := true }

/-- What the white space after the content comes to when more content follows. -/
def joint (f : Folded) : List Char :=
  if !f.broken then f.blanks
  else if f.firstBreak == ['\n'] then
    if f.laterBreaks.isEmpty then [' '] else f.laterBreaks
  else f.firstBreak ++ f.laterBreaks

def settle (f : Folded) : Folded := { content := f.content ++ f.joint }

def add (f : Folded) (cs : List Char) : Folded := { f with content := f.content ++ cs }

end Folded

/-- Goes over white space. A tab is refused at the start of a line left of the given column. -/
def foldWhite (least : Nat) : (fuel : Nat) → Cursor → Folded → Option (Folded × Cursor)
  | 0, c, f => some (f, c)
  | fuel + 1, c, f =>
    match c.head? with
    | none => some (f, c)
    | some x =>
      if isSpaceOrTab x then
        if f.broken && c.column < least && x == '\t' then none
        else foldWhite least fuel (c.advance 1) (f.blank x)
      else
        match c.lineBreak? with
        | some (kept, next) => foldWhite least fuel next (f.lineBreak kept)
        | none => some (f, c)

/-- The characters of a word up to white space, to a colon before white space, and inside brackets to
one of `,?[]{}`. -/
def bareWord (inFlow : Bool) : List Char → List Char
  | [] => []
  | c :: rest =>
    if separates c || (c == ':' && rest.head?.all separates) ||
        (inFlow && ",?[]\x7b\x7d".toList.contains c) then []
    else c :: bareWord inFlow rest

/-- Reads a scalar without quotes: words on lines that are indented at least so far. -/
def plainWords (inFlow : Bool) (least : Nat) :
    (fuel : Nat) → Cursor → Folded → Option (Folded × Cursor)
  | 0, c, f => some (f, c)
  | fuel + 1, c, f =>
    if c.atDocumentMark || c.sees '#' then some (f, c)
    else
      let w := bareWord inFlow c.rest
      let f := if w.isEmpty then f else f.settle.add w
      let c := c.advance w.length
      if !c.head?.any separates then some (f, c)
      else
        match foldWhite least (c.rest.length + 1) c f with
        | none => none
        | some (f, c) =>
          if !inFlow && c.column < least then some (f, c) else plainWords inFlow least fuel c f

def escaped? (c : Char) : Option Char :=
  match c with
  | '0' => some (Char.ofNat 0)
  | 'a' => some (Char.ofNat 7)
  | 'b' => some (Char.ofNat 8)
  | 't' | '\t' => some '\t'
  | 'n' => some '\n'
  | 'v' => some (Char.ofNat 11)
  | 'f' => some (Char.ofNat 12)
  | 'r' => some '\r'
  | 'e' => some (Char.ofNat 27)
  | ' ' => some ' '
  | '"' => some '"'
  | '\'' => some '\''
  | '\\' => some '\\'
  | 'N' => some (Char.ofNat 0x85)
  | '_' => some (Char.ofNat 0xa0)
  | 'L' => some (Char.ofNat 0x2028)
  | 'P' => some (Char.ofNat 0x2029)
  | _ => none

def escapeWidth? (c : Char) : Option Nat :=
  match c with
  | 'x' => some 2
  | 'u' => some 4
  | 'U' => some 8
  | _ => none

def hexValue? (c : Char) : Option Nat :=
  if c.isDigit then some (c.toNat - 48)
  else if 'a' ≤ c ∧ c ≤ 'f' then some (c.toNat - 87)
  else if 'A' ≤ c ∧ c ≤ 'F' then some (c.toNat - 55)
  else none

def hexNumber? (width : Nat) (cs : List Char) : Option Nat :=
  if (cs.take width).length < width then none
  else (cs.take width).foldlM (fun n c => (hexValue? c).map (n * 16 + ·)) 0

/-- The character of an escape and the number of characters it takes after the backslash. -/
def escape? (cs : List Char) : Option (Char × Nat) :=
  match cs with
  | [] => none
  | c :: rest =>
    match escapeWidth? c with
    | some width =>
      match hexNumber? width rest with
      | some n => if n.isValidChar then some (Char.ofNat n, width + 1) else none
      | none => none
    | none => (escaped? c).map (·, 1)

def isOrdinary (double : Bool) (c : Char) : Bool :=
  !separates c && if double then c ≠ '"' && c ≠ '\\' else c ≠ '\''

/-- Reads the content of a text in quotes. The place after it is at the closing quote. -/
def quotedContent (double : Bool) : (fuel : Nat) → Cursor → Folded → Option (Folded × Cursor)
  | 0, _, _ => none
  | fuel + 1, c, f =>
    if c.atDocumentMark then none
    else
      match c.rest with
      | [] => none
      | x :: rest =>
        if separates x then
          match foldWhite 0 (c.rest.length + 1) c f with
          | some (f, c) => quotedContent double fuel c f
          | none => none
        else if !double && x == '\'' then
          if rest.head? == some '\'' then
            quotedContent double fuel (c.advance 2) (f.settle.add ['\''])
          else some (f.settle, c)
        else if double && x == '"' then some (f.settle, c)
        else if double && x == '\\' then
          match (c.advance 1).lineBreak? with
          | some (_, next) =>
            match foldWhite 0 (c.rest.length + 1) next { f.settle with broken := true } with
            | some (f, c) => quotedContent double fuel c f
            | none => none
          | none =>
            match escape? rest with
            | some (y, width) =>
              quotedContent double fuel (c.advance (width + 1)) (f.settle.add [y])
            | none => none
        else
          let run := c.rest.takeWhile (isOrdinary double)
          quotedContent double fuel (c.advance run.length) (f.settle.add run)

/-- What becomes of the line breaks at the end of a block. -/
inductive Chomping
  | strip
  | clip
  | keep
  deriving DecidableEq, Repr

def Chomping.ofChar? (c : Char) : Option Chomping :=
  if c = '-' then some .strip else if c = '+' then some .keep else none

/-- The marks after `|` or `>`: a chomping and a depth, in either order, and the place after
them. -/
def blockHeader (c : Cursor) : Option (Chomping × Nat × Cursor) :=
  let depth? (c : Cursor) : Option (Nat × Cursor) :=
    match c.head? with
    | some d =>
      if d == '0' then none
      else if d.isDigit then some (d.toNat - 48, c.advance 1)
      else some (0, c)
    | none => some (0, c)
  let chomping (c : Cursor) : Chomping × Cursor :=
    match c.head?.bind Chomping.ofChar? with
    | some m => (m, c.advance 1)
    | none => (.clip, c)
  let (before, c) := chomping c
  match depth? c with
  | none => none
  | some (depth, c) =>
    let (after, c) := if before == .clip then chomping c else (before, c)
    let c := c.skipBlanks
    let c := if c.sees '#' then c.skipLine else c
    match c.lineBreak? with
    | some (_, next) => some (after, depth, next)
    | none => if c.rest.isEmpty then some (after, depth, c) else none

/-- Goes over empty lines and the indentation after them. Without a known depth, the result also
tells how far the deepest of these lines is indented. A tab in place of indentation is refused. -/
def blockBreaks (depth : Nat) : (fuel : Nat) → (deepest : Nat) → Cursor → List Char →
    Option (Nat × List Char × Cursor)
  | 0, deepest, c, breaks => some (deepest, breaks, c)
  | fuel + 1, deepest, c, breaks =>
    let spaces := (c.rest.takeWhile (· == ' ')).length
    let c := c.advance (if depth = 0 then spaces else min spaces (depth - c.column))
    let deepest := max deepest c.column
    if (depth = 0 ∨ c.column < depth) ∧ c.sees '\t' then none
    else
      match c.lineBreak? with
      | some (kept, next) => blockBreaks depth fuel deepest next (breaks ++ [kept])
      | none => some (deepest, breaks, c)

/-- Reads the lines of a block. `blankBefore` tells whether the line before started with a blank:
line breaks next to such lines are not folded. -/
def blockLines (literal : Bool) (chomping : Chomping) (depth : Nat) : (fuel : Nat) →
    (content firstBreak laterBreaks : List Char) → (blankBefore : Bool) → Cursor →
    Option (List Char × Cursor)
  | 0, _, _, _, _, _ => none
  | fuel + 1, content, firstBreak, laterBreaks, blankBefore, c =>
    if c.column ≠ depth ∨ c.rest.isEmpty then
      some (match chomping with
        | .strip => content
        | .clip => content ++ firstBreak
        | .keep => content ++ firstBreak ++ laterBreaks, c)
    else
      let blank := c.head?.any isSpaceOrTab
      let joint :=
        if !literal && !blankBefore && !blank && firstBreak == ['\n'] then
          if laterBreaks.isEmpty then [' '] else laterBreaks
        else firstBreak ++ laterBreaks
      let line := c.rest.takeWhile (!isLineBreak ·)
      let stop := c.advance line.length
      let (firstBreak, next) := match stop.lineBreak? with
        | some (kept, next) => ([kept], next)
        | none => ([], stop)
      match blockBreaks depth (next.rest.length + 1) 0 next [] with
      | none => none
      | some (_, breaks, next) =>
        blockLines literal chomping depth fuel (content ++ joint ++ line) firstBreak breaks blank next

/-- Reads a block after its mark `|` or `>`. The indentation of the surrounding block is one less than
`outer`. -/
def blockScalar (literal : Bool) (outer : Nat) (c : Cursor) : Option (List Char × Cursor) :=
  match blockHeader c with
  | none => none
  | some (chomping, increment, c) =>
    let fixed := if increment = 0 then 0 else (outer - 1) + increment
    match blockBreaks fixed (c.rest.length + 1) 0 c [] with
    | none => none
    | some (deepest, breaks, c) =>
      let depth := if fixed = 0 then max (max deepest outer) 1 else fixed
      blockLines literal chomping depth (c.rest.length + 1) [] [] breaks false c

end Yaml

end Runsheet
