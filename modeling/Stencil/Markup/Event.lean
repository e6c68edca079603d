/-
The events of a source, in order: tags, stretches of text, references, and
the other markup a document keeps. Each event has the byte offset at which it
begins. Document type declarations and XML declarations give no event.

`scan` reads a source to its end or to the first fault of its markup. Whether
tags match is a question about the events, left to the tree builder.
-/
import Stencil.Markup.Tag
import Stencil.Text.Search

namespace Stencil.Markup

open Text (isSpace isBlank width breakOn? indexOf?)

inductive Event where
  /-- A start tag: all between `<` and `>`, less the `/` of an empty one. -/
  | start (tag : List Char) (empty : Bool)
  | stop (name : String)
  | text (s : String)
  | reference (name : List Char)
  | cdata (s : String)
  | comment (s : String)
  | instruction (target data : String)
deriving DecidableEq, Repr

/-- An event and the byte offset at which it begins. -/
structure Placed where
  offset : Nat
  event : Event
deriving DecidableEq, Repr

/-- The events up to the end, or up to a fault at an offset. -/
structure Scan where
  events : List Placed
  failure : Option (Nat × Fault)

def Scan.cons (e : Placed) (s : Scan) : Scan :=
  { s with events := e :: s.events }

-- ======================================================== pieces of markup

/-- What begins at a `<` or `&`: an event, if it gives one, and how many
characters it takes behind the first. -/
abbrev Piece := Except Fault (Option Event × Nat)

/-- A construct behind `skip` characters that runs to a closing pattern. -/
def delimited (what : Construct) (skip : Nat) (closer s : List Char)
    (event : List Char → Option Event) : Piece :=
  match indexOf? closer (s.drop skip) with
  | some i =>
    .ok (event ((s.drop skip).take i), skip + i + closer.length)
  | none => .error (.notClosed what)

/-- The number of characters of a tag before the `>` that closes it; a `>`
between quotes does not. -/
def tagLength : Option Char → List Char → Except Fault Nat
  | none, [] => .error (.notClosed .tag)
  | some quote, [] => .error (.quoteNotClosed quote)
  | none, c :: s =>
    if c = '>' then .ok 0
    else
      let inside := if c = '"' || c = '\'' then some c else none
      (tagLength inside s).map (· + 1)
  | some quote, c :: s =>
    let inside := if c = quote then none else some quote
    (tagLength inside s).map (· + 1)

/-- A start tag, its `<` taken. -/
def startPiece (s : List Char) : Piece := do
  let n ← tagLength none s
  let tag := s.take n
  if tag.getLast? = some '/' then .ok (some (.start tag.dropLast true), n + 1)
  else .ok (some (.start tag false), n + 1)

/-- The name of an end tag loses the space behind it; a name of nothing but
space is kept. -/
def endName (s : List Char) : List Char :=
  if s.all isSpace then s else (s.reverse.dropWhile isSpace).reverse

/-- An end tag, its `<` taken. -/
def endPiece (s : List Char) : Piece := do
  let n ← tagLength none s
  let name := endName ((s.take n).drop 1)
  .ok (some (.stop (String.ofList name)), n + 1)

/-- The target of an instruction ends at the first space. -/
def instructionTarget (s : List Char) : List Char :=
  s.takeWhile fun c => !isBlank c

/-- An instruction, or the XML declaration, which gives no event. -/
def instructionEvent (s : List Char) : Option Event :=
  if tagName s = ['x', 'm', 'l'] then none
  else
    let target := instructionTarget s
    some (.instruction (String.ofList target)
      (String.ofList (Text.trim (s.drop target.length))))

/-- An instruction that is never closed is blamed as the declaration it would
have been. -/
def unclosedInstruction (s : List Char) : Construct :=
  if s.take 3 = ['x', 'm', 'l'] then
    match s.drop 3 with
    | [] => .declaration
    | c :: _ => if isSpace c || c = '?' then .declaration else .instruction
  else .instruction

/-- An instruction, its `<?` taken. -/
def instructionPiece (s : List Char) : Piece :=
  if s.head? = some '>' then .error (.notClosed .instruction)
  else
    (delimited (unclosedInstruction s) 0 ['?', '>'] s instructionEvent).map
      fun (event, n) => (event, n + 1)

-- ================================================ document type declarations

/-- The number of characters of a declaration before the `>` that closes it,
as for tags; `none` if nothing does. -/
def quotedLength (s : List Char) : Option Nat := (tagLength none s).toOption

/-- A declaration in an internal subset, its `<` taken, and how many
characters it takes. -/
def subsetItem (s : List Char) : Option Nat :=
  if ['!', '-', '-'].isPrefixOf s then
    (indexOf? ['-', '-', '>'] (s.drop 3)).map (· + 6)
  else if ['?'].isPrefixOf s then
    (indexOf? ['?', '>'] (s.drop 1)).map (· + 3)
  else if "!ATTLIST".toList.isPrefixOf s || "!ENTITY".toList.isPrefixOf s
      || "!NOTATION".toList.isPrefixOf s then
    (quotedLength s).map (· + 1)
  else (indexOf? ['>'] s).map (· + 1)

/-- The number of characters through the `]` that closes an internal
subset. -/
def subsetLength (s : List Char) : Option Nat :=
  match s with
  | [] => none
  | c :: s =>
    if c = ']' then some 1
    else if c = '<' then
      (subsetItem s).bind fun n =>
        (subsetLength (s.drop n)).map (· + (n + 1))
    else (subsetLength s).map (· + 1)
termination_by s.length
decreasing_by
  all_goals
    simp only [List.length_drop, List.length_cons]
    omega

/-- The number of characters before the `>` that closes a document type
declaration. -/
def doctypeLength : Option Char → List Char → Option Nat
  | _, [] => none
  | some quote, c :: s =>
    (doctypeLength (if c = quote then none else some quote) s).map (· + 1)
  | none, c :: s =>
    if c = '>' then some 0
    else if c = '[' then
      (subsetLength s).bind fun n =>
        (indexOf? ['>'] (s.drop n)).map (· + (n + 1))
    else
      let inside := if c = '"' || c = '\'' then some c else none
      (doctypeLength inside s).map (· + 1)

/-- A document type declaration, its `<!` taken; it needs a name and gives no
event. -/
def doctypePiece (s : List Char) : Piece :=
  match doctypeLength none s with
  | none => .error (.notClosed .doctype)
  | some n =>
    if !Text.sameIgnoringCase (s.take 7) "doctype".toList || n < 7 then
      .error (.notClosed .doctype)
    else if ((s.take n).drop 7).all isSpace then .error .doctypeWithoutName
    else .ok (none, n + 2)

-- ================================================================ scanning

/-- Markup that begins with `<!`, which is taken. -/
def bangPiece (s : List Char) : Piece :=
  match s with
  | '[' :: _ =>
    if "[CDATA[".toList.isPrefixOf s then
      (delimited .cdata 7 [']', ']', '>'] s
        fun t => some (.cdata (String.ofList t))).map
          fun (event, n) => (event, n + 1)
    else .error (.notClosed .cdata)
  | '-' :: _ =>
    if ['-', '-'].isPrefixOf s then
      (delimited .comment 2 ['-', '-', '>'] s
        fun t => some (.comment (String.ofList t))).map
          fun (event, n) => (event, n + 1)
    else .error (.notClosed .comment)
  | c :: _ =>
    if c = 'D' || c = 'd' then doctypePiece s else .error .unknownMarkup
  | [] => .error .unknownMarkup

/-- Markup, its `<` taken. -/
def markupPiece (s : List Char) : Piece :=
  match s with
  | '!' :: r => bangPiece r
  | '?' :: r => instructionPiece r
  | '/' :: _ => endPiece s
  | s => startPiece s

/-- A reference in character data, its `&` taken. -/
def referencePiece (s : List Char) : Piece :=
  let name := s.takeWhile fun c => c != ';' && c != '&' && c != '<'
  if (s.drop name.length).head? = some ';' then
    .ok (some (.reference name), name.length + 1)
  else .error .referenceNotClosed

/-- Text runs to the next markup or reference. -/
def isTextChar (c : Char) : Bool := c != '<' && c != '&'

/-- What begins with character `c` before `s`. -/
def piece (c : Char) (s : List Char) : Piece :=
  if c = '<' then markupPiece s
  else if c = '&' then referencePiece s
  else
    let more := s.takeWhile isTextChar
    .ok (some (.text (String.ofList (c :: more))), more.length)

/-- Scans from byte offset `pos` on. -/
def scanFrom (pos : Nat) (s : List Char) : Scan :=
  match s with
  | [] => ⟨[], none⟩
  | c :: s =>
    match piece c s with
    | .error fault => ⟨[], some (pos, fault)⟩
    | .ok (event, n) =>
      let rest := scanFrom (pos + width (c :: s.take n)) (s.drop n)
      match event with
      | some e => rest.cons ⟨pos, e⟩
      | none => rest
termination_by s.length
decreasing_by
  simp only [List.length_drop, List.length_cons]
  omega

/-- A mark of byte order before a source is no part of it. -/
def withoutMark : List Char → List Char
  | c :: s => if c = '\ufeff' then s else c :: s
  | [] => []

/-- The events of a source. -/
def scan (source : List Char) : Scan := scanFrom 0 (withoutMark source)

end Stencil.Markup
