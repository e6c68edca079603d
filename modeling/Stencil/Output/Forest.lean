/-
Output as trees: the events that trees give, and the text that trees have in
XML and in HTML, each by recursion on the trees.

The writer reaches the same text from the events alone, one after another.
-/
import Stencil.Output.Writer

namespace Stencil.Output

/-- A piece of a document's contents. -/
inductive Piece where
  | element (name : ElementName) (attributes : List (String × String))
      (children : List Piece)
  | text (s : String)
  | cdata (s : String)
  | doctype (name : String) (publicId systemId : Option String)

-- ================================================================ events

mutual

/-- The events of a piece. -/
def Piece.events : Piece → List Event
  | .element name attributes children =>
    .start name attributes :: (forestEvents children ++ [.stop name])
  | .text s => [.characters s]
  | .cdata s => [.startCData, .characters s, .endCData]
  | .doctype name publicId systemId =>
    [.startDoctype name publicId systemId, .endDoctype]

/-- The events of pieces in order. -/
def forestEvents : List Piece → List Event
  | [] => []
  | p :: ps => p.events ++ forestEvents ps

end

/-- The events of a whole document. -/
def documentEvents (ps : List Piece) : List Event :=
  .startDocument :: (forestEvents ps ++ [.endDocument])

/-- Every element that is started is stopped, sections of character data and
document types are whole, and nothing else stands between. -/
def Balanced (es : List Event) : Prop := ∃ ps, es = forestEvents ps

theorem forestEvents_append (ps qs : List Piece) :
    forestEvents (ps ++ qs) = forestEvents ps ++ forestEvents qs := by
  induction ps with
  | nil => rfl
  | cons p ps ih =>
    simp only [List.cons_append, forestEvents, ih, List.append_assoc]

theorem balanced_nil : Balanced [] := ⟨[], rfl⟩

theorem Balanced.append {es fs : List Event} (he : Balanced es)
    (hf : Balanced fs) : Balanced (es ++ fs) := by
  obtain ⟨ps, rfl⟩ := he
  obtain ⟨qs, rfl⟩ := hf
  exact ⟨ps ++ qs, (forestEvents_append ps qs).symm⟩

/-- Between the two ends of an element stands what is balanced. -/
theorem Balanced.element {es : List Event} (he : Balanced es)
    (name : ElementName) (attributes : List (String × String)) :
    Balanced (.start name attributes :: (es ++ [.stop name])) := by
  obtain ⟨ps, rfl⟩ := he
  exact ⟨[.element name attributes ps], by simp [forestEvents, Piece.events]⟩

-- ============================================================ joined texts

/-- Character data directly behind character data joins it; no data is no
event. -/
def joinFrom (pending : String) : List Event → List Event
  | [] => if pending.isEmpty then [] else [.characters pending]
  | .characters s :: es => joinFrom (pending ++ s) es
  | e :: es =>
    if pending.isEmpty then e :: joinFrom "" es
    else .characters pending :: e :: joinFrom "" es

/-- The events with runs of character data made one event each. -/
def joined (es : List Event) : List Event := joinFrom "" es

-- =================================================================== XML

/-- A run of character data as XML; one of white space alone is dropped
unless all white space is kept. -/
def runText (w : Whitespace) (run : String) : String :=
  if Writer.drops w run then "" else Markup.escapeText run

mutual

/-- A piece as XML, when nothing is indented. An element whose contents are
written as nothing is closed in its start tag. -/
def Piece.xml (w : Whitespace) : Piece → String
  | .element name attributes children =>
    let contents := forestXml w "" children
    Writer.startTag name.qualified attributes
      ++ (if contents.isEmpty then "/>"
        else ">" ++ contents ++ "</" ++ name.qualified ++ ">")
  | .text s => runText w s
  | .cdata s => Writer.cdataSection s
  | .doctype name publicId systemId =>
    "<!DOCTYPE " ++ name ++ Writer.externalId publicId systemId ++ ">\n"

/-- Pieces as XML behind a run of character data. -/
def forestXml (w : Whitespace) (run : String) : List Piece → String
  | [] => runText w run
  | p :: ps =>
    match p with
    | .text s => forestXml w (run ++ s) ps
    | p => runText w run ++ p.xml w ++ forestXml w "" ps

end

/-- A whole document as XML. -/
def documentXml (w : Whitespace) (declaration : Bool) (ps : List Piece) :
    String :=
  (if declaration then Writer.xmlDeclaration else "") ++ forestXml w "" ps

-- ================================================================== HTML

/-- Character data as HTML; in a script or a style sheet it stands as it
is. -/
def htmlText (raw : Bool) (s : String) : String :=
  if raw then s else Markup.escapeText s

mutual

/-- A piece as HTML, all white space kept. Elements that are void have no end
tag, all others have one. -/
def Piece.html (raw : Bool) : Piece → String
  | .element name attributes children =>
    Writer.startTag name.qualified attributes ++ ">"
      ++ forestHtml (isOneOf rawElements name.localPart) children
      ++ (if isOneOf voidElements name.localPart then ""
        else "</" ++ name.qualified ++ ">")
  | .text s => htmlText raw s
  | .cdata s => Markup.escapeText s
  | .doctype name publicId systemId =>
    "<!DOCTYPE " ++ name ++ Writer.externalId publicId systemId ++ ">\n"

def forestHtml (raw : Bool) : List Piece → String
  | [] => ""
  | p :: ps => p.html raw ++ forestHtml raw ps

end

end Stencil.Output
