/-
Output that is written, read and written again.

What is written of a root element is its layout, which is read back with the
events of the element laid out (`events_of_written`). The layout of that is the
same again, since white space that was put in is taken out before it is put in
once more. So the second text is the first.
-/
import Stencil.Proofs.Output.Indentation
import Stencil.Proofs.Output.Replay

namespace Stencil.Output

open Markup (Context Tree)

-- ================================================================= root elements

/-- The contents of a root element as they are laid out. -/
def laidInside (w : Whitespace) (children : List Piece) : List Piece :=
  if w = .indent then indent 1 .inside (settle .indent "" children)
  else settle w "" children

/-- What is laid out behind a root element: an indented document ends with its
last line. -/
def lastLine (w : Whitespace) : String := if w = .indent then "\n" else ""

theorem allBlank_lastLine (w : Whitespace) :
    Text.allBlank (lastLine w) = true := by
  cases w <;> decide

section

variable (w : Whitespace) (name : ElementName)
  (attributes : List (String × String)) (children : List Piece)

theorem laidOut_root :
    laidOut w [.element name attributes children]
      = .element name attributes (laidInside w children)
        :: runPieces .all (lastLine w) := by
  cases w <;> rfl

/-- The text of a layout of a root element. -/
theorem documentXml_laidOut (declaration : Bool) :
    documentXml .all declaration (laidOut w [.element name attributes children])
      = documentXml .all declaration
        [.element name attributes (laidInside w children),
          .text (lastLine w)] := by
  have hline : forestXml .all "" [.text (lastLine w)]
      = runText .all (lastLine w) := by
    show runText .all ("" ++ lastLine w) = _
    rw [String.empty_append]
  unfold documentXml
  rw [laidOut_root, forestXml_cons, forestXml_runPieces, forestXml_cons, hline]

/-- Contents that are laid out stay as they are. -/
theorem laidInside_laidInside :
    laidInside w (laidInside w children) = laidInside w children := by
  unfold laidInside
  split
  · rw [settle_indent]
  · exact settle_settle w "" children

theorem readable_laidInside {ctx : Context}
    (h : (Piece.element name attributes children).Readable ctx) :
    (Piece.element name attributes (laidInside w children)).Readable ctx := by
  obtain ⟨htag, he, hin⟩ := h
  refine ⟨htag, he, ?_⟩
  unfold laidInside
  split
  · exact readable_indent 1 .inside (readable_settle .indent "" hin)
  · exact readable_settle w "" hin

end

namespace Writer

/-- Under every option a document that is a root element alone is written as it
is laid out. -/
theorem brings_laidOut (w : Whitespace) (declaration : Bool) (name : ElementName)
    (attributes : List (String × String)) (children : List Piece) :
    Brings (acceptAll (documentEvents [.element name attributes children]))
      (.fresh .xml w declaration none)
      fun w' => w'.text = documentXml .all declaration
        (laidOut w [.element name attributes children]) := by
  by_cases hw : w = .indent
  · subst hw
    exact brings_indented declaration [] [] name attributes children nofun
  · refine (brings_document hw declaration _).mono fun w' htext => ?_
    unfold laidOut documentXml
    rw [if_neg hw, forestXml_settle]
    exact htext

/-- A readable root element is written to a text that is parsed, and what is
parsed is written to the same text. -/
theorem written_again (ws : Whitespace) (declaration : Bool) (name : ElementName)
    (attributes : List (String × String)) (children : List Piece)
    (h : (Piece.element name attributes children).Readable [[]]) :
    ∃ w t w', acceptAll (documentEvents [.element name attributes children])
        (.fresh .xml ws declaration none) = .ok () w
      ∧ Tree.parse w.text.toList = .ok t
      ∧ acceptAll (documentEvents (documentPieces t))
          (.fresh .xml ws declaration none) = .ok () w'
      ∧ w'.text = w.text := by
  obtain ⟨w, hw, htext⟩ := brings_laidOut ws declaration name attributes children
  obtain ⟨w', hw', htext'⟩ := brings_laidOut ws declaration name attributes
    (laidInside ws children)
  rw [documentXml_laidOut] at htext htext'
  obtain ⟨t, ht, hevents⟩ := events_of_written declaration
    (allBlank_lastLine ws) (readable_laidInside ws name attributes children h)
  have hforest : forestEvents
      [.element name attributes (laidInside ws children)]
      = (Piece.element name attributes (laidInside ws children)).events :=
    List.append_nil _
  -- what is parsed differs from what was laid out in how its texts are cut
  have hjoined : joined (documentEvents (documentPieces t))
      = joined (documentEvents
        [.element name attributes (laidInside ws children)]) := by
    unfold documentEvents
    rw [hforest]
    exact ((hevents.append [.endDocument]).cons .startDocument).joined_eq
  refine ⟨w, t, w', hw, ?_, acceptAll_of_joined hjoined hw', ?_⟩
  · rw [htext]
    exact ht
  · rw [htext', htext, laidInside_laidInside]

end Writer

end Stencil.Output
