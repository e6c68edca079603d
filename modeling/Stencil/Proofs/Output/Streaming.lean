/-
The writer against the recursion on trees.

Without indentation all that counts of a writer of XML is its place and the
elements around it. Whatever contents are written from a place on, they bring
it to the place that `advance` says. Character data that is held back counts as
what its run is written as. So the events of a forest bring the writer to the
place behind the forest's text (`arrives_forest`), and how the character data
was cut into events does not matter, since the writer joins it.
-/
import Stencil.Proofs.Output.Chunks
import Stencil.Proofs.Output.Moves

namespace Stencil.Output

namespace Writer

-- ================================================================== states

/-- A writer of XML stands at a place in some elements, and holds a run of
character data back. -/
def Stands (ws : Whitespace) (around : List ElementName) (p : Place)
    (run : String) (w : Writer) : Prop :=
  ∃ opened, At .xml ws opened p run w ∧ Around .xml around opened

section

variable {ws : Whitespace} {around : List ElementName}
  {opened : List OpenElement} {p : Place} {run : String} {w : Writer}

/-- In no element of XML does character data stand as it is. -/
theorem Around.not_raw (h : Around .xml around opened) :
    opened.head?.any (·.raw) = false := by
  rw [h.head_raw]
  cases around <;> rfl

theorem newLineText_of_ne (hws : ws ≠ .indent) (s : String) (depth : Nat) :
    newLineText ws s depth = "" := by
  unfold newLineText
  rw [decide_eq_false hws]
  rfl

-- ================================================================== events

theorem stands_characters (h : Stands ws around p run w) (s : String) :
    Brings (accept (.characters s)) w (Stands ws around p (run ++ s)) := by
  obtain ⟨opened, hw, haround⟩ := h
  exact (at_characters hw s).mono fun w' hw' => ⟨opened, hw', haround⟩

/-- The start of an element is written behind the run before it, and its tag
stays open. -/
theorem stands_start (h : Stands ws around p run w) (hws : ws ≠ .indent)
    (name : ElementName) (attributes : List (String × String)) :
    Brings (accept (.start name attributes)) w
      (Stands ws (name :: around)
        ((advance p (runText ws run ++ startTag name.qualified attributes)).1,
          true) "") := by
  obtain ⟨opened, hw, haround⟩ := h
  have started := at_start hw name attributes
  rw [heldText_eq ws haround.not_raw] at started
  dsimp only at started
  rw [newLineText_of_ne hws, ite_self, String.append_empty] at started
  rw [advance_append, advance_of_ne (startTag_ne_empty _ _)]
  exact started.mono fun w' hw' => ⟨_, hw', .cons ⟨rfl, rfl, rfl⟩
    ((haround.noted ws run).modifyHead fun _ => ⟨rfl, rfl, rfl⟩)⟩

/-- The end of an element closes its start tag if that is still open, and is
written in full otherwise. -/
theorem stands_stop {name : ElementName}
    (h : Stands ws (name :: around) p run w) (hws : ws ≠ .indent) :
    Brings (accept (.stop name)) w
      (Stands ws around (ended (advance p (runText ws run)) name.qualified)
        "") := by
  obtain ⟨opened, hw, haround⟩ := h
  obtain ⟨e, es, ho, hname, hvoid, hes⟩ := haround.innermost ws run
  have stopped := at_stop hw ho hname
  rw [heldText_eq ws haround.not_raw] at stopped
  refine stopped.mono fun w' hw' => ⟨es, ?_, hes⟩
  generalize advance p (runText ws run) = q at hw' ⊢
  have hend : q.1 ++ stopText .xml ws e q es.length
      = (ended q name.qualified).1 := by
    have hvoid : e.void = false := hvoid
    unfold stopText
    rw [newLineText_of_ne hws, ite_self, String.empty_append, hvoid, hname]
    obtain ⟨s, tagOpen⟩ := q
    cases tagOpen with
    | true => rfl
    | false => exact congrArg (s ++ ·) String.empty_append
  rw [hend] at hw'
  exact hw'

/-- A section is written whole at its end. -/
theorem stands_cdata (h : Stands ws around p run w) (data : String) :
    Brings (acceptAll [.startCData, .characters data, .endCData]) w
      (Stands ws around (advance p (runText ws run ++ cdataSection data))
        "") := by
  obtain ⟨opened, hw, haround⟩ := h
  have written := at_cdata hw data
  rw [heldText_eq ws haround.not_raw] at written
  rw [advance_append, advance_of_ne (cdataSection_ne_empty data)]
  exact written.mono fun w' hw' => ⟨_, hw',
    (haround.noted ws run).modifyHead fun _ => ⟨rfl, rfl, rfl⟩⟩

/-- A document type as it is written. -/
theorem stands_doctype (h : Stands ws around p run w) (name : String)
    (publicId systemId : Option String) :
    Brings (acceptAll [.startDoctype name publicId systemId, .endDoctype]) w
      (Stands ws around
        (advance p (runText ws run ++ doctypeText name publicId systemId))
        "") := by
  obtain ⟨opened, hw, haround⟩ := h
  have written := at_doctype hw name publicId systemId
  rw [heldText_eq ws haround.not_raw] at written
  rw [advance_append, advance_of_ne (doctypeText_ne_empty name publicId systemId)]
  exact written.mono fun w' hw' => ⟨_, hw', haround.noted ws run⟩

-- ================================================================= forests

/-- The writer will stand at a place once what it holds back is written. -/
def Arrives (ws : Whitespace) (around : List ElementName) (p : Place)
    (w : Writer) : Prop :=
  ∃ q run, Stands ws around q run w ∧ advance q (runText ws run) = p

mutual

/-- What a piece that is no character data is written as. -/
theorem stands_piece (hws : ws ≠ .indent) {w : Writer} {around : List ElementName}
    {p : Place} {run : String} (h : Stands ws around p run w) :
    ∀ piece : Piece, (∀ s, piece ≠ .text s) →
      Brings (acceptAll piece.events) w
        (Stands ws around (advance p (runText ws run ++ piece.xml ws)) "")
  | .element name attributes children, _ => by
    rw [Piece.events, Piece.xml]
    refine brings_accept_all (stands_start h hws name attributes)
      fun w₁ h₁ => ?_
    refine brings_append (arrives_forest hws h₁ children)
      fun w₂ ⟨q, run', h₂, hq⟩ => ?_
    refine brings_accept_all (stands_stop h₂ hws) fun w₃ h₃ => brings_skip ?_
    have htag := startTag_ne_empty name.qualified attributes
    rw [hq, advance_append, advance_of_ne htag] at h₃
    -- the tag closes itself exactly if nothing was written inside
    rw [← String.append_assoc, advance_append p (runText ws run ++ _),
      advance_append, advance_of_ne htag, advance_closed, ← ended_advance]
    exact h₃
  | .text s, hs => absurd rfl (hs s)
  | .cdata s, _ => stands_cdata h s
  | .doctype name publicId systemId, _ =>
    stands_doctype h name publicId systemId
termination_by structural piece => piece

/-- The events of a forest bring the writer behind the text of the forest. -/
theorem arrives_forest (hws : ws ≠ .indent) {w : Writer} {around : List ElementName}
    {p : Place} {run : String} (h : Stands ws around p run w) :
    ∀ ps, Brings (acceptAll (forestEvents ps)) w
      (Arrives ws around (advance p (forestXml ws run ps)))
  | [] => brings_skip ⟨p, run, h, rfl⟩
  | piece :: ps => by
    have other (hpiece : ∀ s, piece ≠ .text s) :
        Brings (acceptAll (piece.events ++ forestEvents ps)) w
          (Arrives ws around (advance p
            (runText ws run ++ piece.xml ws ++ forestXml ws "" ps))) := by
      rw [advance_append]
      exact brings_append (stands_piece hws h piece hpiece)
        fun w₁ h₁ => arrives_forest hws h₁ ps
    cases piece with
    | text s =>
      exact brings_accept_all (stands_characters h s)
        fun w₁ h₁ => arrives_forest hws h₁ ps
    | element name attributes children => exact other nofun
    | cdata s => exact other nofun
    | doctype name publicId systemId => exact other nofun
termination_by structural ps => ps

end

-- =============================================================== documents

theorem stands_startDocument (ws : Whitespace) (declaration : Bool) :
    Brings (accept .startDocument) (.fresh .xml ws declaration none)
      (Stands ws [] (if declaration then xmlDeclaration else "", false) "") :=
  (at_startDocument .xml ws declaration).mono fun _ hw => ⟨[], hw, .nil⟩

/-- At the end of a document what is held back is written. -/
theorem stands_endDocument (h : Stands ws [] p run w) (hws : ws ≠ .indent) :
    Brings (accept .endDocument) w
      fun w' => w'.text = (advance p (runText ws run)).1 := by
  obtain ⟨opened, hw, haround⟩ := h
  obtain rfl := List.forall₂_nil_left_iff.1 haround
  refine (at_endDocument hw).mono fun w' htext => ?_
  rw [heldText_eq ws rfl, decide_eq_false hws] at htext
  rw [htext]
  exact String.append_empty

end

/-- The events of a document are written as the document's text. -/
theorem brings_document {ws : Whitespace} (hws : ws ≠ .indent)
    (declaration : Bool) (ps : List Piece) :
    Brings (acceptAll (documentEvents ps)) (.fresh .xml ws declaration none)
      fun w => w.text = documentXml ws declaration ps := by
  refine brings_accept_all (stands_startDocument ws declaration)
    fun w₁ h₁ => ?_
  refine brings_append (arrives_forest hws h₁ ps) fun w₂ ⟨q, run, h₂, hq⟩ => ?_
  refine brings_accept_all (stands_endDocument h₂ hws) fun w₃ h₃ => ?_
  refine brings_skip ?_
  rw [h₃, hq, advance_closed, documentXml]

/-- However the character data of a document comes, events that are those of
the document once it is joined are all taken, and written as the recursion on
the document's trees says. -/
theorem streamed_as_serialized (ws : Whitespace) (declaration : Bool)
    (ps : List Piece) (es : List Event) (hws : ws ≠ .indent)
    (hes : joined es = joined (documentEvents ps)) :
    ∃ w, acceptAll es (.fresh .xml ws declaration none) = .ok () w
      ∧ w.text = documentXml ws declaration ps := by
  obtain ⟨w, hw, htext⟩ := brings_document hws declaration ps
  refine ⟨w, ?_, htext⟩
  have hdeliver := deliver_eq (documentEvents ps)
    (.fresh .xml ws declaration none)
  rw [hw, ← Writer.joinsText.deliver_joined send_nothing, ← hes,
    Writer.joinsText.deliver_joined send_nothing, deliver_eq] at hdeliver
  cases hes : acceptAll es (.fresh .xml ws declaration none) with
  | ok _ w' =>
    rw [hes] at hdeliver
    cases hdeliver
    rfl
  | error e w' =>
    rw [hes] at hdeliver
    cases hdeliver

/-- Pieces with a section that holds its own closing mark, text that comes in
parts, white space alone, and an element of nothing. -/
def motley : List Piece :=
  let a : ElementName := ⟨none, "a", "a"⟩
  let b : ElementName := ⟨none, "b", "b"⟩
  [.element a [("x", "\"<")]
    [.text "t", .text "&", .cdata "]]>", .text " ", .element b [] [.text ""]]]

/-- White space alone is left out, and the data may be cut anywhere. -/
theorem streamed_motley :
    let a : ElementName := ⟨none, "a", "a"⟩
    let b : ElementName := ⟨none, "b", "b"⟩
    let es : List Event :=
      [.startDocument, .start a [("x", "\"<")], .characters "", .characters "t&",
        .startCData, .characters "]]", .characters ">", .endCData,
        .characters " ", .start b [], .stop b, .stop a, .endDocument]
    Whitespace.none ≠ .indent
    ∧ joined es = joined (documentEvents motley)
    ∧ ∃ w, acceptAll es (.fresh .xml .none false none) = .ok () w
      ∧ w.text
        = "<a x=\"&quot;&lt;\">t&amp;<![CDATA[]]]]><![CDATA[>]]><b/></a>" := by
  intro a b es
  have hes : joined es = joined (documentEvents motley) := by decide
  have hxml : documentXml .none false motley
      = "<a x=\"&quot;&lt;\">t&amp;<![CDATA[]]]]><![CDATA[>]]><b/></a>" := by
    decide +kernel
  refine ⟨nofun, hes, ?_⟩
  rw [← hxml]
  exact streamed_as_serialized .none false motley es nofun hes

end Writer

end Stencil.Output
