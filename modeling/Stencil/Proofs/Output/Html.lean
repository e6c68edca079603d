/-
The writer of HTML against the recursion on trees.

All white space being kept, every start tag is closed by its `>` in the end,
so what counts of a writer is its text once the tag is closed and what is held
back is written. Events add to this text what the recursion says, whatever
they stand in: that is `Shows`, which needs to know of the elements around
only which one is the innermost.
-/
import Stencil.Proofs.Output.Chunks
import Stencil.Proofs.Output.Moves

namespace Stencil.Output

/-- The innermost element is one whose character data stands as it is. -/
def isRaw (around : List ElementName) : Bool :=
  around.head?.any fun name => isOneOf rawElements name.localPart

theorem htmlText_append (raw : Bool) (s t : String) :
    htmlText raw (s ++ t) = htmlText raw s ++ htmlText raw t := by
  unfold htmlText
  split
  · rfl
  · exact escapeText_append s t

namespace Writer

/-- A writer of HTML stands in some elements, and its text is `s` once all of
it is written that is held back. Outside all elements no tag is open. -/
def Shows (around : List ElementName) (s : String) (w : Writer) : Prop :=
  ∃ opened p run, At .html .all opened p run w ∧ Around .html around opened
    ∧ p.1 ++ closing p.2 ++ htmlText (isRaw around) run = s
    ∧ (around = [] → p.2 = false)

section

variable {around : List ElementName} {opened : List OpenElement} {p : Place}
  {run s : String} {w : Writer}

-- ================================================================== states

theorem heldText_all (h : Around .html around opened) (run : String) :
    heldText .all opened run = htmlText (isRaw around) run := by
  unfold heldText htmlText
  rw [h.head_raw]
  split
  · rfl
  · next hempty =>
    have hrun : run = "" := by
      unfold keeps at hempty
      rw [show drops .all run = false from rfl, Bool.not_false, Bool.and_true,
        Bool.not_eq_true', Bool.not_eq_false] at hempty
      exact String.isEmpty_iff.1 hempty
    subst hrun
    split <;> rfl

/-- Behind what is held back the tag counts as closed either way. -/
theorem closed_advance (p : Place) (t : String) :
    (advance p t).1 ++ closing (advance p t).2 = p.1 ++ closing p.2 ++ t := by
  by_cases ht : t = ""
  · rw [ht, advance_nothing, String.append_empty]
  · rw [advance_of_ne ht]
    exact String.append_empty

/-- The text behind what is held back. -/
theorem shown_flushed (haround : Around .html around opened)
    (hs : p.1 ++ closing p.2 ++ htmlText (isRaw around) run = s) :
    (advance p (heldText .all opened run)).1
      ++ closing (advance p (heldText .all opened run)).2 = s := by
  rw [heldText_all haround, closed_advance, hs]

theorem htmlText_nothing (raw : Bool) : htmlText raw "" = "" := by
  cases raw <;> rfl

/-- Outside all elements no tag is open behind what is held back either. -/
theorem closed_outside (h : around = [] → p.2 = false) (t : String) :
    around = [] → (advance p t).2 = false := by
  intro hnone
  unfold advance
  split
  · exact h hnone
  · rfl

-- ================================================================== events

theorem shows_characters (h : Shows around s w) (t : String) :
    Brings (accept (.characters t)) w
      (Shows around (s ++ htmlText (isRaw around) t)) := by
  obtain ⟨opened, p, run, hw, haround, rfl, hclosed⟩ := h
  refine (at_characters hw t).mono fun w' hw' =>
    ⟨opened, p, run ++ t, hw', haround, ?_, hclosed⟩
  rw [htmlText_append, ← String.append_assoc]

theorem shows_start (h : Shows around s w) (name : ElementName)
    (attributes : List (String × String)) :
    Brings (accept (.start name attributes)) w
      (Shows (name :: around)
        (s ++ (startTag name.qualified attributes ++ ">"))) := by
  obtain ⟨opened, p, run, hw, haround, hs, -⟩ := h
  refine (at_start hw name attributes).mono fun w' hw' =>
    ⟨_, _, _, hw', .cons ⟨rfl, rfl, rfl⟩ ((haround.noted .all run).modifyHead
      fun _ => ⟨rfl, rfl, rfl⟩), ?_, nofun⟩
  have hline (t : String) (depth : Nat) : newLineText .all t depth = "" := rfl
  rw [hline, ite_self, htmlText_nothing, String.append_empty,
    String.append_empty, shown_flushed haround hs, String.append_assoc]
  rfl

/-- A void element has no end tag, whatever it holds. -/
theorem shows_stop {name : ElementName} (h : Shows (name :: around) s w) :
    Brings (accept (.stop name)) w
      (Shows around (s ++ if isOneOf voidElements name.localPart then ""
        else "</" ++ name.qualified ++ ">")) := by
  obtain ⟨opened, p, run, hw, haround, hs, -⟩ := h
  have hshown := shown_flushed haround hs
  obtain ⟨e, es, ho, hname, hvoid, hes⟩ := haround.innermost .all run
  refine (at_stop hw ho hname).mono fun w' hw' =>
    ⟨es, _, "", hw', hes, ?_, fun _ => rfl⟩
  generalize advance p (heldText .all opened run) = q at hshown ⊢
  have hend : stopText .html .all e q es.length
      = closing q.2 ++ if isOneOf voidElements name.localPart then ""
        else "</" ++ name.qualified ++ ">" := by
    have hline (t : String) (depth : Nat) : newLineText .all t depth = "" := rfl
    have hvoid : e.void = isOneOf voidElements name.localPart := hvoid
    unfold stopText
    rw [hline, ite_self, String.empty_append, hvoid, hname,
      decide_eq_false nofun, Bool.and_false, if_neg Bool.false_ne_true]
  rw [hend, htmlText_nothing, String.append_empty, ← hshown]
  show q.1 ++ (closing q.2 ++ _) ++ "" = _
  rw [String.append_empty, ← String.append_assoc]

theorem shows_cdata (h : Shows around s w) (data : String) :
    Brings (acceptAll [.startCData, .characters data, .endCData]) w
      (Shows around (s ++ Markup.escapeText data)) := by
  obtain ⟨opened, p, run, hw, haround, hs, -⟩ := h
  refine (at_cdata hw data).mono fun w' hw' =>
    ⟨_, _, "", hw', (haround.noted .all run).modifyHead fun _ => ⟨rfl, rfl, rfl⟩,
      ?_, fun _ => rfl⟩
  rw [htmlText_nothing, shown_flushed haround hs, String.append_empty]
  exact String.append_empty

theorem shows_doctype (h : Shows around s w) (name : String)
    (publicId systemId : Option String) :
    Brings (acceptAll [.startDoctype name publicId systemId, .endDoctype]) w
      (Shows around (s ++ doctypeText name publicId systemId)) := by
  obtain ⟨opened, p, run, hw, haround, hs, -⟩ := h
  refine (at_doctype hw name publicId systemId).mono fun w' hw' =>
    ⟨_, _, "", hw', haround.noted .all run, ?_, fun _ => rfl⟩
  rw [htmlText_nothing, shown_flushed haround hs, String.append_empty]
  exact String.append_empty

-- ================================================================= forests

mutual

/-- A piece is added to the text as its parent has it. -/
theorem shows_piece {around : List ElementName} {s : String} {w : Writer}
    (h : Shows around s w) : ∀ piece : Piece,
      Brings (acceptAll piece.events) w
        (Shows around (s ++ piece.html (isRaw around)))
  | .element name attributes children => by
    rw [Piece.events, Piece.html]
    refine brings_accept_all (shows_start h name attributes) fun w₁ h₁ => ?_
    refine brings_append (shows_forest h₁ children) fun w₂ h₂ => ?_
    refine brings_accept_all (shows_stop h₂) fun w₃ h₃ => brings_skip ?_
    have hraw : isRaw (name :: around) = isOneOf rawElements name.localPart :=
      rfl
    rw [hraw] at h₃
    simpa only [String.append_assoc] using h₃
  | .text t =>
    brings_accept_all (shows_characters h t) fun _ hw => brings_skip hw
  | .cdata data => shows_cdata h data
  | .doctype name publicId systemId => shows_doctype h name publicId systemId
termination_by structural piece => piece

theorem shows_forest {around : List ElementName} {s : String} {w : Writer}
    (h : Shows around s w) : ∀ ps,
      Brings (acceptAll (forestEvents ps)) w
        (Shows around (s ++ forestHtml (isRaw around) ps))
  | [] => by
    rw [forestHtml, String.append_empty]
    exact brings_skip h
  | piece :: ps => by
    rw [forestHtml, ← String.append_assoc]
    exact brings_append (shows_piece h piece) fun w₁ h₁ => shows_forest h₁ ps
termination_by structural ps => ps

end

end

-- =============================================================== documents

/-- The events of a document are written as the recursion on its pieces
says. -/
theorem brings_html (declaration : Bool) (ps : List Piece) :
    Brings (acceptAll (documentEvents ps)) (.fresh .html .all declaration none)
      fun w => w.text = forestHtml false ps := by
  refine brings_accept_all (at_startDocument .html .all declaration)
    fun w₁ h₁ => ?_
  have begun : Shows [] "" w₁ :=
    ⟨[], ("", false), "", h₁, .nil, by decide, fun _ => rfl⟩
  refine brings_append (shows_forest begun ps)
    fun w₂ ⟨opened, p, run, h₂, haround, hs, hclosed⟩ => ?_
  obtain rfl : opened = [] := List.forall₂_nil_left_iff.1 haround
  refine brings_accept_all (at_endDocument h₂) fun w₃ h₃ => brings_skip ?_
  have hshown := shown_flushed haround hs
  rw [closed_outside hclosed _ rfl] at hshown
  have hend : w₃.text = (advance p (heldText .all [] run)).1 ++ "" := h₃
  rw [hend, ← String.empty_append (s := forestHtml false ps)]
  exact hshown

/-- However the character data of a document comes, its events are all taken,
and written as HTML piece by piece: a void element as its start tag and its
contents, any other with both tags, text as it is in a script or a style sheet
and escaped everywhere else. A section is escaped everywhere. -/
theorem html_as_serialized (declaration : Bool) (ps : List Piece)
    (es : List Event) (hes : joined es = joined (documentEvents ps)) :
    ∃ w, acceptAll es (.fresh .html .all declaration none) = .ok () w
      ∧ w.text = forestHtml false ps := by
  obtain ⟨w, hw, htext⟩ := brings_html declaration ps
  exact ⟨w, acceptAll_of_joined hes hw, htext⟩

/-- A page with a void element that holds text, an empty element that is not
void, and the same data as a text and as a section of a script. -/
def page : List Piece :=
  let br : ElementName := ⟨none, "BR", "h:BR"⟩
  let p : ElementName := ⟨none, "p", "p"⟩
  let script : ElementName := ⟨none, "Script", "Script"⟩
  [.doctype "html" none none,
    .element p [("x", "\"<")]
      [.element br [] [.text " "], .text "1<2", .element p [] [],
        .element script [] [.text "1<", .text "2", .cdata "1<2"]]]

/-- The data may be cut anywhere. -/
theorem html_of_page :
    let br : ElementName := ⟨none, "BR", "h:BR"⟩
    let p : ElementName := ⟨none, "p", "p"⟩
    let script : ElementName := ⟨none, "Script", "Script"⟩
    let es : List Event :=
      [.startDocument, .startDoctype "html" none none, .endDoctype,
        .start p [("x", "\"<")], .start br [], .characters " ", .stop br,
        .characters "1", .characters "<2", .start p [], .stop p,
        .start script [], .characters "1<2", .startCData, .characters "1",
        .characters "<2", .endCData, .stop script, .stop p, .endDocument]
    joined es = joined (documentEvents page)
    ∧ ∃ w, acceptAll es (.fresh .html .all true none) = .ok () w
      ∧ w.text = "<!DOCTYPE html>\n<p x=\"&quot;&lt;\"><h:BR> 1&lt;2<p></p>"
        ++ "<Script>1<21&lt;2</Script></p>" := by
  intro br p script es
  have hes : joined es = joined (documentEvents page) := by decide
  have hhtml : forestHtml false page
      = "<!DOCTYPE html>\n<p x=\"&quot;&lt;\"><h:BR> 1&lt;2<p></p>"
        ++ "<Script>1<21&lt;2</Script></p>" := by
    decide +kernel
  refine ⟨hes, ?_⟩
  rw [← hhtml]
  exact html_as_serialized true page es hes

/-- In a script a section is escaped where a text is not. -/
theorem section_escaped_in_script :
    let script : ElementName := ⟨none, "script", "script"⟩
    let written (p : Piece) (s : String) : Prop :=
      ∃ w, acceptAll (documentEvents [.element script [] [p]])
          (.fresh .html .all false none) = .ok () w
        ∧ w.text = s
    written (.text "a<b") "<script>a<b</script>"
    ∧ written (.cdata "a<b") "<script>a&lt;b</script>" := by
  intro script written
  have shown (p : Piece) :=
    brings_html false [.element script [] [p]]
  obtain ⟨w₁, hw₁, htext₁⟩ := shown (.text "a<b")
  obtain ⟨w₂, hw₂, htext₂⟩ := shown (.cdata "a<b")
  exact ⟨⟨w₁, hw₁, htext₁.trans (by decide +kernel)⟩,
    ⟨w₂, hw₂, htext₂.trans (by decide +kernel)⟩⟩

end Writer

end Stencil.Output
