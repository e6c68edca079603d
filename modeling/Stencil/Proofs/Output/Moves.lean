/-
What each event does to a writer.

Let the destination take everything. Then all that decides about what comes
next is which elements are open and what they have held, the place the writer
is at, and the run it holds back: that is `At`. Each event moves the writer
from one such state to another, in either dialect and under every option for
white space. The recursions on trees are compared with these moves.
-/
import Mathlib.Data.List.Forall2
import Stencil.Proofs.Output.Layout
import Stencil.Proofs.Output.Places

namespace Stencil.Output

-- =========================================================== open elements

namespace OpenElement

def withText (e : OpenElement) : OpenElement := { e with hasText := true }

def withElements (e : OpenElement) : OpenElement :=
  { e with hasElements := true }

/-- An element that has just been opened. -/
def new (d : Dialect) (name : ElementName) : OpenElement :=
  let html := d = .html
  { name := name.qualified
    hasElements := false
    hasText := false
    void := html && isOneOf voidElements name.localPart
    raw := html && isOneOf rawElements name.localPart }

end OpenElement

namespace Writer

-- ================================================================== states

/-- Nothing stands on the last line of the text. -/
def onNewLine (s : String) : Bool :=
  s.isEmpty || s.toList.getLast? == some '\n'

/-- What the writer puts before what goes to a new line. -/
def newLineText (ws : Whitespace) (s : String) (depth : Nat) : String :=
  if ws = .indent && !s.isEmpty then lineText (onNewLine s) depth else ""

/-- A run as it is written into the innermost of the open elements. -/
def heldText (ws : Whitespace) (opened : List OpenElement) (run : String) :
    String :=
  if keeps ws run then
    if opened.head?.any (·.raw) then run else Markup.escapeText run
  else ""

/-- The open elements when a run has been written, or dropped. -/
def noted (ws : Whitespace) (run : String) (opened : List OpenElement) :
    List OpenElement :=
  if keeps ws run then opened.modifyHead OpenElement.withText else opened

/-- The open elements are those that were opened by these names, innermost
first, whatever they have held since. -/
def Around (d : Dialect) (around : List ElementName)
    (opened : List OpenElement) : Prop :=
  List.Forall₂ (fun name (e : OpenElement) => e.name = name.qualified
    ∧ e.void = (OpenElement.new d name).void
    ∧ e.raw = (OpenElement.new d name).raw) around opened

section

variable {d : Dialect} {around : List ElementName} {opened : List OpenElement}

theorem Around.head_raw (h : Around d around opened) :
    opened.head?.any (·.raw)
      = around.head?.any fun name => (OpenElement.new d name).raw := by
  cases h with
  | nil => rfl
  | cons h _ => exact h.2.2

/-- What an element has held is no matter. -/
theorem Around.modifyHead (h : Around d around opened)
    {f : OpenElement → OpenElement}
    (hf : ∀ e, (f e).name = e.name ∧ (f e).void = e.void
      ∧ (f e).raw = e.raw) : Around d around (opened.modifyHead f) := by
  cases h with
  | nil => exact .nil
  | @cons name e names es h hs =>
    obtain ⟨hname, hvoid, hraw⟩ := hf e
    refine .cons ⟨?_, ?_, ?_⟩ hs
    · rw [hname]
      exact h.1
    · rw [hvoid]
      exact h.2.1
    · rw [hraw]
      exact h.2.2

theorem Around.noted (h : Around d around opened) (ws : Whitespace)
    (run : String) : Around d around (noted ws run opened) := by
  unfold Writer.noted
  split
  · exact h.modifyHead fun _ => ⟨rfl, rfl, rfl⟩
  · exact h

/-- The innermost element behind a run. -/
theorem Around.innermost {name : ElementName}
    (h : Around d (name :: around) opened) (ws : Whitespace) (run : String) :
    ∃ e es, Writer.noted ws run opened = e :: es ∧ e.name = name.qualified
      ∧ e.void = (OpenElement.new d name).void ∧ Around d around es := by
  obtain ⟨e, es, ⟨hname, hvoid, -⟩, hes, heq⟩ :=
    List.forall₂_cons_left_iff.1 (h.noted ws run)
  exact ⟨e, es, heq, hname, hvoid, hes⟩

end

/-- Where nothing stands as it is, a run is written as always. -/
theorem heldText_eq (ws : Whitespace) {opened : List OpenElement}
    (hraw : opened.head?.any (·.raw) = false) (run : String) :
    heldText ws opened run = runText ws run := by
  unfold heldText
  rw [hraw, if_neg Bool.false_ne_true]
  split
  · next hkeeps => exact (runText_of_keeps hkeeps).symm
  · next hkeeps => exact (runText_of_not_keeps (Bool.eq_false_iff.2 hkeeps)).symm

/-- What the writer does next depends on this alone, if its destination takes
everything and it is in no CDATA section. -/
structure At (d : Dialect) (ws : Whitespace) (opened : List OpenElement)
    (p : Place) (run : String) (w : Writer) : Prop where
  dialect : w.dialect = d
  whitespace : w.whitespace = ws
  room : w.room = none
  outside : w.inCData = false
  unheld : w.cdata = ""
  filled : ∀ s ∈ w.chunks, s ≠ ""
  opened : w.opened = opened
  text : w.text = p.1
  tagOpen : w.tagOpen = p.2
  pending : w.pending = run

section

variable {d : Dialect} {ws : Whitespace} {opened : List OpenElement}
  {p : Place} {run : String} {w : Writer}

-- ================================================================= actions

theorem at_write (h : At d ws opened p run w) (s : String) :
    Brings (write s) w (At d ws opened (p.1 ++ s, p.2) run) := by
  by_cases hs : s.isEmpty
  · refine ⟨w, if_pos hs, { h with text := ?_ }⟩
    rw [String.isEmpty_iff.1 hs, String.append_empty]
    exact h.text
  · refine ⟨{ w with chunks := s :: w.chunks }, ?_,
      { h with filled := ?_, text := ?_ }⟩
    · unfold write
      rw [if_neg hs, h.room]
    · intro t ht
      rcases List.mem_cons.1 ht with rfl | ht
      · intro he
        exact hs (String.isEmpty_iff.2 he)
      · exact h.filled t ht
    · rw [text_write, h.text]

theorem at_closeTag (h : At d ws opened p run w) :
    Brings closeTag w (At d ws opened (p.1 ++ closing p.2, false) run) := by
  unfold closeTag
  refine brings_get ?_
  obtain ⟨s, tagOpen⟩ := p
  rw [h.tagOpen]
  cases tagOpen with
  | true =>
    have closed : At d ws opened (s, false) run { w with tagOpen := false } :=
      { h with tagOpen := rfl }
    exact brings_seq (brings_modify closed) fun _ hw => at_write hw ">"
  | false =>
    refine brings_skip ?_
    show At d ws opened (s ++ "", false) run w
    rw [String.append_empty]
    exact h

theorem at_onInnermost (h : At d ws opened p run w)
    (f : OpenElement → OpenElement) :
    Brings (onInnermost f) w (At d ws (opened.modifyHead f) p run) := by
  refine brings_modify ?_
  have hopened := h.opened
  split
  · next hnone =>
    rw [hnone] at hopened
    rw [← hopened]
    exact { h with opened := hnone }
  · next e es hcons =>
    rw [hcons] at hopened
    rw [← hopened]
    exact { h with opened := rfl }

/-- The last chunk says what stands on the last line. -/
theorem atLineStart_eq (h : ∀ s ∈ w.chunks, s ≠ "") :
    w.atLineStart = onNewLine w.text := by
  unfold atLineStart Writer.text
  cases hchunks : w.chunks with
  | nil => decide
  | cons s rest =>
    have hs : s ≠ "" := h s (by rw [hchunks]; exact List.mem_cons_self)
    have hlist : s.toList ≠ [] := fun he =>
      hs (String.toList_injective he)
    have hjoin : String.join (s :: rest).reverse
        = String.join rest.reverse ++ s := by
      unfold String.join
      rw [List.reverse_cons, List.foldl_append]
      rfl
    have hempty : (String.join rest.reverse ++ s).isEmpty = false := by
      rw [Bool.eq_false_iff]
      intro he
      exact hs (String.append_eq_empty_iff.1 (String.isEmpty_iff.1 he)).2
    show (s.toList.getLast? == some '\n')
      = onNewLine (String.join (s :: rest).reverse)
    unfold onNewLine
    rw [hjoin, hempty, String.toList_append, List.getLast?_append,
      List.getLast?_eq_some_getLast hlist]
    rfl

theorem isEmpty_chunks (h : ∀ s ∈ w.chunks, s ≠ "") :
    w.chunks.isEmpty = w.text.isEmpty := by
  unfold Writer.text
  cases hchunks : w.chunks with
  | nil => rfl
  | cons s rest =>
    have hs : s ≠ "" := h s (by rw [hchunks]; exact List.mem_cons_self)
    symm
    show (String.join (s :: rest).reverse).isEmpty = false
    rw [Bool.eq_false_iff]
    intro he
    unfold String.join at he
    rw [List.reverse_cons, List.foldl_append] at he
    exact hs (String.append_eq_empty_iff.1 (String.isEmpty_iff.1 he)).2

theorem at_newLine (h : At d ws opened p run w) (depth : Nat) :
    Brings (newLine depth) w
      (At d ws opened (p.1 ++ newLineText ws p.1 depth, p.2) run) := by
  unfold newLine newLineText
  refine brings_get ?_
  rw [h.whitespace, isEmpty_chunks h.filled, atLineStart_eq h.filled, h.text]
  split
  · exact at_write h _
  · refine brings_skip ?_
    rw [String.append_empty]
    exact h

theorem at_flush (h : At d ws opened p run w) :
    Brings flush w
      (At d ws (noted ws run opened) (advance p (heldText ws opened run))
        "") := by
  unfold flush
  refine brings_get ?_
  have hpending : w.pending = run := h.pending
  rw [hpending]
  -- nothing is pending, or it is dropped, or it is written as text
  by_cases hrun : run = ""
  · subst hrun
    exact brings_skip h
  have hfilled : (!run.isEmpty) = true := by
    rw [Bool.not_eq_true', Bool.eq_false_iff]
    exact fun he => hrun (String.isEmpty_iff.1 he)
  have hkeeps : keeps ws run = !drops ws run := by
    unfold keeps
    rw [hfilled, Bool.true_and]
  rw [if_pos hfilled]
  have emptied : At d ws opened p "" { w with pending := "" } :=
    { h with pending := rfl }
  refine brings_seq (brings_modify emptied) fun w₁ h₁ => brings_get ?_
  unfold noted heldText
  rw [h₁.whitespace, hkeeps]
  split
  · have hheld : (if opened.head?.any (·.raw) then run
        else Markup.escapeText run) ≠ "" := by
      split
      · exact hrun
      · exact escapeText_ne_empty hrun
    rw [advance_of_ne hheld]
    refine brings_seq (at_closeTag h₁) fun w₂ h₂ => brings_get ?_
    rw [h₂.opened]
    exact brings_seq (at_onInnermost h₂ OpenElement.withText)
      fun w₃ h₃ => at_write h₃ _
  · exact brings_skip h₁

-- ================================================================== events

theorem at_characters (h : At d ws opened p run w) (s : String) :
    Brings (accept (.characters s)) w (At d ws opened p (run ++ s)) := by
  refine brings_modify ?_
  have houtside : ¬ w.inCData = true := by
    rw [h.outside]
    exact Bool.false_ne_true
  rw [if_neg houtside]
  exact { h with pending := congrArg (· ++ s) h.pending }

/-- The start of an element goes to a new line, unless character data stands
before it. -/
theorem at_start (h : At d ws opened p run w) (name : ElementName)
    (attributes : List (String × String)) :
    let q := advance p (heldText ws opened run)
    let o := noted ws run opened
    let s := q.1 ++ closing q.2
    Brings (accept (.start name attributes)) w
      (At d ws (.new d name :: o.modifyHead OpenElement.withElements)
        (s ++ (if o.head?.any (·.hasText) then ""
            else newLineText ws s o.length)
          ++ startTag name.qualified attributes, true) "") := by
  intro q o s
  refine brings_seq (at_flush h) fun w₁ h₁ => ?_
  refine brings_seq (at_closeTag h₁) fun w₂ h₂ => brings_get ?_
  rw [h₂.opened, h₂.dialect]
  -- with a new line or without one, the rest is the same
  have opens {s : String} {w₃ : Writer} (h₃ : At d ws o (s, false) "" w₃) :
      Brings (do
          onInnermost fun e => { e with hasElements := true }
          write (startTag name.qualified attributes)
          modify fun w =>
            { w with tagOpen := true, opened := .new d name :: w.opened }) w₃
        (At d ws (.new d name :: o.modifyHead OpenElement.withElements)
          (s ++ startTag name.qualified attributes, true) "") := by
    refine brings_seq (at_onInnermost h₃ OpenElement.withElements)
      fun w₄ h₄ => ?_
    refine brings_seq (at_write h₄ _) fun w₅ h₅ => brings_modify ?_
    exact
      { h₅ with
        opened := congrArg (OpenElement.new d name :: ·) h₅.opened
        tagOpen := rfl }
  cases hdata : o.head?.any (·.hasText) with
  | true =>
    rw [if_pos rfl, String.append_empty]
    exact opens h₂
  | false =>
    rw [if_neg Bool.false_ne_true]
    exact brings_seq (at_newLine h₂ _) fun w₃ h₃ => opens h₃

/-- What stands at the end of an element, at a place so deep. -/
def stopText (d : Dialect) (ws : Whitespace) (e : OpenElement) (p : Place)
    (depth : Nat) : String :=
  if p.2 && d = .xml then "/>"
  else
    closing p.2 ++ if e.void then ""
      else
        (if e.hasElements && !e.hasText then
            newLineText ws (p.1 ++ closing p.2) depth else "")
          ++ ("</" ++ e.name ++ ">")

theorem at_stop {name : ElementName} {e : OpenElement} {es : List OpenElement}
    (h : At d ws opened p run w) (hopened : noted ws run opened = e :: es)
    (hname : e.name = name.qualified) :
    let q := advance p (heldText ws opened run)
    Brings (accept (.stop name)) w
      (At d ws es (q.1 ++ stopText d ws e q es.length, false) "") := by
  intro q
  refine brings_seq (at_flush h) fun w₁ h₁ => brings_get ?_
  rw [h₁.opened, hopened]
  dsimp only
  rw [if_pos hname]
  have left : At d ws es q "" { w₁ with opened := es } :=
    { h₁ with opened := rfl }
  refine brings_seq (brings_modify left) fun w₂ h₂ => brings_get ?_
  unfold stopText
  rw [h₂.tagOpen, h₂.dialect, h₂.opened]
  split
  -- nothing was written inside, so the start tag closes itself
  · have closed : At d ws es (q.1, false) "" { w₂ with tagOpen := false } :=
      { h₂ with tagOpen := rfl }
    exact brings_seq (brings_modify closed) fun _ hw => at_write hw "/>"
  · refine brings_seq (at_closeTag h₂) fun w₃ h₃ => ?_
    rw [← String.append_assoc]
    cases hvoid : e.void with
    | true =>
      refine brings_skip ?_
      rw [if_pos rfl, String.append_empty]
      exact h₃
    | false =>
      rw [Bool.not_false, if_pos rfl, if_neg Bool.false_ne_true,
        ← String.append_assoc]
      split
      · exact brings_seq (at_newLine h₃ _) fun w₄ h₄ => at_write h₄ _
      · rw [String.append_empty]
        exact at_write h₃ _

/-- A CDATA section as it is written. -/
def sectionText : Dialect → String → String
  | .xml, data => cdataSection data
  | .html, data => Markup.escapeText data

/-- A section is written whole at its end. -/
theorem at_cdata (h : At d ws opened p run w) (data : String) :
    let q := advance p (heldText ws opened run)
    Brings (acceptAll [.startCData, .characters data, .endCData]) w
      (At d ws ((noted ws run opened).modifyHead OpenElement.withText)
        (q.1 ++ closing q.2 ++ sectionText d data, false) "") := by
  intro q
  -- what is pending is flushed at the start of the section
  have entered : Brings (accept .startCData) w fun w₁ =>
      w₁.inCData = true ∧ w₁.cdata = ""
        ∧ At d ws (noted ws run opened) q "" { w₁ with inCData := false } :=
    brings_seq (at_flush h) fun w₁ h₁ => brings_modify
      ⟨rfl, h₁.unheld, { h₁ with outside := rfl }⟩
  refine brings_accept_all entered fun w₁ ⟨hin, hdata, h₁⟩ => ?_
  -- inside, data is held back
  have held : Brings (accept (.characters data)) w₁ fun w₂ =>
      w₂.cdata = data ∧ At d ws (noted ws run opened) q ""
        { w₂ with inCData := false, cdata := "" } := by
    refine brings_modify ?_
    rw [if_pos hin, hdata, String.empty_append]
    exact ⟨rfl, { h₁ with unheld := rfl }⟩
  refine brings_accept_all held fun w₂ ⟨hcdata, h₂⟩ => ?_
  -- and written at the end, in the form of the dialect
  have written : Brings (accept .endCData) w₂
      (At d ws ((noted ws run opened).modifyHead OpenElement.withText)
        (q.1 ++ closing q.2 ++ sectionText d data, false) "") := by
    refine brings_get (brings_seq (brings_modify h₂) fun w₃ h₃ => ?_)
    refine brings_seq (at_closeTag h₃) fun w₄ h₄ => ?_
    refine brings_seq (at_onInnermost h₄ OpenElement.withText)
      fun w₅ h₅ => brings_get ?_
    rw [h₅.dialect, hcdata]
    cases d with
    | xml => exact at_write h₅ _
    | html => exact at_write h₅ _
  exact brings_accept_all written fun _ h₃ => brings_skip h₃

/-- A document type as it is written. -/
def doctypeText (name : String) (publicId systemId : Option String) : String :=
  "<!DOCTYPE " ++ name ++ externalId publicId systemId ++ ">\n"

theorem doctypeText_ne_empty (name : String) (publicId systemId : Option String) :
    doctypeText name publicId systemId ≠ "" := by
  intro he
  exact absurd (String.append_eq_empty_iff.1 he).2 (by decide)

theorem at_doctype (h : At d ws opened p run w) (name : String)
    (publicId systemId : Option String) :
    let q := advance p (heldText ws opened run)
    Brings (acceptAll [.startDoctype name publicId systemId, .endDoctype]) w
      (At d ws (noted ws run opened)
        (q.1 ++ closing q.2 ++ doctypeText name publicId systemId, false)
        "") := by
  intro q
  refine brings_accept_all (brings_seq (at_flush h) fun w₁ h₁ =>
    brings_seq (at_closeTag h₁) fun w₂ h₂ => at_write h₂ _) fun _ hw => ?_
  exact brings_accept_all (brings_skip hw) fun _ hw => brings_skip hw

-- =============================================================== documents

theorem at_startDocument (d : Dialect) (ws : Whitespace) (declaration : Bool) :
    Brings (accept .startDocument) (.fresh d ws declaration none)
      (At d ws [] (if d = .xml && declaration then xmlDeclaration else "",
        false) "") := by
  have begun : At d ws [] ("", false) "" (.fresh d ws declaration none) :=
    ⟨rfl, rfl, rfl, rfl, rfl, nofun, rfl, rfl, rfl, rfl⟩
  refine brings_get ?_
  split
  · next h =>
    have h : (d = .xml && declaration) = true := h
    rw [if_pos h]
    exact at_write begun xmlDeclaration
  · next h =>
    have h : ¬ (d = .xml && declaration) = true := h
    rw [if_neg h]
    exact brings_skip begun

/-- Indented output ends with its last line. -/
theorem at_endDocument (h : At d ws [] p run w) :
    let q := advance p (heldText ws [] run)
    Brings (accept .endDocument) w fun w' =>
      w'.text = q.1 ++ if ws = .indent && !onNewLine q.1 then "\n" else "" := by
  intro q
  refine brings_seq (at_flush h) fun w₁ h₁ => brings_get ?_
  have hopened : w₁.opened = [] := by
    rw [h₁.opened]
    unfold noted
    split <;> rfl
  rw [hopened, h₁.whitespace, atLineStart_eq h₁.filled, h₁.text]
  have ends : Brings (if (ws = .indent && !onNewLine q.1) = true
      then write "\n" else pure ()) w₁ fun w' =>
      w'.text = q.1 ++ if ws = .indent && !onNewLine q.1 then "\n" else "" := by
    split
    · exact (at_write h₁ "\n").mono fun _ hw => hw.text
    · refine brings_skip ?_
      rw [String.append_empty]
      exact h₁.text
  exact ends

end

end Writer

end Stencil.Output
