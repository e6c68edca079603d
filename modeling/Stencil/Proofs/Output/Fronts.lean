/-
In front of the root element.

White space and document types may stand in front of the root element. They are
written in front of it under every layout (`laidOut_front`), and come to nothing
when the text is read (`opens_document`). So a document is the same with any of
them as with any others, or with none, but for the places of its nodes
(`parse_front`).
-/
import Stencil.Proofs.Markup.Placeless
import Stencil.Proofs.Output.Indentation

namespace Stencil.Output

open Markup (Anything Idle Leads Stops Tree placeless withoutMark)

-- ==================================================================== fronts

/-- White space and document types that can be read. -/
inductive Front : List Piece → Prop
  | nil : Front []
  | text {s : String} {ps : List Piece} (hs : Text.allBlank s = true)
    (h : Front ps) : Front (.text s :: ps)
  | doctype {name : String} {publicId systemId : Option String}
    {ps : List Piece} (hp : (Piece.doctype name publicId systemId).Legible)
    (h : Front ps) : Front (.doctype name publicId systemId :: ps)

/-- Nothing, or pieces of which the first is an element. -/
def Rooted : List Piece → Prop
  | [] => True
  | p :: _ => p.isElement = true

theorem Front.append {ps qs : List Piece} (hp : Front ps) (hq : Front qs) :
    Front (ps ++ qs) := by
  induction hp with
  | nil => exact hq
  | text hs _ ih => exact .text hs ih
  | doctype hp _ ih => exact .doctype hp ih

theorem Front.outside {ps : List Piece} (h : Front ps) : ∀ p ∈ ps, p.Outside := by
  induction h with
  | nil => exact nofun
  | text hs _ ih => exact List.forall_mem_cons.2 ⟨hs, ih⟩
  | doctype _ _ ih => exact List.forall_mem_cons.2 ⟨trivial, ih⟩

-- =================================================================== reading

/-- The text does not begin with a mark of byte order. -/
def Unmarked (s : List Char) : Prop := ∀ c ∈ s.head?, c ≠ '\ufeff'

theorem withoutMark_of_unmarked {s : List Char} (h : Unmarked s) :
    withoutMark s = s := by
  cases s with
  | nil => rfl
  | cons c s => exact if_neg (h c rfl)

theorem unmarked_markup (s : List Char) : Unmarked ('<' :: s) := by
  intro c hc
  cases hc
  decide

theorem unmarked_run {run : String} (hrun : Text.allBlank run = true)
    {s : List Char} (h : Unmarked s) :
    Unmarked ((Markup.escapeText run).toList ++ s) := by
  rw [toList_escapeText, Markup.flatMap_escapeTextChar_blank hrun]
  cases hchars : run.toList with
  | nil => exact h
  | cons c cs =>
    intro d hd
    cases hd
    rintro rfl
    have hblank := List.all_eq_true.1 hrun '\ufeff'
      (hchars ▸ List.mem_cons_self)
    exact absurd hblank (by decide)

/-- The text begins with what comes to nothing, and then there is `rest`. -/
def Opens (s rest : List Char) : Prop :=
  ∃ front, s = front ++ rest ∧ Leads Stops front Idle ∧ Unmarked front

/-- What is read is what there is behind the beginning. -/
theorem parse_of_opens {s rest : List Char} (h : Opens s rest)
    (hstops : Stops rest) (hrest : Unmarked rest) :
    placeless Tree.placeless (Tree.parse s)
      = placeless Tree.placeless (Tree.parse rest) := by
  obtain ⟨front, rfl, hidle, hfront⟩ := h
  refine Markup.parse_behind hidle hstops (withoutMark_of_unmarked ?_)
    (withoutMark_of_unmarked hrest)
  cases front with
  | nil => exact hrest
  | cons c front => exact hfront

theorem opens_front {ps : List Piece} (h : Front ps) (rest : List Piece)
    {run : String} (hrun : Text.allBlank run = true) :
    Opens (forestXml .all run (ps ++ rest)).toList
      (forestXml .all "" rest).toList := by
  induction h generalizing run with
  | nil =>
    have hsplit := forestXml_append run "" rest
    rw [String.append_empty] at hsplit
    refine ⟨(Markup.escapeText run).toList, ?_, leads_idle_run hrun, ?_⟩
    · rw [List.nil_append, hsplit, String.toList_append]
    -- white space holds no byte order mark
    · rw [← List.append_nil (Markup.escapeText run).toList]
      exact unmarked_run hrun nofun
  | text hs _ ih => exact ih (allBlank_append hrun hs)
  | @doctype name publicId systemId ps hp _ ih =>
    obtain ⟨front, hfront, hidle, -⟩ := ih allBlank_feed
    have hbehind := (leads_idle_doctype hp).append hidle (fun _ _ => trivial)
      fun _ _ _ => idle_behind
    refine ⟨(Markup.escapeText run).toList
      ++ (doctypeChars name publicId systemId ++ front), ?_, ?_, ?_⟩
    · rw [List.cons_append, toList_forestXml_doctype, hfront]
      simp only [List.append_assoc]
    · exact (leads_idle_run hrun).append hbehind
        (fun _ _ => Markup.stops_cons (by decide) _) fun _ _ _ => idle_behind
    · exact unmarked_run hrun (unmarked_markup _)

theorem opens_document (declaration : Bool) {ps : List Piece} (h : Front ps)
    (rest : List Piece) :
    Opens (documentXml .all declaration (ps ++ rest)).toList
      (forestXml .all "" rest).toList := by
  cases declaration with
  | false =>
    have hnone : documentXml .all false (ps ++ rest)
        = forestXml .all "" (ps ++ rest) := String.empty_append
    rw [hnone]
    exact opens_front h rest allBlank_nothing
  | true =>
    obtain ⟨front, hfront, hidle, -⟩ := opens_front h rest allBlank_feed
    have hdeclaration : Leads Anything _ Idle :=
      Markup.leads_declaration.mono fun _ _ h _ => Exists.elim h fun _ hr => hr
    refine ⟨'<' :: '?' :: (Markup.declarationBody ++ ['?', '>']) ++ front,
      ?_, ?_, unmarked_markup _⟩
    · rw [toList_declared, hfront, List.append_assoc]
    · exact hdeclaration.append hidle (fun _ _ => trivial)
        fun _ _ _ => idle_behind

theorem stops_rooted {ps : List Piece} (h : Rooted ps) :
    Stops (forestXml .all "" ps).toList
      ∧ Unmarked (forestXml .all "" ps).toList := by
  cases ps with
  | nil => exact ⟨nofun, nofun⟩
  | cons p ps =>
    cases p with
    | element name attributes children =>
      obtain ⟨u, hu⟩ := toList_xml_element name attributes children
      rw [forestXml_cons, String.toList_append, hu]
      exact ⟨Markup.stops_cons (by decide) _, unmarked_markup _⟩
    | _ => cases h

-- ==================================================================== layout

theorem doctype_ne_text (name : String) (publicId systemId : Option String)
    (s : String) : Piece.doctype name publicId systemId ≠ .text s := by
  intro h
  cases h

theorem settle_rooted (w : Whitespace) (run : String) {ps : List Piece}
    (h : Rooted ps) :
    settle w run ps = runPieces w run ++ settle w "" ps := by
  cases ps with
  | nil => exact (List.append_nil _).symm
  | cons p ps =>
    cases p with
    | element name attributes children => rfl
    | _ => cases h

theorem Front.runPieces (w : Whitespace) {run : String}
    (hrun : Text.allBlank run = true) : Front (runPieces w run) := by
  unfold Output.runPieces
  split
  · exact .text hrun .nil
  · exact .nil

/-- What stands in front is settled in front. -/
theorem settle_front (w : Whitespace) {ps rest : List Piece} (h : Front ps)
    (hrest : Rooted rest) {run : String} (hrun : Text.allBlank run = true) :
    ∃ front, Front front
      ∧ settle w run (ps ++ rest) = front ++ settle w "" rest := by
  induction h generalizing run with
  | nil => exact ⟨_, .runPieces w hrun, settle_rooted w run hrest⟩
  | text hs _ ih => exact ih (allBlank_append hrun hs)
  | @doctype name publicId systemId ps hp _ ih =>
    obtain ⟨front, hfront, hsettled⟩ := ih allBlank_nothing
    refine ⟨_, (Front.runPieces w hrun).append (.doctype hp hfront), ?_⟩
    rw [List.cons_append, settle_other w run (doctype_ne_text _ _ _), hsettled,
      List.append_assoc]
    rfl

/-- What is indented in front is document types only, and behind one of them the
line is fed as it is at the beginning. -/
theorem indent_front {ps rest : List Piece} (h : Front ps)
    (hrest : Rooted rest) {run : String} (hrun : Text.allBlank run = true) :
    ∃ front, Front front
      ∧ indent 0 .outside (settle .indent run (ps ++ rest))
        = front ++ indent 0 .outside (settle .indent "" rest) := by
  induction h generalizing run with
  | nil =>
    refine ⟨[], .nil, ?_⟩
    rw [List.nil_append, settle_rooted .indent run hrest, runPieces_blank hrun]
    rfl
  | text hs _ ih => exact ih (allBlank_append hrun hs)
  | @doctype name publicId systemId ps hp _ ih =>
    obtain ⟨front, hfront, hindented⟩ := ih allBlank_nothing
    refine ⟨_, .doctype hp hfront, ?_⟩
    rw [List.cons_append, settle_other .indent run (doctype_ne_text _ _ _),
      runPieces_blank hrun]
    exact congrArg (Piece.doctype name publicId systemId :: ·) hindented

/-- Under every option what stands in front is laid out in front. -/
theorem laidOut_front (w : Whitespace) {ps rest : List Piece} (h : Front ps)
    (hrest : Rooted rest) :
    ∃ front, Front front ∧ laidOut w (ps ++ rest) = front ++ laidOut w rest := by
  unfold laidOut
  split
  · next hw =>
    subst hw
    exact indent_front h hrest allBlank_nothing
  · exact settle_front w h hrest allBlank_nothing

theorem rooted_laidOut (w : Whitespace) {ps : List Piece} (h : Rooted ps) :
    Rooted (laidOut w ps) := by
  cases ps with
  | nil => cases w <;> exact h
  | cons p ps =>
    cases p with
    | element name attributes children => cases w <;> exact h
    | _ => cases h

/-- A document is read the same with anything that may stand in front of it, but
for the places of its nodes. -/
theorem parse_front (w : Whitespace) (declaration : Bool)
    {ps qs rest : List Piece} (hp : Front ps) (hq : Front qs)
    (hrest : Rooted rest) :
    placeless Tree.placeless
        (Tree.parse (documentXml .all declaration (laidOut w (ps ++ rest))).toList)
      = placeless Tree.placeless
        (Tree.parse
          (documentXml .all declaration (laidOut w (qs ++ rest))).toList) := by
  obtain ⟨front, hfront, hps⟩ := laidOut_front w hp hrest
  obtain ⟨front', hfront', hqs⟩ := laidOut_front w hq hrest
  obtain ⟨hstops, hunmarked⟩ := stops_rooted (rooted_laidOut w hrest)
  rw [hps, hqs,
    parse_of_opens (opens_document declaration hfront _) hstops hunmarked,
    parse_of_opens (opens_document declaration hfront' _) hstops hunmarked]

-- =================================================================== writing

/-- If there is a root element, white space and document types are all that
there is behind it. -/
def Single (ps : List Piece) : Prop := Rooted ps ∧ ∀ p ∈ ps.tail, p.Outside

/-- White space and document types, and then a root element or nothing. -/
def Fronted (ps : List Piece) : Prop :=
  ∃ front rest, ps = front ++ rest ∧ Front front ∧ Single rest

/-- What stands in front ends in no line of its own, as every piece of it does. -/
theorem indent_alone {ps : List Piece} (h : Front ps) {run : String}
    (hrun : Text.allBlank run = true) :
    indent 0 ⟨false, true, true⟩ (settle .indent run ps)
      = indent 0 .outside (settle .indent run ps) := by
  induction h generalizing run with
  | nil =>
    have hnothing : settle .indent run [] = [] := runPieces_blank hrun
    rw [hnothing]
    rfl
  | text hs _ ih => exact ih (allBlank_append hrun hs)
  | @doctype name publicId systemId ps hp _ ih =>
    rw [settle_other .indent run (doctype_ne_text _ _ _), runPieces_blank hrun]
    exact congrArg (Piece.doctype name publicId systemId :: ·)
      (ih allBlank_nothing)

namespace Writer

/-- A document with a root element or none is written as it is laid out. -/
theorem brings_front (w : Whitespace) (declaration : Bool)
    {ps rest : List Piece} (h : Front ps) (hrest : Single rest) :
    Brings (acceptAll (documentEvents (ps ++ rest)))
      (.fresh .xml w declaration none)
      fun w' => w'.text
        = documentXml .all declaration (laidOut w (ps ++ rest)) := by
  -- without indentation it does not matter where there is an element
  by_cases hw : w = .indent
  · subst hw
    obtain ⟨hrooted, hout⟩ := hrest
    cases rest with
    | nil =>
      rw [List.append_nil]
      refine brings_accept_all (at_startDocument .xml .indent declaration)
        fun w₁ h₁ => (brings_after h₁ allBlank_nothing h.outside).mono
          fun w₂ h₂ => ?_
      have hline : onNewLine (if declaration then xmlDeclaration else "")
          = true := by
        cases declaration <;> decide
      rw [h₂]
      show _ ++ laidText 0 ⟨false, true, onNewLine
        (if declaration then xmlDeclaration else "")⟩ "" ps = _
      rw [hline, laidText, indent_alone h allBlank_nothing]
      rfl
    | cons p after =>
      cases p with
      | element name attributes children =>
        exact brings_indented declaration ps after name attributes children
          (List.forall_mem_append.2 ⟨h.outside, hout⟩)
      | _ => cases hrooted
  · refine (brings_document hw declaration _).mono fun w' htext => ?_
    unfold laidOut documentXml
    rw [if_neg hw, forestXml_settle]
    exact htext

end Writer

end Stencil.Output
