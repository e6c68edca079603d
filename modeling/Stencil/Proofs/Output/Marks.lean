/-
Pieces that are read back as they stand.

What is read of the text of pieces is known up to the joining of sections from
their data alone. Where no section holds its own end there is nothing to join,
and the text has just the marks of the pieces (`notes_forest`). To be readable
so is nothing that white space has a part in, so what is laid out stays
readable (`readable_settle`, `readable_indent`).
-/
import Stencil.Output.Fragment
import Stencil.Output.Layout
import Stencil.Proofs.Markup.Noting
import Stencil.Proofs.Output.Places
import Stencil.Proofs.Output.Reading

namespace Stencil.Output

open Markup (Context Datum Leads Stops Anything Mark Notes isXmlName elementOf?
  elementDatum? declared textMarks sectionStart sectionEnd)

-- ==================================================================== pieces

mutual

/-- A piece whose text is read as it stands in a context: its names are names
of XML and stand for what they do in the context, no element has two
attributes of one name, no section holds the end of one, and there is no
document type. -/
def Piece.Readable (ctx : Context) : Piece → Prop
  | .element name attributes children =>
    (isXmlName name.qualified = true ∧ (∀ a ∈ attributes, isXmlName a.1 = true)
        ∧ (attributes.map Prod.fst).Nodup)
      ∧ (elementOf? ctx name.qualified attributes).map ElementName.ofElement
        = some name
      ∧ ForestReadable (declared attributes :: ctx) children
  | .text _ => True
  | .cdata s => Text.breakOn? sectionEnd s.toList = none
  | .doctype _ _ _ => False

def ForestReadable (ctx : Context) : List Piece → Prop
  | [] => True
  | p :: ps => p.Readable ctx ∧ ForestReadable ctx ps

end

mutual

/-- The marks of a piece. -/
def Piece.marks : Piece → List Mark
  | .element name attributes children =>
    .start name.qualified attributes
      :: (forestMarks "" children ++ [.stop name.qualified])
  | .text s => textMarks s
  | .cdata s => [.cdata s]
  | .doctype _ _ _ => [.text "\n"]

/-- The marks of pieces behind a run of character data. -/
def forestMarks (run : String) : List Piece → List Mark
  | [] => textMarks run
  | p :: ps =>
    match p with
    | .text s => forestMarks (run ++ s) ps
    | p => textMarks run ++ p.marks ++ forestMarks "" ps

end

section

variable {ctx : Context} {ps qs : List Piece}

theorem forestReadable_append :
    ForestReadable ctx (ps ++ qs)
      ↔ ForestReadable ctx ps ∧ ForestReadable ctx qs := by
  induction ps with
  | nil => exact ⟨fun h => ⟨trivial, h⟩, And.right⟩
  | cons p ps ih =>
    rw [List.cons_append, ForestReadable, ForestReadable, ih, and_assoc]

mutual

/-- A readable piece can be read, and has data. -/
theorem Piece.Readable.data : ∀ {ctx : Context} {p : Piece}, p.Readable ctx →
    p.Legible ∧ (p.data? ctx).isSome
  | ctx, .element name attributes children, ⟨⟨hname, hnames, hnodup⟩, he, hin⟩ => by
    obtain ⟨hlegible, hdata⟩ := hin.data
    refine ⟨⟨hname, hnames, hnodup, hlegible⟩, ?_⟩
    obtain ⟨e, he, -⟩ := Option.map_eq_some_iff.1 he
    obtain ⟨xs, hxs⟩ := Option.isSome_iff_exists.1 hdata
    rw [Piece.data?, elementDatum?, he, hxs]
    rfl
  | _, .text _, _ => ⟨trivial, rfl⟩
  | _, .cdata _, _ => ⟨trivial, rfl⟩
termination_by structural _ p => p

theorem ForestReadable.data : ∀ {ctx : Context} {ps : List Piece},
    ForestReadable ctx ps → ForestLegible ps ∧ (forestData? ctx ps).isSome
  | _, [], _ => ⟨trivial, rfl⟩
  | ctx, p :: ps, ⟨hp, hps⟩ => by
    obtain ⟨hlegible, hdata⟩ := hp.data
    obtain ⟨hrest, hmore⟩ := hps.data
    obtain ⟨xs, hxs⟩ := Option.isSome_iff_exists.1 hdata
    obtain ⟨ys, hys⟩ := Option.isSome_iff_exists.1 hmore
    refine ⟨⟨hlegible, hrest⟩, ?_⟩
    rw [forestData?, hxs, hys]
    rfl
termination_by structural _ ps => ps

end

-- =================================================================== layouts

theorem readable_runPieces (w : Whitespace) (run : String) :
    ForestReadable ctx (runPieces w run) := by
  unfold runPieces
  split
  · exact ⟨trivial, trivial⟩
  · trivial

mutual

theorem Piece.readable_settled (w : Whitespace) : ∀ {ctx : Context} {p : Piece},
    p.Readable ctx → (p.settled w).Readable ctx
  | _, .element _ _ _, ⟨htag, he, hin⟩ => ⟨htag, he, readable_settle w "" hin⟩
  | _, .text _, _ => trivial
  | _, .cdata _, h => h
termination_by structural _ p => p

/-- What is readable is so when it is settled. -/
theorem readable_settle (w : Whitespace) (run : String) :
    ∀ {ctx : Context} {ps : List Piece}, ForestReadable ctx ps →
      ForestReadable ctx (settle w run ps)
  | _, [], _ => readable_runPieces w run
  | ctx, p :: ps, ⟨hp, hps⟩ => by
    have other : ForestReadable ctx
        (runPieces w run ++ p.settled w :: settle w "" ps) :=
      forestReadable_append.2 ⟨readable_runPieces w run,
        Piece.readable_settled w hp, readable_settle w "" hps⟩
    cases p with
    | text s => exact readable_settle w (run ++ s) hps
    | element name attributes children => exact other
    | cdata s => exact other
    | doctype name publicId systemId => exact other
termination_by structural _ ps => ps

end

mutual

theorem Piece.readable_indented (depth : Nat) : ∀ {ctx : Context} {p : Piece},
    p.Readable ctx → (p.indented depth).Readable ctx
  | _, .element _ _ _, ⟨htag, he, hin⟩ =>
    ⟨htag, he, readable_indent (depth + 1) .inside hin⟩
  | _, .text _, _ => trivial
  | _, .cdata _, h => h
termination_by structural _ p => p

/-- What is readable is so when it is indented. -/
theorem readable_indent (depth : Nat) (m : Margin) :
    ∀ {ctx : Context} {ps : List Piece}, ForestReadable ctx ps →
      ForestReadable ctx (indent depth m ps)
  | _, [], _ => by
    unfold indent
    split
    · exact readable_runPieces .all _
    · trivial
  | ctx, p :: ps, ⟨hp, hps⟩ => by
    have hpiece := Piece.readable_indented depth hp
    cases p with
    | element name attributes children =>
      have hrest := readable_indent depth ⟨m.data, true, false⟩ hps
      refine forestReadable_append.2 ⟨?_, hpiece, hrest⟩
      split
      · trivial
      · exact readable_runPieces .all _
    | text s => exact ⟨hpiece, readable_indent depth { m with data := true } hps⟩
    | cdata s => exact ⟨hpiece, readable_indent depth { m with data := true } hps⟩
    | doctype name publicId systemId => exact hp.elim
termination_by structural _ ps => ps

end

-- =================================================================== reading

theorem xml_ne_empty {p : Piece} (hp : (p.xml .all).toList.head? = some '<') :
    p.xml .all ≠ "" := by
  intro he
  rw [he] at hp
  cases hp

/-- Elements and sections begin with markup. -/
theorem head_xml {p : Piece} (hp : p.Readable ctx) (htext : ∀ s, p ≠ .text s) :
    (p.xml .all).toList.head? = some '<' := by
  cases p with
  | element name attributes children =>
    obtain ⟨u, hu⟩ := toList_xml_element name attributes children
    rw [hu]
    rfl
  | text s => exact absurd rfl (htext s)
  | cdata s =>
    rw [Piece.xml, toList_cdataSection]
    rfl
  | doctype name publicId systemId => exact hp.elim

/-- Where nothing is written there are no marks. -/
theorem forestMarks_of_nothing {run : String} (hps : ForestReadable ctx ps)
    (h : forestXml .all run ps = "") : forestMarks run ps = [] := by
  induction ps generalizing run with
  | nil =>
    have hrun : run = "" := by
      by_contra hne
      exact escapeText_ne_empty hne h
    rw [hrun]
    rfl
  | cons p ps ih =>
    obtain ⟨hp, hps⟩ := hps
    have other (htext : ∀ s, p ≠ .text s)
        (h : runText .all run ++ p.xml .all ++ forestXml .all "" ps = "") :
        forestMarks run (p :: ps) = [] := by
      have hfirst := (String.append_eq_empty_iff.1 h).1
      exact absurd (String.append_eq_empty_iff.1 hfirst).2
        (xml_ne_empty (head_xml hp htext))
    cases p with
    | text s => exact ih hps h
    | element name attributes children => exact other (by simp) h
    | cdata s => exact other (by simp) h
    | doctype name publicId systemId => exact hp.elim

/-- A piece between a run of character data and other pieces. -/
theorem notes_behind_run (run : String) {p rest : List Char} {ms ns : List Mark}
    (hp : Leads Anything p (Notes ms)) (hhead : p.head? = some '<')
    (hrest : Leads Stops rest (Notes ns)) :
    Leads Stops ((Markup.escapeText run).toList ++ p ++ rest)
      (Notes (textMarks run ++ ms ++ ns)) := by
  have hrun := Markup.notes_text run.toList
  rw [String.ofList_toList, ← toList_escapeText] at hrun
  have hbehind := hp.append hrest (fun _ _ => trivial)
    fun _ _ _ hr hf => hr.append hf
  have hall := hrun.append hbehind
    (fun more _ => by
      obtain ⟨u, rfl⟩ := List.head?_eq_some_iff.1 hhead
      exact Markup.stops_cons (by decide) _)
    fun _ _ _ hr hf => hr.append hf
  rw [List.append_assoc, List.append_assoc]
  exact hall

mutual

/-- Elements and sections are read as they stand. -/
theorem notes_piece : ∀ {ctx : Context} {p : Piece}, p.Readable ctx →
    (∀ s, p ≠ .text s) → Leads Anything (p.xml .all).toList (Notes p.marks)
  | _, .element name attributes children, ⟨⟨hname, hnames, hnodup⟩, _, hin⟩, _ => by
    have hinside := notes_forest "" hin
    rw [Piece.xml]
    by_cases hcontents : forestXml .all "" children = ""
    · have hmarks : (Piece.element name attributes children).marks
          = [.start name.qualified attributes, .stop name.qualified] := by
        rw [Piece.marks, forestMarks_of_nothing hin hcontents]
        rfl
      rw [hcontents, toList_hollow, hmarks]
      exact Markup.notes_hollow hname hnames hnodup
    · rw [toList_element hcontents]
      exact Markup.notes_element hname hnames hnodup hinside
  | _, .cdata s, h, _ => by
    have hwhole : Text.replaceAll sectionEnd Markup.sectionSplit s.toList
        = s.toList := by
      rw [Text.replaceAll_eq (by decide), show Text.breakOn? _ _ = none from h]
    rw [Piece.xml, toList_cdataSection, hwhole]
    exact Markup.notes_section h
  | _, .text s, _, htext => absurd rfl (htext s)
termination_by structural _ p => p

/-- Pieces behind a run of character data are read as they stand. -/
theorem notes_forest (run : String) : ∀ {ctx : Context} {ps : List Piece},
    ForestReadable ctx ps →
      Leads Stops (forestXml .all run ps).toList (Notes (forestMarks run ps))
  | _, [], _ => by
    rw [forestXml, runText_all, toList_escapeText]
    have h := Markup.notes_text run.toList
    rw [String.ofList_toList] at h
    exact h
  | _, p :: ps, ⟨hp, hps⟩ => by
    have other (htext : ∀ s, p ≠ .text s) :
        Leads Stops (runText .all run ++ p.xml .all
            ++ forestXml .all "" ps).toList
          (Notes (textMarks run ++ p.marks ++ forestMarks "" ps)) := by
      rw [String.toList_append, String.toList_append]
      exact notes_behind_run run (notes_piece hp htext) (head_xml hp htext)
        (notes_forest "" hps)
    cases p with
    | text s => exact notes_forest (run ++ s) hps
    | element name attributes children => exact other (by simp)
    | cdata s => exact other (by simp)
    | doctype name publicId systemId => exact hp.elim
termination_by structural _ ps => ps

end

end

end Stencil.Output
