/-
Facts about output laid out.

To write a layout as it stands is to write its pieces one after another, since
no run is joined or dropped any more (`forestXml_cons`). Without indentation
that is how the pieces are written that were laid out (`forestXml_settle`).
Indentation puts white space between pieces, and only where no character data
has been met (`ForestSpaced`); to settle what is indented takes it out again
(`settle_indent`), so a layout laid out is itself (`laidOut_laidOut`).
-/
import Stencil.Output.Layout
import Stencil.Proofs.Output.Reading

namespace Stencil.Output

-- ================================================================== texts

/-- Pieces that are written as they stand are written one after another. -/
theorem forestXml_cons (p : Piece) (ps : List Piece) :
    forestXml .all "" (p :: ps) = p.xml .all ++ forestXml .all "" ps := by
  have hnothing : runText .all "" ++ p.xml .all ++ forestXml .all "" ps
      = p.xml .all ++ forestXml .all "" ps :=
    congrArg (· ++ forestXml .all "" ps) String.empty_append
  cases p with
  | text s =>
    have hrun := forestXml_append s "" ps
    rw [String.append_empty] at hrun
    show forestXml .all ("" ++ s) ps = runText .all s ++ forestXml .all "" ps
    rw [String.empty_append, runText_all, hrun]
  | element name attributes children => exact hnothing
  | cdata s => exact hnothing
  | doctype name publicId systemId => exact hnothing

theorem forestXml_pieces (ps qs : List Piece) :
    forestXml .all "" (ps ++ qs)
      = forestXml .all "" ps ++ forestXml .all "" qs := by
  induction ps with
  | nil => exact String.empty_append.symm
  | cons p ps ih =>
    rw [List.cons_append, forestXml_cons, forestXml_cons, ih,
      String.append_assoc]

/-- A run that is left is written, one that is not is written as nothing. -/
theorem runText_of_keeps {w : Whitespace} {run : String}
    (h : keeps w run = true) : runText w run = Markup.escapeText run := by
  unfold keeps at h
  have hdrops := (Bool.and_eq_true_iff.1 h).2
  rw [Bool.not_eq_true'] at hdrops
  unfold runText
  rw [hdrops, if_neg Bool.false_ne_true]

theorem runText_of_not_keeps {w : Whitespace} {run : String}
    (h : keeps w run = false) : runText w run = "" := by
  unfold keeps at h
  unfold runText
  split
  · rfl
  · next hdrops =>
    rw [Bool.eq_false_iff.2 hdrops, Bool.not_false, Bool.and_true,
      Bool.not_eq_false'] at h
    rw [String.isEmpty_iff.1 h]
    rfl

theorem forestXml_runPieces (w : Whitespace) (run : String) :
    forestXml .all "" (runPieces w run) = runText w run := by
  unfold runPieces
  split
  · next h =>
    rw [forestXml_cons, runText_of_keeps h]
    exact String.append_empty
  · next h => exact (runText_of_not_keeps (Bool.eq_false_iff.2 h)).symm

mutual

theorem Piece.xml_settled (w : Whitespace) : ∀ p : Piece, (∀ s, p ≠ .text s) →
    (p.settled w).xml .all = p.xml w
  | .element name attributes children, _ => by
    show Piece.xml .all (.element name attributes (settle w "" children)) = _
    rw [Piece.xml, Piece.xml, forestXml_settle w "" children]
  | .text s, h => absurd rfl (h s)
  | .cdata _, _ => rfl
  | .doctype _ _ _, _ => rfl
termination_by structural p => p

/-- What is settled is written as it stands. -/
theorem forestXml_settle (w : Whitespace) (run : String) : ∀ ps,
    forestXml .all "" (settle w run ps) = forestXml w run ps
  | [] => forestXml_runPieces w run
  | p :: ps => by
    have other (hp : ∀ s, p ≠ .text s) :
        forestXml .all "" (runPieces w run ++ p.settled w :: settle w "" ps)
          = runText w run ++ p.xml w ++ forestXml w "" ps := by
      rw [forestXml_pieces, forestXml_runPieces, forestXml_cons,
        Piece.xml_settled w p hp, forestXml_settle w "" ps,
        String.append_assoc]
    cases p with
    | text s => exact forestXml_settle w (run ++ s) ps
    | element name attributes children => exact other nofun
    | cdata s => exact other nofun
    | doctype name publicId systemId => exact other nofun
termination_by structural ps => ps

end

mutual

theorem Piece.settled_none : ∀ p : Piece, p.settled .none = p.settled .indent
  | .element name attributes children =>
    congrArg (Piece.element name attributes) (settle_none "" children)
  | .text _ => rfl
  | .cdata _ => rfl
  | .doctype _ _ _ => rfl
termination_by structural p => p

/-- Before it is indented, output is settled as if it were not. -/
theorem settle_none (run : String) : ∀ ps,
    settle .none run ps = settle .indent run ps
  | [] => rfl
  | p :: ps => by
    have other : runPieces .none run ++ p.settled .none :: settle .none "" ps
        = runPieces .indent run ++ p.settled .indent
          :: settle .indent "" ps := by
      rw [Piece.settled_none p, settle_none "" ps]
      rfl
    cases p with
    | text s => exact settle_none (run ++ s) ps
    | element name attributes children => exact other
    | cdata s => exact other
    | doctype name publicId systemId => exact other
termination_by structural ps => ps

end

-- ================================================================== lines

theorem allBlank_lineText (fed : Bool) (depth : Nat) :
    Text.allBlank (lineText fed depth) = true := by
  have hspaces : Text.allBlank (String.join (List.replicate depth "  "))
      = true := by
    induction depth with
    | zero => decide
    | succ n ih =>
      rw [List.replicate_succ, String.join_cons]
      exact allBlank_append (by decide) ih
  cases fed with
  | true => exact allBlank_append allBlank_nothing hspaces
  | false => exact allBlank_append allBlank_feed hspaces

theorem escapeText_blank {s : String} (h : Text.allBlank s = true) :
    Markup.escapeText s = s := by
  apply String.toList_injective
  rw [toList_escapeText]
  exact Markup.flatMap_escapeTextChar_blank h

/-- White space is written as it is. -/
theorem forestXml_linePieces (fed : Bool) (depth : Nat) :
    forestXml .all "" (linePieces fed depth) = lineText fed depth := by
  unfold linePieces
  rw [forestXml_runPieces, runText_all,
    escapeText_blank (allBlank_lineText fed depth)]

/-- What has been met when a run stands behind it. -/
def Margin.behind (run : String) (m : Margin) : Margin :=
  { m with data := m.data || keeps .indent run }

theorem indent_runPieces (depth : Nat) (m : Margin) (run : String)
    (ps : List Piece) :
    indent depth m (runPieces .indent run ++ ps)
      = runPieces .indent run ++ indent depth (m.behind run) ps := by
  unfold runPieces Margin.behind
  cases keeps .indent run with
  | true =>
    rw [if_pos rfl, Bool.or_true]
    rfl
  | false =>
    rw [if_neg Bool.false_ne_true, Bool.or_false]
    rfl

-- ========================================================== what is put in

def Piece.isElement : Piece → Bool
  | .element _ _ _ => true
  | _ => false

/-- Text, or a section. -/
def Piece.isData : Piece → Bool
  | .text _ => true
  | .cdata _ => true
  | _ => false

mutual

/-- A piece, and the same with white space put into its contents. -/
inductive Piece.Spaced : Piece → Piece → Prop where
  | element {name : ElementName} {attributes : List (String × String)}
      {ps qs : List Piece} (inside : ForestSpaced false false ps qs) :
    Piece.Spaced (.element name attributes ps) (.element name attributes qs)
  | text {s : String} : Piece.Spaced (.text s) (.text s)
  | cdata {s : String} : Piece.Spaced (.cdata s) (.cdata s)
  | doctype {name : String} {publicId systemId : Option String} :
    Piece.Spaced (.doctype name publicId systemId)
      (.doctype name publicId systemId)

/-- Contents behind which data or elements stand of the same parent, and the
same with white space put between them: before an element, if no data stands
before it in the parent, and at the end, if there are elements and no data. -/
inductive ForestSpaced : (data elements : Bool) → List Piece → List Piece → Prop
    where
  | nil {data elements : Bool} : ForestSpaced data elements [] []
  | last {s : String} (blank : Text.allBlank s = true) :
    ForestSpaced false true [] [.text s]
  | line {elements : Bool} {s : String} {p q : Piece} {ps qs : List Piece}
      (blank : Text.allBlank s = true) (element : p.isElement = true)
      (piece : p.Spaced q) (rest : ForestSpaced false true ps qs) :
    ForestSpaced false elements (p :: ps) (.text s :: q :: qs)
  | cons {data elements : Bool} {p q : Piece} {ps qs : List Piece}
      (piece : p.Spaced q)
      (rest : ForestSpaced (data || p.isData) (elements || p.isElement) ps qs) :
    ForestSpaced data elements (p :: ps) (q :: qs)

end

/-- A line is white space, or nothing. -/
theorem linePieces_cases (fed : Bool) (depth : Nat) :
    linePieces fed depth = []
      ∨ ∃ s, Text.allBlank s = true ∧ linePieces fed depth = [.text s] := by
  unfold linePieces runPieces
  split
  · exact Or.inr ⟨_, allBlank_lineText fed depth, rfl⟩
  · exact Or.inl rfl

/-- At the end of contents a line is put in behind elements alone. -/
theorem spaced_end (depth : Nat) (m : Margin) :
    ForestSpaced m.data m.elements [] (indent depth m []) := by
  obtain ⟨data, elements, fed⟩ := m
  unfold indent
  cases data with
  | true =>
    rw [Bool.not_true, Bool.and_false, if_neg Bool.false_ne_true]
    exact .nil
  | false =>
    cases elements with
    | false => exact .nil
    | true =>
      show ForestSpaced false true [] (linePieces fed (depth - 1))
      rcases linePieces_cases fed (depth - 1) with hline | ⟨s, hs, hline⟩
      · rw [hline]
        exact .nil
      · rw [hline]
        exact .last hs

/-- In front of an element a line is put in, unless data stands before it. -/
theorem spaced_element (depth : Nat) (fed : Bool) {data elements : Bool}
    {p q : Piece} {ps qs : List Piece} (hp : p.isElement = true)
    (hpiece : p.Spaced q) (hrest : ForestSpaced data true ps qs) :
    ForestSpaced data elements (p :: ps)
      ((if data then [] else linePieces fed depth) ++ q :: qs) := by
  have hdata : p.isData = false := by
    cases p with
    | element name attributes children => rfl
    | text s => exact absurd hp Bool.false_ne_true
    | cdata s => exact absurd hp Bool.false_ne_true
    | doctype name publicId systemId => exact absurd hp Bool.false_ne_true
  have hcons : ForestSpaced data elements (p :: ps) (q :: qs) := by
    refine .cons hpiece ?_
    rw [hdata, hp, Bool.or_false, Bool.or_true]
    exact hrest
  -- next to data no line is begun
  cases data with
  | true => exact hcons
  | false =>
    rw [if_neg Bool.false_ne_true]
    rcases linePieces_cases fed depth with hline | ⟨s, hs, hline⟩
    · rw [hline]
      exact hcons
    · rw [hline]
      exact .line hs hp hpiece hrest

mutual

theorem Piece.spaced_indented (depth : Nat) : ∀ p : Piece,
    p.Spaced (p.indented depth)
  | .element _ _ children => .element (spaced_indent (depth + 1) .inside children)
  | .text _ => .text
  | .cdata _ => .cdata
  | .doctype _ _ _ => .doctype
termination_by structural p => p

/-- Indentation puts nothing but white space in, and none behind data. -/
theorem spaced_indent (depth : Nat) (m : Margin) : ∀ ps,
    ForestSpaced m.data m.elements ps (indent depth m ps)
  | [] => spaced_end depth m
  | p :: ps => by
    have hp := Piece.spaced_indented depth p
    cases p with
    | element name attributes children =>
      exact spaced_element depth m.fed rfl hp
        (spaced_indent depth ⟨m.data, true, false⟩ ps)
    | text s =>
      have hps := spaced_indent depth { m with data := true } ps
      refine .cons hp ?_
      show ForestSpaced (m.data || true) (m.elements || false) ps _
      rw [Bool.or_true, Bool.or_false]
      exact hps
    | cdata s =>
      have hps := spaced_indent depth { m with data := true } ps
      refine .cons hp ?_
      show ForestSpaced (m.data || true) (m.elements || false) ps _
      rw [Bool.or_true, Bool.or_false]
      exact hps
    | doctype name publicId systemId =>
      have hps := spaced_indent depth { m with fed := true } ps
      refine .cons hp ?_
      show ForestSpaced (m.data || false) (m.elements || false) ps _
      rw [Bool.or_false, Bool.or_false]
      exact hps
termination_by structural ps => ps

end

-- ========================================================= layouts laid out

theorem keeps_blank {s : String} (h : Text.allBlank s = true) :
    keeps .indent s = false := by
  show (!s.isEmpty && !(true && Text.allBlank s)) = false
  rw [h, Bool.true_and, Bool.not_true, Bool.and_false]

theorem runPieces_of_not_keeps {w : Whitespace} {run : String}
    (h : keeps w run = false) : runPieces w run = [] :=
  if_neg (Bool.eq_false_iff.1 h)

theorem runPieces_blank {s : String} (h : Text.allBlank s = true) :
    runPieces .indent s = [] :=
  runPieces_of_not_keeps (keeps_blank h)

/-- No run is left where no data has been met behind it. -/
theorem Margin.runPieces_of_behind {m : Margin} {run : String}
    (h : (m.behind run).data = false) : runPieces .indent run = [] :=
  runPieces_of_not_keeps (Bool.or_eq_false_iff.1 h).2

theorem settle_other (w : Whitespace) (run : String) {p : Piece}
    (hp : ∀ s, p ≠ .text s) (ps : List Piece) :
    settle w run (p :: ps) = runPieces w run ++ p.settled w :: settle w "" ps := by
  cases p with
  | text s => exact absurd rfl (hp s)
  | element name attributes children => rfl
  | cdata s => rfl
  | doctype name publicId systemId => rfl

theorem settle_runPieces (w : Whitespace) (run : String) :
    settle w "" (runPieces w run) = runPieces w run := by
  cases hkeeps : keeps w run with
  | true =>
    have hrun : runPieces w run = [.text run] := if_pos hkeeps
    show _ = _
    rw [hrun]
    show runPieces w ("" ++ run) = _
    rw [String.empty_append, hrun]
  | false =>
    rw [runPieces_of_not_keeps hkeeps]
    rfl

/-- A run that is left is left again, in front of what is no text. -/
theorem settle_behind (w : Whitespace) (run : String) {p : Piece}
    (hp : ∀ s, p ≠ .text s) (ps : List Piece) :
    settle w "" (runPieces w run ++ p :: ps)
      = runPieces w run ++ p.settled w :: settle w "" ps := by
  cases hkeeps : keeps w run with
  | true =>
    have hrun : runPieces w run = [.text run] := if_pos hkeeps
    rw [hrun]
    show settle w ("" ++ run) (p :: ps) = _
    rw [String.empty_append, settle_other w run hp, hrun]
  | false =>
    rw [runPieces_of_not_keeps hkeeps]
    exact settle_other w "" hp ps

/-- A line is dropped. -/
theorem settle_line (fed : Bool) (depth : Nat) {p : Piece}
    (hp : ∀ s, p ≠ .text s) (ps : List Piece) :
    settle .indent "" (linePieces fed depth ++ p :: ps)
      = p.settled .indent :: settle .indent "" ps := by
  rcases linePieces_cases fed depth with hline | ⟨s, hs, hline⟩
  · rw [hline]
    exact settle_other .indent "" hp ps
  · rw [hline]
    show settle .indent ("" ++ s) (p :: ps) = _
    rw [String.empty_append, settle_other .indent s hp, runPieces_blank hs,
      List.nil_append]

mutual

theorem Piece.settled_settled (w : Whitespace) : ∀ p : Piece,
    (p.settled w).settled w = p.settled w
  | .element name attributes children =>
    congrArg (Piece.element name attributes) (settle_settle w "" children)
  | .text _ => rfl
  | .cdata _ => rfl
  | .doctype _ _ _ => rfl
termination_by structural p => p

/-- What is settled stays as it is. -/
theorem settle_settle (w : Whitespace) (run : String) : ∀ ps,
    settle w "" (settle w run ps) = settle w run ps
  | [] => settle_runPieces w run
  | p :: ps => by
    have other (hp : ∀ s, p.settled w ≠ .text s) :
        settle w "" (runPieces w run ++ p.settled w :: settle w "" ps)
          = runPieces w run ++ p.settled w :: settle w "" ps := by
      rw [settle_behind w run hp, Piece.settled_settled w p,
        settle_settle w "" ps]
    cases p with
    | text s => exact settle_settle w (run ++ s) ps
    | element name attributes children => exact other nofun
    | cdata s => exact other nofun
    | doctype name publicId systemId => exact other nofun
termination_by structural ps => ps

end

theorem settle_linePieces (fed : Bool) (depth : Nat) :
    settle .indent "" (linePieces fed depth) = [] := by
  rcases linePieces_cases fed depth with hline | ⟨s, hs, hline⟩
  · rw [hline]
    rfl
  · rw [hline]
    show runPieces .indent ("" ++ s) = []
    rw [String.empty_append, runPieces_blank hs]

/-- What is put in behind the last run of contents is taken out again. -/
theorem settle_end (depth : Nat) (m : Margin) (run : String) :
    settle .indent "" (indent depth m (runPieces .indent run))
      = runPieces .indent run := by
  have hpieces := indent_runPieces depth m run []
  rw [List.append_nil] at hpieces
  rw [hpieces]
  unfold indent
  split
  · next hends =>
    have hdata := (Bool.and_eq_true_iff.1 hends).2
    rw [Bool.not_eq_true'] at hdata
    rw [Margin.runPieces_of_behind hdata, List.nil_append]
    exact settle_linePieces _ _
  · rw [List.append_nil]
    exact settle_runPieces .indent run

/-- So is what is put in between a run and an element. -/
theorem settle_between (depth : Nat) (m : Margin) (run : String) {p : Piece}
    (hp : ∀ s, p ≠ .text s) (ps : List Piece) :
    settle .indent "" (runPieces .indent run
        ++ ((if (m.behind run).data then []
          else linePieces (m.behind run).fed depth) ++ p :: ps))
      = runPieces .indent run ++ p.settled .indent :: settle .indent "" ps := by
  cases hdata : (m.behind run).data with
  | true => exact settle_behind .indent run hp ps
  | false =>
    rw [Margin.runPieces_of_behind hdata, if_neg Bool.false_ne_true]
    exact settle_line (m.behind run).fed depth hp ps

mutual

theorem Piece.settled_indented (depth : Nat) : ∀ p : Piece,
    ((p.settled .indent).indented depth).settled .indent = p.settled .indent
  | .element name attributes children =>
    congrArg (Piece.element name attributes)
      (settle_indent (depth + 1) .inside "" children)
  | .text _ => rfl
  | .cdata _ => rfl
  | .doctype _ _ _ => rfl
termination_by structural p => p

/-- To settle what is indented takes its lines out again. -/
theorem settle_indent (depth : Nat) (m : Margin) (run : String) : ∀ ps,
    settle .indent "" (indent depth m (settle .indent run ps))
      = settle .indent run ps
  | [] => settle_end depth m run
  | p :: ps => by
    have hp := Piece.settled_indented depth p
    cases p with
    | text s => exact settle_indent depth m (run ++ s) ps
    | element name attributes children =>
      have hrest := settle_indent depth ⟨(m.behind run).data, true, false⟩ "" ps
      show settle .indent "" (indent depth m (runPieces .indent run
        ++ Piece.settled .indent (.element name attributes children)
          :: settle .indent "" ps)) = _
      rw [indent_runPieces]
      have hother (inside : List Piece) (s : String) :
          Piece.element name attributes inside ≠ .text s := nofun
      -- the line that was begun is white space between elements, so it is
      -- dropped
      refine (settle_between depth m run (hother _) _).trans ?_
      rw [hrest]
      exact congrArg (_ ++ · :: _) hp
    | cdata s =>
      show settle .indent "" (indent depth m (runPieces .indent run
        ++ .cdata s :: settle .indent "" ps)) = _
      rw [indent_runPieces]
      have hother (t : String) : Piece.cdata s ≠ .text t := nofun
      refine (settle_behind .indent run hother _).trans ?_
      rw [settle_indent depth _ "" ps]
      rfl
    | doctype name publicId systemId =>
      show settle .indent "" (indent depth m (runPieces .indent run
        ++ .doctype name publicId systemId :: settle .indent "" ps)) = _
      rw [indent_runPieces]
      have hother (s : String) :
          Piece.doctype name publicId systemId ≠ .text s := nofun
      refine (settle_behind .indent run hother _).trans ?_
      rw [settle_indent depth _ "" ps]
      rfl
termination_by structural ps => ps

end

/-- A layout laid out is itself. -/
theorem laidOut_laidOut (w : Whitespace) (ps : List Piece) :
    laidOut w (laidOut w ps) = laidOut w ps := by
  unfold laidOut
  split
  · next hw => rw [hw, settle_indent]
  · exact settle_settle w "" ps

end Stencil.Output
