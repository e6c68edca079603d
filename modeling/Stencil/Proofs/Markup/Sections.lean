/-
Sections as they are scanned.

A section runs to the first mark that closes one, so its data does not hold the
mark. That is a fact about the one kind of markup that gives sections; the scan
takes it to every event, and the marks of a document that is parsed are those
of its events.
-/
import Stencil.Proofs.Markup.Flattening
import Stencil.Proofs.Markup.Scanning

namespace Stencil.Markup

open Text (breakOn? breakOn?_before indexOf?)

-- =================================================================== events

/-- The data of a section does not hold the end of one. -/
def Event.Whole : Event → Prop
  | .cdata s => breakOn? sectionEnd s.toList = none
  | _ => True

/-- If some markup gives an event, that is as described. -/
def Piece.Gives (x : Piece) (P : Event → Prop) : Prop :=
  ∀ e n, x = .ok (some e, n) → P e

theorem gives_error {P : Event → Prop} (fault : Fault) :
    Piece.Gives (.error fault) P :=
  nofun

theorem gives_one {P : Event → Prop} {e : Event} (h : P e) (n : Nat) :
    Piece.Gives (.ok (some e, n)) P := by
  intro e' n' he
  cases he
  exact h

/-- How long the markup is does not matter. -/
theorem Piece.Gives.map {x : Piece} {P : Event → Prop} (h : x.Gives P) :
    Piece.Gives (x.map fun (event, n) => (event, n + 1)) P := by
  intro e n he
  cases x with
  | error fault => cases he
  | ok scanned =>
    obtain ⟨event, m⟩ := scanned
    cases he
    exact h e m rfl

/-- Behind the end of a construct nothing is looked at. -/
theorem gives_delimited {what : Construct} {skip : Nat} {closer s : List Char}
    {event : List Char → Option Event} {P : Event → Prop}
    (h : ∀ i, indexOf? closer (s.drop skip) = some i →
      ∀ e ∈ event ((s.drop skip).take i), P e) :
    Piece.Gives (delimited what skip closer s event) P := by
  unfold delimited
  split
  · next i hi =>
    intro e n he
    exact h i hi e (Prod.mk.inj (Except.ok.inj he)).1
  · exact gives_error _

theorem whole_startPiece (s : List Char) :
    (startPiece s).Gives Event.Whole := by
  unfold startPiece
  cases tagLength none s with
  | error fault => exact gives_error fault
  | ok n =>
    dsimp only [bind, Except.bind]
    split <;> exact gives_one trivial _

theorem whole_endPiece (s : List Char) : (endPiece s).Gives Event.Whole := by
  unfold endPiece
  cases tagLength none s with
  | error fault => exact gives_error fault
  | ok n => exact gives_one trivial _

theorem whole_instructionPiece (s : List Char) :
    (instructionPiece s).Gives Event.Whole := by
  unfold instructionPiece
  split
  · exact gives_error _
  · refine (gives_delimited fun i _ e he => ?_).map
    unfold instructionEvent at he
    split at he
    · cases he
    · cases he
      trivial

/-- A document type gives no event. -/
theorem whole_doctypePiece (s : List Char) :
    (doctypePiece s).Gives Event.Whole := by
  intro e n he
  unfold doctypePiece at he
  split at he
  · cases he
  · split at he
    · cases he
    · split at he
      · cases he
      · cases he

/-- A section runs to the first mark that closes one. -/
theorem whole_bangPiece (s : List Char) : (bangPiece s).Gives Event.Whole := by
  unfold bangPiece
  split
  · split
    · refine (gives_delimited fun i hi e he => ?_).map
      cases he
      show breakOn? sectionEnd (String.ofList _).toList = none
      rw [String.toList_ofList]
      exact breakOn?_before (by decide) (congrArg (Option.map _) hi)
    · exact gives_error _
  · split
    · refine (gives_delimited fun i _ e he => ?_).map
      cases he
      trivial
    · exact gives_error _
  · split
    · exact whole_doctypePiece _
    · exact gives_error _
  · exact gives_error _

theorem whole_markupPiece (s : List Char) :
    (markupPiece s).Gives Event.Whole := by
  unfold markupPiece
  split
  · exact whole_bangPiece _
  · exact whole_instructionPiece _
  · exact whole_endPiece _
  · exact whole_startPiece _

theorem whole_piece (c : Char) (s : List Char) :
    (piece c s).Gives Event.Whole := by
  unfold piece
  split
  · exact whole_markupPiece s
  · split
    · unfold referencePiece
      dsimp only
      split
      · exact gives_one trivial _
      · exact gives_error _
    · exact gives_one trivial _

/-- All sections that are scanned are whole. -/
theorem whole_scanFrom (pos : Nat) (s : List Char) :
    ∀ placed ∈ (scanFrom pos s).events, placed.event.Whole := by
  fun_induction scanFrom pos s with
  | case1 => exact nofun
  | case2 => exact nofun
  | case3 pos c s n rest e hpiece ih =>
    intro placed hplaced
    rcases List.mem_cons.1 hplaced with rfl | hplaced
    · exact whole_piece c s e n hpiece
    · exact ih placed hplaced
  | case4 pos c s n hpiece rest ih => exact ih

-- ==================================================================== marks

/-- Joining texts leaves the sections. -/
theorem cdata_of_mem_joinTexts {s : String} {ms : List Mark}
    (h : .cdata s ∈ joinTexts ms) : .cdata s ∈ ms := by
  induction ms with
  | nil => exact h
  | cons m ms ih =>
    have other (h : Mark.cdata s ∈ m :: joinTexts ms) : .cdata s ∈ m :: ms := by
      rcases List.mem_cons.1 h with rfl | h
      · exact List.mem_cons_self
      · exact List.mem_cons_of_mem m (ih h)
    cases m with
    | text t =>
      have h : Mark.cdata s ∈ prependText t (joinTexts ms) := h
      refine other ?_
      cases hms : joinTexts ms with
      | nil =>
        rw [hms] at h
        exact h
      | cons n ns =>
        rw [hms] at h
        cases n with
        | text u =>
          rcases List.mem_cons.1 h with he | h
          · cases he
          · exact List.mem_cons_of_mem _ (List.mem_cons_of_mem _ h)
        | _ => exact h
    | _ => exact other h

/-- No mark is put in where white space is left out. -/
theorem sublist_withoutOutside (depth : Nat) (ms : List Mark) :
    (withoutOutside depth ms).Sublist ms := by
  fun_induction withoutOutside depth ms with
  | case1 => exact .slnil
  | case4 ms s hblank ih => exact ih.cons _
  | _ => exact List.Sublist.cons_cons _ (by assumption)

/-- The sections among the marks of an event are those of the event. -/
theorem whole_marks {e : Event} {ms : List Mark} (h : e.marks? = some ms)
    (he : e.Whole) {s : String} (hs : .cdata s ∈ ms) :
    breakOn? sectionEnd s.toList = none := by
  cases e with
  | start tag empty =>
    obtain ⟨attributes, -, rfl⟩ := Option.map_eq_some_iff.1 h
    cases empty <;> simp at hs
  | text t =>
    cases h
    unfold textMarks at hs
    split at hs <;> simp at hs
  | reference name =>
    obtain ⟨c, -, rfl⟩ := Option.map_eq_some_iff.1 h
    simp at hs
  | cdata t =>
    cases h
    cases List.mem_singleton.1 hs
    exact he
  | stop name => cases h; simp at hs
  | comment t => cases h; simp at hs
  | instruction target data => cases h; simp at hs

/-- No section of a document that is parsed holds the end of one. -/
theorem Tree.whole_of_parse {source : List Char} {t : Tree}
    (h : parse source = .ok t) {s : String} (hs : .cdata s ∈ t.marks) :
    breakOn? sectionEnd s.toList = none := by
  have hmarks := marks_of_parse h
  obtain ⟨mss, hmss, ht⟩ := Option.map_eq_some_iff.1 hmarks
  rw [← ht] at hs
  have hmem := (sublist_withoutOutside 0 _).mem (cdata_of_mem_joinTexts hs)
  obtain ⟨ms, hms, hs⟩ := List.mem_flatten.1 hmem
  obtain ⟨e, he, hems⟩ := Text.exists_of_mem_mapM hmss hms
  exact whole_marks hems (whole_scanFrom 0 _ e he) hs

end Stencil.Markup
