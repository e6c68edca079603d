/-
The events of a document that is read back.

Marks have no namespaces, but where the open elements are known so is what
every name stands for, and marks can be played again as events (`replay`). A
tree that has been parsed gives its own events in this way, and so do readable
pieces, so that the tree read from the text of a readable element has the
events of that element, once runs of character data are joined.
-/
import Stencil.Proofs.Output.Marks

namespace Stencil.Output

open Markup (Context Declarations Leads Stops Anything Mark Notes Tree
  elementOf? declared textMarks joinTexts withoutOutside)

-- ============================================================= joined events

/-- The events are the same once joined, whatever character data stands before
them. -/
def SameEvents (es fs : List Event) : Prop :=
  ∀ pending, joinFrom pending es = joinFrom pending fs

namespace SameEvents

variable {es fs gs : List Event}

theorem refl (es : List Event) : SameEvents es es := fun _ => rfl

theorem symm (h : SameEvents es fs) : SameEvents fs es :=
  fun pending => (h pending).symm

theorem trans (h : SameEvents es fs) (h' : SameEvents fs gs) :
    SameEvents es gs :=
  fun pending => (h pending).trans (h' pending)

theorem cons (e : Event) (h : SameEvents es fs) :
    SameEvents (e :: es) (e :: fs) := by
  intro pending
  cases e with
  | characters s => exact h (pending ++ s)
  | _ =>
    rw [joinFrom, joinFrom, h ""]
    all_goals exact nofun

theorem behind (gs : List Event) (h : SameEvents es fs) :
    SameEvents (gs ++ es) (gs ++ fs) := by
  induction gs with
  | nil => exact h
  | cons e gs ih => exact ih.cons e

theorem joined_eq (h : SameEvents es fs) : joined es = joined fs := h ""

end SameEvents

/-- The front of some events may be joined before the rest is. -/
theorem joinFrom_append (pending : String) (es gs : List Event) :
    joinFrom pending (es ++ gs) = joinFrom "" (joinFrom pending es ++ gs) := by
  induction es generalizing pending with
  | nil =>
    rw [List.nil_append, joinFrom]
    split
    · next hempty => rw [String.isEmpty_iff.1 hempty, List.nil_append]
    · show _ = joinFrom ("" ++ pending) gs
      rw [String.empty_append]
  | cons e es ih =>
    -- an event that is no text is put behind what is pending
    have other (hcons : ∀ pending fs, joinFrom pending (e :: fs)
          = if pending.isEmpty then e :: joinFrom "" fs
            else .characters pending :: e :: joinFrom "" fs) :
        joinFrom pending (e :: (es ++ gs))
          = joinFrom "" (joinFrom pending (e :: es) ++ gs) := by
      have hrest : joinFrom "" (e :: (joinFrom "" es ++ gs))
          = e :: joinFrom "" (es ++ gs) := by
        rw [hcons, if_pos (by decide), ← ih ""]
      rw [hcons, hcons]
      split
      · exact hrest.symm
      · next hfilled =>
        show _ = joinFrom ("" ++ pending) (e :: (joinFrom "" es ++ gs))
        rw [String.empty_append, hcons, if_neg hfilled, ← ih ""]
    cases e with
    | characters s => exact ih (pending ++ s)
    | _ => exact other fun _ _ => rfl

theorem SameEvents.append {es fs : List Event} (h : SameEvents es fs)
    (gs : List Event) : SameEvents (es ++ gs) (fs ++ gs) := by
  intro pending
  rw [joinFrom_append, h pending, ← joinFrom_append]

theorem sameEvents_characters (s t : String) (es : List Event) :
    SameEvents (.characters s :: .characters t :: es)
      (.characters (s ++ t) :: es) := by
  intro pending
  show joinFrom (pending ++ s ++ t) es = joinFrom (pending ++ (s ++ t)) es
  rw [String.append_assoc]

theorem sameEvents_nothing (es : List Event) :
    SameEvents (.characters "" :: es) es := by
  intro pending
  show joinFrom (pending ++ "") es = joinFrom pending es
  rw [String.append_empty]

-- ==================================================================== replay

/-- The open elements, innermost first, with what each declares. -/
abbrev Opened := List (ElementName × Declarations)

/-- The declarations around; the document itself makes none. -/
def Opened.context (o : Opened) : Context := o.map Prod.snd ++ [[]]

/-- The element that a name and attributes stand for. -/
def startedName (ctx : Context) (name : String)
    (attributes : List (String × String)) : ElementName :=
  ((elementOf? ctx name attributes).map .ofElement).getD ⟨none, "", name⟩

/-- Marks as events, inside some open elements. -/
def replay : Opened → List Mark → List Event
  | _, [] => []
  | o, .start name attributes :: ms =>
    let started := startedName o.context name attributes
    .start started attributes :: replay ((started, declared attributes) :: o) ms
  | (name, _) :: o, .stop _ :: ms => .stop name :: replay o ms
  | o, .text s :: ms => .characters s :: replay o ms
  | o, .cdata s :: ms => .startCData :: .characters s :: .endCData :: replay o ms
  | o, _ :: ms => replay o ms

theorem replay_textMarks (o : Opened) (s : String) (ms : List Mark) :
    SameEvents (replay o (textMarks s ++ ms)) (.characters s :: replay o ms) := by
  unfold textMarks
  split
  · next hs =>
    rw [String.isEmpty_iff.1 hs]
    exact (sameEvents_nothing _).symm
  · exact .refl _

/-- Joined marks are the same events. -/
theorem replay_joinTexts (o : Opened) (ms : List Mark) :
    SameEvents (replay o (joinTexts ms)) (replay o ms) := by
  induction ms generalizing o with
  | nil => exact .refl _
  | cons m ms ih =>
    cases m with
    | start name attributes => exact (ih _).cons _
    | stop name =>
      cases o with
      -- an end for which nothing was opened is passed over
      | nil => exact ih []
      | cons top o => exact (ih o).cons _
    | text s =>
      have hprepend : SameEvents (replay o (Markup.prependText s (joinTexts ms)))
          (.characters s :: replay o (joinTexts ms)) := by
        cases joinTexts ms with
        | nil => exact .refl _
        | cons n ns =>
          cases n with
          | text t => exact (sameEvents_characters s t _).symm
          | _ => exact .refl _
      exact hprepend.trans ((ih o).cons _)
    | cdata s => exact (ih o).behind [.startCData, .characters s, .endCData]
    | comment s => exact ih o
    | instruction target data => exact ih o

mutual

/-- The marks of a tree are its own events, where it stands. -/
theorem replay_tree : ∀ (o : Opened) (t : Tree), t.Tidy →
    t.content ≠ .document → t.Resolved o.context → ∀ rest,
    replay o (t.marks ++ rest)
      = forestEvents (treePieces allAttributes t) ++ replay o rest
  | o, .node ⟨id, place, content⟩ ts, htidy, hdocument, hresolved, rest => by
    obtain ⟨horderly, hbelow⟩ := Tree.tidy_node.1 htidy
    cases content with
    | document => exact absurd rfl hdocument
    | element e =>
      obtain ⟨⟨hself, -⟩, hinside⟩ := hresolved
      have hown := (Markup.declarations_of_elementOf? hself).1
      rw [hown] at hinside
      -- the children are replayed with the element open, up to its end
      have hinside := replay_trees ((.ofElement e, declared e.raw) :: o) ts hbelow
        horderly.below hinside (.stop e.name.text :: rest)
      have hstarted : startedName o.context e.name.text e.raw = .ofElement e := by
        unfold startedName
        rw [hself]
        rfl
      have hmarks : (Markup.Tree.node ⟨id, place, .element e⟩ ts).marks ++ rest
          = .start e.name.text e.raw
            :: (Markup.marksOf ts ++ .stop e.name.text :: rest) := by
        simp [Tree.marks, Markup.Element.raw]
      rw [hmarks, replay, hstarted, hinside]
      simp [treePieces, forestEvents, Piece.events, replay, allAttributes,
        Markup.Element.raw]
    | text s => rfl
    | cdata s => rfl
    | comment s => rfl
    | instruction target data => rfl
termination_by structural _ t => t

theorem replay_trees : ∀ (o : Opened) (ts : List Tree), (∀ t ∈ ts, t.Tidy) →
    (∀ t ∈ ts, t.content ≠ .document) → Tree.AllResolved o.context ts →
    ∀ rest, replay o (Markup.marksOf ts ++ rest)
      = forestEvents (treesPieces allAttributes ts) ++ replay o rest
  | _, [], _, _, _, _ => rfl
  | o, t :: ts, htidy, hdocument, ⟨hr, hresolved⟩, rest => by
    obtain ⟨ht, htidy⟩ := List.forall_mem_cons.1 htidy
    obtain ⟨hd, hdocument⟩ := List.forall_mem_cons.1 hdocument
    rw [Markup.marksOf, List.append_assoc, replay_tree o t ht hd hr,
      replay_trees o ts htidy hdocument hresolved, treesPieces,
      forestEvents_append, List.append_assoc]
termination_by structural _ ts => ts

end

/-- The marks of a document are its own events. -/
theorem replay_document {source : List Char} {t : Tree}
    (h : Tree.parse source = .ok t) :
    replay [] t.marks = forestEvents (documentPieces t) := by
  obtain ⟨id, place, ts, rfl, htidy, hdocument, hresolved⟩ :=
    Tree.children_of_parse h
  have hall := replay_trees [] ts htidy hdocument hresolved []
  rw [List.append_nil, replay, List.append_nil] at hall
  exact hall

mutual

/-- The marks of a readable piece are its own events. The depth at which they
stand is that of the open elements. -/
theorem replay_piece : ∀ (o : Opened) (p : Piece), p.Readable o.context →
    (∀ s, p ≠ .text s) → ∀ rest,
    SameEvents (replay o (withoutOutside o.length (p.marks ++ rest)))
      (p.events ++ replay o (withoutOutside o.length rest))
  | o, .element name attributes children, ⟨_, he, hin⟩, _, rest => by
    have hinside := replay_forest o (name, declared attributes) "" children hin
      (.stop name.qualified :: rest)
    have hstarted : startedName o.context name.qualified attributes = name := by
      unfold startedName
      rw [he]
      rfl
    have hmarks : (Piece.element name attributes children).marks ++ rest
        = .start name.qualified attributes
          :: (forestMarks "" children ++ .stop name.qualified :: rest) := by
      simp [Piece.marks]
    have hevents : (Piece.element name attributes children).events
          ++ replay o (withoutOutside o.length rest)
        = .start name attributes :: (forestEvents children
          ++ .stop name :: replay o (withoutOutside o.length rest)) := by
      simp [Piece.events]
    rw [hmarks, withoutOutside, replay, hstarted, hevents]
    exact (hinside.trans (sameEvents_nothing _)).cons _
  | o, .cdata s, _, _, rest => by
    have hkept : withoutOutside o.length (.cdata s :: rest)
        = .cdata s :: withoutOutside o.length rest := by
      cases o <;> rfl
    show SameEvents (replay o (withoutOutside o.length (.cdata s :: rest))) _
    rw [hkept]
    exact .refl _
  | _, .text s, _, h, _ => absurd rfl (h s)
termination_by structural _ p => p

theorem replay_forest (o : Opened) : ∀ (top : ElementName × Declarations)
    (run : String) (ps : List Piece),
    ForestReadable (Opened.context (top :: o)) ps → ∀ rest,
    SameEvents
      (replay (top :: o)
        (withoutOutside (o.length + 1) (forestMarks run ps ++ rest)))
      (.characters run :: (forestEvents ps
        ++ replay (top :: o) (withoutOutside (o.length + 1) rest)))
  | top, run, [], _, rest => by
    rw [forestMarks, Markup.withoutOutside_textMarks]
    exact replay_textMarks (top :: o) run _
  | top, run, p :: ps, ⟨hp, hps⟩, rest => by
    -- what is no text ends the text that is pending
    have other (htext : ∀ s, p ≠ .text s) :
        SameEvents
          (replay (top :: o) (withoutOutside (o.length + 1)
            (textMarks run ++ p.marks ++ forestMarks "" ps ++ rest)))
          (.characters run :: (p.events ++ forestEvents ps
            ++ replay (top :: o) (withoutOutside (o.length + 1) rest))) := by
      have hpiece := replay_piece (top :: o) p hp htext (forestMarks "" ps ++ rest)
      have hrest := (replay_forest o top "" ps hps rest).trans
        (sameEvents_nothing _)
      rw [List.append_assoc, List.append_assoc, List.append_assoc,
        Markup.withoutOutside_textMarks]
      exact (replay_textMarks (top :: o) run _).trans
        ((hpiece.trans (hrest.behind p.events)).cons _)
    cases p with
    | text s =>
      exact (replay_forest o top (run ++ s) ps hps rest).trans
        (sameEvents_characters run s _).symm
    | element name attributes children => exact other nofun
    | cdata s => exact other nofun
    | doctype name publicId systemId => exact hp.elim
termination_by structural _ _ ps => ps

end

-- =============================================================== documents

/-- The text of a document has the marks of its pieces, and those of the line
feed behind its declaration. -/
theorem notes_document (declaration : Bool) {ps : List Piece}
    (h : ForestReadable [[]] ps) :
    Leads Stops (documentXml .all declaration ps).toList
      (Notes (forestMarks (if declaration then "\n" else "") ps)) := by
  cases declaration with
  | false =>
    have htext : documentXml .all false ps = forestXml .all "" ps :=
      String.empty_append
    rw [htext]
    exact notes_forest "" h
  | true =>
    have hdeclared : Leads Anything _ (Notes []) :=
      Markup.leads_declaration.mono fun _ _ hr => hr.notes_nothing
    have hall := hdeclared.append (notes_forest "\n" h) (fun _ _ => trivial)
      fun _ _ _ hr hf => hr.append hf
    rw [toList_declared]
    exact hall

/-- A document begins with markup. -/
theorem withoutMark_document (declaration : Bool) (name : ElementName)
    (attributes : List (String × String)) (children after : List Piece) :
    let source := (documentXml .all declaration
      (.element name attributes children :: after)).toList
    Markup.withoutMark source = source := by
  intro source
  cases declaration with
  | false =>
    have hhead : ∃ blank rest, blank.all Text.isBlank = true
        ∧ (forestXml .all ""
            ([] ++ .element name attributes children :: after)).toList
          = blank ++ '<' :: rest := head_rooted allBlank_nothing nofun
    obtain ⟨blank, rest, hblank, htext⟩ := hhead
    have hsource : source = blank ++ '<' :: rest := by
      rw [← htext]
      exact congrArg String.toList String.empty_append
    rw [hsource]
    exact withoutMark_of_head hblank rest
  | true =>
    have hblank : ([] : List Char).all Text.isBlank = true := rfl
    show Markup.withoutMark (documentXml .all true _).toList
      = (documentXml .all true _).toList
    rw [toList_declared]
    exact withoutMark_of_head hblank _

/-- A readable element that is written, with white space behind it, is parsed
into a document that has the events of the element. -/
theorem events_of_written (declaration : Bool) {name : ElementName}
    {attributes : List (String × String)} {children : List Piece}
    {line : String} (hline : Text.allBlank line = true)
    (h : (Piece.element name attributes children).Readable [[]]) :
    ∃ t, Tree.parse (documentXml .all declaration
        [.element name attributes children, .text line]).toList = .ok t
      ∧ SameEvents (forestEvents (documentPieces t))
        (Piece.element name attributes children).events := by
  have hreadable : ForestReadable [[]]
      [.element name attributes children, .text line] :=
    ⟨h, trivial, trivial⟩
  have hout : ∀ p ∈ ([] ++ [.text line] : List Piece), p.Outside := by
    intro p hp
    obtain rfl := List.mem_singleton.1 hp
    exact hline
  have hparse := parse_document declaration [] [.text line]
    hreadable.data.1 hout
  obtain ⟨-, hdata⟩ := h.data
  obtain ⟨x, hx⟩ : ∃ x, Markup.elementDatum? [[]] name.qualified attributes
      (forestData? [declared attributes, []] children) = some x := by
    rw [Piece.data?, Option.isSome_map] at hdata
    exact Option.isSome_iff_exists.1 hdata
  rw [hx] at hparse
  obtain ⟨t, ht, -⟩ := hparse
  refine ⟨t, ht, ?_⟩
  have hmarks := Tree.marks_of_notes (withoutMark_document declaration name
    attributes children [.text line]) (notes_document declaration hreadable) ht
  have hlead : Text.allBlank (if declaration then "\n" else "") = true := by
    cases declaration <;> decide
  have hroot := replay_piece [] _ h nofun (textMarks line)
  -- the last line is outside of the root, so it leaves no mark
  have hnone : withoutOutside 0 (textMarks line) = [] := by
    rw [← List.append_nil (textMarks line), Markup.withoutOutside_blank hline]
    rfl
  rw [← replay_document ht, hmarks]
  refine (replay_joinTexts [] _).trans ?_
  show SameEvents (replay [] (withoutOutside 0 (textMarks _
    ++ Piece.marks _ ++ textMarks ("" ++ line)))) _
  rw [List.append_assoc, Markup.withoutOutside_blank hlead,
    String.empty_append]
  refine hroot.trans ?_
  rw [show ([] : Opened).length = 0 from rfl, hnone, replay, List.append_nil]
  exact .refl _

end Stencil.Output
