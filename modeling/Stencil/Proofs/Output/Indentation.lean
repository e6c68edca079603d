/-
The writer that indents against the layout of the pieces.

The writer decides about a line when the markup behind it comes, by what the
innermost open element has held so far; the layout decides by the margin. Both
stay in step: the margin says what the element has held, and whether the place
is on a new line (`Margin.Fits`). Contents then lead from one such state to
another from which as much is still to be written as the layout has left
(`lays_forest`). So character data keeps white space out only of what follows
it (`indented_as_laid_out`): an element in front of it is on a line of its own
already (`mixed_content_indented`).
-/
import Stencil.Proofs.Output.Layout
import Stencil.Proofs.Output.Streaming

namespace Stencil.Output

namespace Writer

-- ================================================================== places

theorem onNewLine_append (s : String) {t : String} (h : t ≠ "") :
    onNewLine (s ++ t) = onNewLine t := by
  have hlist : t.toList ≠ [] := fun he => h (String.toList_injective he)
  have hempty : (s ++ t).isEmpty = false := by
    rw [Bool.eq_false_iff]
    intro he
    exact h (String.append_eq_empty_iff.1 (String.isEmpty_iff.1 he)).2
  have ht : t.isEmpty = false := by
    rw [Bool.eq_false_iff]
    exact fun he => h (String.isEmpty_iff.1 he)
  unfold onNewLine
  rw [hempty, ht, String.toList_append, List.getLast?_append,
    List.getLast?_eq_some_getLast hlist]
  rfl

theorem onNewLine_tag (s : String) : onNewLine (s ++ ">") = false := by
  rw [onNewLine_append s (by decide)]
  decide

theorem onNewLine_doctype (s name : String) (publicId systemId : Option String) :
    onNewLine (s ++ doctypeText name publicId systemId) = true := by
  unfold doctypeText
  rw [← String.append_assoc, onNewLine_append _ (by decide)]
  decide

-- ================================================================= margins

/-- A place in the contents of an element of which that much has been met. -/
structure Fits (m : Margin) (p : Place) : Prop where
  begun : p.1 ≠ ""
  fed : m.data = false → onNewLine (p.1 ++ closing p.2) = m.fed
  closed : m.elements = true → p.2 = false

section

variable {m : Margin} {p : Place}

/-- Behind a run, which may have been dropped. -/
theorem Fits.behind (h : Fits m p) (run : String) :
    Fits (m.behind run) (advance p (runText .indent run)) := by
  cases hkeeps : keeps .indent run with
  | false =>
    -- a run that is dropped leaves everything as it was
    have hbehind : m.behind run = m := by
      unfold Margin.behind
      rw [hkeeps, Bool.or_false]
    rw [hbehind, runText_of_not_keeps hkeeps]
    exact h
  | true =>
    -- a run that is kept is data, so no line is begun any more
    have hdata : (m.behind run).data = true := by
      unfold Margin.behind
      rw [hkeeps]
      exact Bool.or_true _
    refine ⟨?_, ?_, ?_⟩
    · unfold advance
      split
      · exact h.begun
      · intro he
        exact h.begun (String.append_eq_empty_iff.1
          (String.append_eq_empty_iff.1 he).1).1
    · intro hnone
      rw [hdata] at hnone
      cases hnone
    · intro helements
      unfold advance
      split
      · exact h.closed helements
      · rfl

/-- Behind markup that was written whole. -/
theorem fits_markup {s t : String} (ht : t ≠ "")
    (hfed : m.data = false → onNewLine t = m.fed) : Fits m (s ++ t, false) where
  begun := fun he => ht (String.append_eq_empty_iff.1 he).2
  fed := by
    intro hdata
    show onNewLine (s ++ t ++ "") = m.fed
    rw [String.append_empty, onNewLine_append s ht]
    exact hfed hdata
  closed := fun _ => rfl

theorem fits_inside (s name : String) (attributes : List (String × String)) :
    Fits .inside (s ++ startTag name attributes, true) where
  begun := fun he =>
    startTag_ne_empty name attributes (String.append_eq_empty_iff.1 he).2
  fed := fun _ => onNewLine_tag _
  closed := nofun

/-- The line that the writer puts in is that of the layout. -/
theorem Fits.newLineText (h : Fits m p) (hdata : m.data = false) (depth : Nat) :
    newLineText .indent (p.1 ++ closing p.2) depth = lineText m.fed depth := by
  have hempty : (p.1 ++ closing p.2).isEmpty = false := by
    rw [Bool.eq_false_iff]
    intro he
    exact h.begun (String.append_eq_empty_iff.1 (String.isEmpty_iff.1 he)).1
  unfold Writer.newLineText
  rw [hempty, h.fed hdata]
  rfl

/-- What the layout has at the end of contents that stand one level further
in. -/
def endLine (m : Margin) (depth : Nat) : String :=
  if m.elements && !m.data then lineText m.fed depth else ""

/-- The end of an element is written with the line before it. -/
theorem Fits.stopText (h : Fits m p) (name : String) (depth : Nat) :
    p.1 ++ stopText .xml .indent ⟨name, m.elements, m.data, false, false⟩ p depth
      = (ended (advance p (endLine m depth)) name).1 := by
  obtain ⟨s, tagOpen⟩ := p
  cases tagOpen with
  | true =>
    -- nothing but a start tag stands before it
    have hnone : endLine m depth = "" := by
      unfold endLine
      cases helements : m.elements with
      | false => rfl
      | true => exact nomatch h.closed helements
    rw [hnone]
    rfl
  | false =>
    have hline : endLine m depth
        = if m.elements && !m.data then Writer.newLineText .indent
            (s ++ closing false) depth else "" := by
      unfold endLine
      split
      · next hends =>
        have hdata := (Bool.and_eq_true_iff.1 hends).2
        rw [Bool.not_eq_true'] at hdata
        exact (h.newLineText hdata depth).symm
      · rfl
    rw [advance_closed, hline]
    show s ++ ("" ++ (_ ++ ("</" ++ name ++ ">")))
      = s ++ _ ++ ("</" ++ name ++ ">")
    rw [String.empty_append]
    exact String.append_assoc.symm

-- ============================================================= rest of text

/-- Contents as they are laid out behind what has been met of them and behind
a run of character data, written. -/
def laidText (depth : Nat) (m : Margin) (run : String) (ps : List Piece) :
    String :=
  forestXml .all "" (indent depth m (settle .indent run ps))

theorem laidText_nil (depth : Nat) (m : Margin) (run : String) :
    laidText (depth + 1) m run []
      = runText .indent run ++ endLine (m.behind run) depth := by
  have hpieces := indent_runPieces (depth + 1) m run []
  rw [List.append_nil] at hpieces
  show forestXml .all "" (indent (depth + 1) m (runPieces .indent run)) = _
  rw [hpieces, forestXml_pieces, forestXml_runPieces]
  unfold indent endLine
  split
  · rw [Nat.add_sub_cancel, forestXml_linePieces]
  · rfl

/-- What is no character data is written between its run and the rest. -/
theorem laidText_run (depth : Nat) (m : Margin) (run : String) {p : Piece}
    (hp : ∀ s, p ≠ .text s) (ps : List Piece) :
    laidText depth m run (p :: ps) = runText .indent run
      ++ forestXml .all "" (indent depth (m.behind run)
        (p.settled .indent :: settle .indent "" ps)) := by
  unfold laidText
  rw [settle_other .indent run hp, indent_runPieces, forestXml_pieces,
    forestXml_runPieces]

theorem laidText_element (depth : Nat) (m : Margin) (run : String)
    (name : ElementName) (attributes : List (String × String))
    (children ps : List Piece) :
    laidText depth m run (.element name attributes children :: ps)
      = runText .indent run
        ++ ((if (m.behind run).data then "" else lineText (m.behind run).fed depth)
          ++ Piece.xml .all (.element name attributes
            (indent (depth + 1) .inside (settle .indent "" children)))
          ++ laidText depth ⟨(m.behind run).data, true, false⟩ "" ps) := by
  have hother : ∀ s, Piece.element name attributes children ≠ .text s := by simp
  rw [laidText_run depth m run hother]
  refine congrArg (runText .indent run ++ ·) ?_
  show forestXml .all "" ((if (m.behind run).data then []
    else linePieces (m.behind run).fed depth) ++ _ :: _) = _
  rw [forestXml_pieces, forestXml_cons, ← String.append_assoc]
  split
  · rfl
  · rw [forestXml_linePieces]
    rfl

end

-- ================================================================== states

/-- The writer stands in the contents of an element, of which that much has
been met. -/
structure Lays (name : ElementName) (es : List OpenElement) (m : Margin)
    (p : Place) (run : String) (w : Writer) : Prop where
  stands : At .xml .indent (⟨name.qualified, m.elements, m.data, false, false⟩
    :: es) p run w
  fits : Fits m p

/-- The contents are taken, and as much is still to be written as the layout
has left behind them. -/
def LeadsOn (name : ElementName) (es : List OpenElement) (m : Margin) (p : Place)
    (run : String) (ps : List Piece) (w : Writer) : Prop :=
  ∃ m' p' run', Lays name es m' p' run' w
    ∧ ∀ qs, advance p (laidText (es.length + 1) m run (ps ++ qs))
      = advance p' (laidText (es.length + 1) m' run' qs)

section

variable {name : ElementName} {es opened : List OpenElement} {m : Margin}
  {p : Place} {run : String} {w : Writer}

/-- The innermost element has held what the margin says behind a run. -/
theorem noted_behind (e : String) (es : List OpenElement) (m : Margin)
    (run : String) :
    noted .indent run (⟨e, m.elements, m.data, false, false⟩ :: es)
      = ⟨e, (m.behind run).elements, (m.behind run).data, false, false⟩
        :: es := by
  unfold noted Margin.behind
  cases keeps .indent run with
  | true =>
    rw [if_pos rfl, Bool.or_true]
    rfl
  | false =>
    rw [if_neg Bool.false_ne_true, Bool.or_false]

/-- An element is written as it is laid out, if its contents are. -/
theorem at_element (h : At .xml .indent opened p run w)
    (hraw : opened.head?.any (·.raw) = false) (name : ElementName)
    (attributes : List (String × String)) (children : List Piece)
    (inside : ∀ {es p w}, Lays name es .inside p "" w →
      Brings (acceptAll (forestEvents children)) w
        (LeadsOn name es .inside p "" children)) :
    let q := advance p (runText .indent run)
    let o := noted .indent run opened
    let s := q.1 ++ closing q.2
    Brings (acceptAll (Piece.element name attributes children).events) w
      (At .xml .indent (o.modifyHead OpenElement.withElements)
        (s ++ ((if o.head?.any (·.hasText) then ""
            else newLineText .indent s o.length)
          ++ Piece.xml .all (.element name attributes
            (indent (o.length + 1) .inside (settle .indent "" children)))),
          false) "") := by
  intro q o s
  -- the start tag, on a line of its own unless text stands before it
  have started := at_start h name attributes
  rw [heldText_eq .indent hraw] at started
  refine brings_accept_all started fun w₁ h₁ => ?_
  generalize hline : (if o.head?.any (·.hasText) then ""
    else newLineText .indent s o.length) = line at h₁ ⊢
  have begun : Lays name (o.modifyHead OpenElement.withElements) .inside
      (s ++ line ++ startTag name.qualified attributes, true) "" w₁ :=
    ⟨h₁, fits_inside _ _ _⟩
  -- the contents, one level further in
  refine brings_append (inside begun) fun w₂ ⟨m', p', run', h₂, hleft⟩ => ?_
  have hdepth : (o.modifyHead OpenElement.withElements).length = o.length :=
    List.length_modifyHead
  rw [hdepth] at hleft
  have hends := hleft []
  rw [List.append_nil, laidText_nil, advance_append] at hends
  -- the end tag, or the slash that closes an empty element
  have stopped := at_stop h₂.stands (noted_behind name.qualified _ m' run') rfl
  rw [heldText_eq .indent rfl] at stopped
  dsimp only at stopped
  rw [(h₂.fits.behind run').stopText, hdepth, ← hends, ended_advance] at stopped
  refine brings_accept_all stopped fun w₃ h₃ => brings_skip ?_
  rw [Piece.xml, ← String.append_assoc, ← String.append_assoc]
  exact h₃

-- ================================================================= forests

/-- The text of an element ends its line with a tag. -/
theorem xml_element_closed (name : ElementName)
    (attributes : List (String × String)) (children : List Piece) :
    ∃ t, Piece.xml .all (.element name attributes children) = t ++ ">" := by
  rw [Piece.xml]
  split
  · have hclose : "/>" = "/" ++ ">" := by decide
    rw [hclose, ← String.append_assoc]
    exact ⟨_, rfl⟩
  · rw [← String.append_assoc]
    exact ⟨_, rfl⟩

theorem fits_element (s line : String) (data : Bool) (name : ElementName)
    (attributes : List (String × String)) (children : List Piece) :
    Fits ⟨data, true, false⟩
      (s ++ (line ++ Piece.xml .all (.element name attributes children)),
        false) := by
  obtain ⟨t, ht⟩ := xml_element_closed name attributes children
  rw [ht, ← String.append_assoc]
  refine fits_markup ?_ fun _ => onNewLine_tag _
  intro he
  exact absurd (String.append_eq_empty_iff.1 he).2 (by decide)

/-- Behind an element its parent has held one. -/
theorem lays_element (h : Lays name es m p run w) (child : ElementName)
    (attributes : List (String × String)) (children : List Piece)
    (inside : ∀ {es p w}, Lays child es .inside p "" w →
      Brings (acceptAll (forestEvents children)) w
        (LeadsOn child es .inside p "" children)) :
    Brings (acceptAll (Piece.element child attributes children).events) w
      (LeadsOn name es m p run [.element child attributes children]) := by
  have hfits := h.fits.behind run
  have written := at_element h.stands rfl child attributes children inside
  rw [noted_behind] at written
  generalize hq : advance p (runText .indent run) = q at hfits written
  generalize hm : m.behind run = m' at hfits written
  -- the writer tells a new line by its text, the margin by what it was fed
  have hline : (if m'.data then ""
      else newLineText .indent (q.1 ++ closing q.2) (es.length + 1))
      = if m'.data then "" else lineText m'.fed (es.length + 1) := by
    cases hdata : m'.data with
    | true => rfl
    | false => exact hfits.newLineText hdata _
  refine written.mono fun w' h' => ?_
  refine ⟨⟨m'.data, true, false⟩, _, "", ⟨h', fits_element _ _ _ _ _ _⟩, ?_⟩
  intro qs
  have hwritten (line : String) : line ++ Piece.xml .all
      (.element child attributes
        (indent (es.length + 1 + 1) .inside (settle .indent "" children)))
      ≠ "" := by
    obtain ⟨t, ht⟩ := xml_element_closed child attributes
      (indent (es.length + 1 + 1) .inside (settle .indent "" children))
    rw [ht, ← String.append_assoc]
    intro he
    exact absurd (String.append_eq_empty_iff.1 he).2 (by decide)
  rw [List.singleton_append, laidText_element, advance_append, hq, hm,
    advance_append, advance_of_ne (hwritten _), ← hline]
  rfl

/-- A section is data, wherever it stands. -/
theorem lays_cdata (h : Lays name es m p run w) (data : String) :
    Brings (acceptAll (Piece.cdata data).events) w
      (LeadsOn name es m p run [.cdata data]) := by
  have hsection : sectionText .xml data ≠ "" := cdataSection_ne_empty data
  have written := at_cdata h.stands data
  rw [heldText_eq .indent rfl, noted_behind] at written
  refine written.mono fun w' h' => ?_
  refine ⟨{ m.behind run with data := true }, _, "",
    ⟨h', fits_markup hsection nofun⟩, ?_⟩
  intro qs
  have hother : ∀ s, Piece.cdata data ≠ .text s := by simp
  rw [List.singleton_append, laidText_run _ _ _ hother, advance_append]
  show advance _ (forestXml .all "" (.cdata data :: _)) = _
  rw [forestXml_cons, advance_append]
  exact congrArg (advance · _) (advance_of_ne hsection _)

/-- A document type ends its line. -/
theorem lays_doctype (h : Lays name es m p run w) (doctype : String)
    (publicId systemId : Option String) :
    Brings (acceptAll (Piece.doctype doctype publicId systemId).events) w
      (LeadsOn name es m p run [.doctype doctype publicId systemId]) := by
  have hdoctype := doctypeText_ne_empty doctype publicId systemId
  have written := at_doctype h.stands doctype publicId systemId
  rw [heldText_eq .indent rfl, noted_behind] at written
  refine written.mono fun w' h' => ?_
  have hfed : onNewLine (doctypeText doctype publicId systemId) = true := by
    have happend := onNewLine_doctype "" doctype publicId systemId
    rwa [String.empty_append] at happend
  refine ⟨{ m.behind run with fed := true }, _, "",
    ⟨h', fits_markup hdoctype fun _ => hfed⟩, ?_⟩
  intro qs
  have hother : ∀ s, Piece.doctype doctype publicId systemId ≠ .text s := by simp
  rw [List.singleton_append, laidText_run _ _ _ hother, advance_append]
  show advance _ (forestXml .all ""
    (.doctype doctype publicId systemId :: _)) = _
  rw [forestXml_cons, advance_append]
  exact congrArg (advance · _) (advance_of_ne hdoctype _)

mutual

theorem lays_piece {name : ElementName} {es : List OpenElement} {m : Margin}
    {p : Place} {run : String} {w : Writer} (h : Lays name es m p run w) :
    ∀ piece : Piece,
      Brings (acceptAll piece.events) w (LeadsOn name es m p run [piece])
  | .element child attributes children =>
    lays_element h child attributes children
      fun begun => lays_forest begun children
  | .text s =>
    brings_accept_all (at_characters h.stands s) fun _ h' =>
      brings_skip ⟨m, p, run ++ s, ⟨h', h.fits⟩, fun _ => rfl⟩
  | .cdata data => lays_cdata h data
  | .doctype doctype publicId systemId =>
    lays_doctype h doctype publicId systemId
termination_by structural piece => piece

/-- The contents of an element are written as they are laid out. -/
theorem lays_forest {name : ElementName} {es : List OpenElement} {m : Margin}
    {p : Place} {run : String} {w : Writer} (h : Lays name es m p run w) :
    ∀ ps, Brings (acceptAll (forestEvents ps)) w (LeadsOn name es m p run ps)
  | [] => brings_skip ⟨m, p, run, h, fun _ => rfl⟩
  | piece :: ps => by
    refine brings_append (lays_piece h piece)
      fun w₁ ⟨m₁, p₁, run₁, h₁, hfirst⟩ => ?_
    refine (lays_forest h₁ ps).mono fun w₂ ⟨m₂, p₂, run₂, h₂, hrest⟩ => ?_
    exact ⟨m₂, p₂, run₂, h₂, fun qs => (hfirst (ps ++ qs)).trans (hrest qs)⟩
termination_by structural ps => ps

end

end

-- =============================================================== documents

section

variable {run : String} {w : Writer}

theorem runText_blank (h : Text.allBlank run = true) :
    runText .indent run = "" :=
  runText_of_not_keeps (keeps_blank h)

theorem noted_outside (run : String) : noted .indent run [] = [] := by
  unfold noted
  split <;> rfl

/-- What has been met outside all elements stays the same behind white
space. -/
theorem behind_blank (m : Margin) (h : Text.allBlank run = true) :
    m.behind run = m := by
  unfold Margin.behind
  rw [keeps_blank h, Bool.or_false]

/-- A document type outside all elements. -/
theorem at_outside {s : String} (h : At .xml .indent [] (s, false) run w)
    (hrun : Text.allBlank run = true) (name : String)
    (publicId systemId : Option String) :
    Brings (acceptAll (Piece.doctype name publicId systemId).events) w
      (At .xml .indent [] (s ++ doctypeText name publicId systemId, false)
        "") := by
  have written := at_doctype h name publicId systemId
  rw [noted_outside, heldText_eq .indent rfl, runText_blank hrun] at written
  dsimp only [advance_nothing] at written
  have hclosed : s ++ closing false = s := String.append_empty
  rw [hclosed] at written
  exact written

theorem laidText_doctype (m : Margin) (hrun : Text.allBlank run = true)
    (name : String) (publicId systemId : Option String) (ps : List Piece) :
    laidText 0 m run (.doctype name publicId systemId :: ps)
      = doctypeText name publicId systemId
        ++ laidText 0 { m with fed := true } "" ps := by
  have hother : ∀ s, Piece.doctype name publicId systemId ≠ .text s := by simp
  rw [laidText_run 0 m run hother, runText_blank hrun, behind_blank m hrun,
    String.empty_append]
  exact forestXml_cons (.doctype name publicId systemId) _

/-- Behind the root element the document ends with its line. -/
theorem brings_after {after : List Piece} {s : String}
    (h : At .xml .indent [] (s, false) run w)
    (hrun : Text.allBlank run = true) (hout : ∀ p ∈ after, p.Outside) :
    Brings (acceptAll (forestEvents after ++ [.endDocument])) w
      fun w' => w'.text
        = s ++ laidText 0 ⟨false, true, onNewLine s⟩ run after := by
  induction after generalizing run s w with
  | nil =>
    have ended := at_endDocument h
    rw [heldText_eq .indent rfl, runText_blank hrun] at ended
    refine brings_accept_all ended fun w' hw' => brings_skip ?_
    -- white space at the end of the document is dropped
    have hpieces : settle .indent run [] = [] := runPieces_blank hrun
    unfold laidText
    rw [hpieces, hw']
    show s ++ _ = s ++ forestXml .all "" (linePieces (onNewLine s) 0)
    rw [forestXml_linePieces]
    show s ++ (if (true && !onNewLine s) = true then "\n" else "") = _
    cases onNewLine s <;> rfl
  | cons p after ih =>
    obtain ⟨hp, hrest⟩ := List.forall_mem_cons.1 hout
    cases p with
    | text t =>
      exact brings_accept_all (at_characters h t) fun w₁ h₁ =>
        ih h₁ (allBlank_append hrun hp) hrest
    | doctype name publicId systemId =>
      rw [forestEvents, List.append_assoc, laidText_doctype _ hrun,
        ← String.append_assoc]
      refine brings_append (at_outside h hrun name publicId systemId)
        fun w₁ h₁ => (ih h₁ allBlank_nothing hrest).mono fun w₂ h₂ => ?_
      rw [h₂, onNewLine_doctype]
    | element name attributes children => exact hp.elim
    | cdata data => exact hp.elim

/-- The root element, on a line that was begun, with what follows it. -/
theorem brings_root {after : List Piece} {name : ElementName}
    {attributes : List (String × String)} {children : List Piece} {s : String}
    (h : At .xml .indent [] (s, false) run w)
    (hrun : Text.allBlank run = true) (hline : onNewLine s = true)
    (hout : ∀ p ∈ after, p.Outside) :
    Brings (acceptAll (forestEvents
        (.element name attributes children :: after) ++ [.endDocument])) w
      fun w' => w'.text = s ++ laidText 0 .outside run
        (.element name attributes children :: after) := by
  have written := at_element h rfl name attributes children
    fun begun => lays_forest begun children
  rw [runText_blank hrun, noted_outside] at written
  have hclosed : (advance (s, false) "").1
      ++ closing (advance (s, false) "").2 = s := String.append_empty
  -- the line was begun before, so the element begins none
  have hnone : newLineText .indent s 0 = "" := by
    unfold newLineText
    rw [hline]
    split <;> rfl
  dsimp only at written
  rw [hclosed] at written
  change Brings _ w (At _ _ [] (s ++ (newLineText .indent s 0 ++ _), false)
    "") at written
  rw [hnone, String.empty_append] at written
  obtain ⟨t, ht⟩ := xml_element_closed name attributes
    (indent 1 .inside (settle .indent "" children))
  rw [forestEvents, List.append_assoc]
  refine brings_append written fun w₁ h₁ =>
    (brings_after h₁ allBlank_nothing hout).mono fun w₂ h₂ => ?_
  rw [h₂, laidText_element, runText_blank hrun, behind_blank _ hrun,
    String.empty_append, String.append_assoc]
  refine congrArg (s ++ ·) ?_
  -- it ends with a tag, so the next line is still to be begun
  have hopen : onNewLine (s ++ Piece.xml .all (.element name attributes
      (indent 1 .inside (settle .indent "" children)))) = false := by
    rw [ht, ← String.append_assoc]
    exact onNewLine_tag _
  show _ = "" ++ _ ++ _
  rw [String.empty_append]
  exact congrArg (_ ++ laidText 0 ⟨false, true, ·⟩ "" after) hopen

/-- The root element begins on a new line. -/
theorem brings_rooted {before after : List Piece} {name : ElementName}
    {attributes : List (String × String)} {children : List Piece} {s : String}
    (h : At .xml .indent [] (s, false) run w)
    (hrun : Text.allBlank run = true) (hline : onNewLine s = true)
    (hout : ∀ p ∈ before ++ after, p.Outside) :
    Brings (acceptAll (forestEvents
        (before ++ .element name attributes children :: after)
        ++ [.endDocument])) w
      fun w' => w'.text = s ++ laidText 0 .outside run
        (before ++ .element name attributes children :: after) := by
  induction before generalizing run s w with
  | nil => exact brings_root h hrun hline hout
  | cons p before ih =>
    obtain ⟨hp, hrest⟩ := List.forall_mem_cons.1 hout
    cases p with
    | text t =>
      exact brings_accept_all (at_characters h t) fun w₁ h₁ =>
        ih h₁ (allBlank_append hrun hp) hline hrest
    | doctype doctype publicId systemId =>
      rw [List.cons_append, forestEvents, List.append_assoc,
        laidText_doctype _ hrun, ← String.append_assoc]
      exact brings_append (at_outside h hrun doctype publicId systemId)
        fun w₁ h₁ => ih h₁ allBlank_nothing (onNewLine_doctype s _ _ _) hrest
    | element name attributes children => exact hp.elim
    | cdata data => exact hp.elim

end

/-- A document with one root element, among white space and document types, is
written as it is laid out. -/
theorem brings_indented (declaration : Bool) (before after : List Piece)
    (name : ElementName) (attributes : List (String × String))
    (children : List Piece) (hout : ∀ p ∈ before ++ after, p.Outside) :
    let ps := before ++ .element name attributes children :: after
    Brings (acceptAll (documentEvents ps))
      (.fresh .xml .indent declaration none)
      fun w => w.text = documentXml .all declaration (laidOut .indent ps) := by
  intro ps
  refine brings_accept_all (at_startDocument .xml .indent declaration)
    fun w₁ h₁ => ?_
  have hline : onNewLine (if declaration then xmlDeclaration else "")
      = true := by
    cases declaration <;> decide
  exact brings_rooted h₁ allBlank_nothing hline hout

/-- However the character data of a document comes, its events are all taken
with and without indentation, and both times the text is that of the layout.
The two layouts differ by white space alone, which stands before elements of a
parent that has held no data yet, at the end of contents that are elements
only, and around the root element. -/
theorem indented_as_laid_out (declaration : Bool) (before after : List Piece)
    (name : ElementName) (attributes : List (String × String))
    (children : List Piece) (es : List Event)
    (hout : ∀ p ∈ before ++ after, p.Outside)
    (hes : joined es = joined (documentEvents
      (before ++ .element name attributes children :: after))) :
    let ps := before ++ .element name attributes children :: after
    ∃ w₀ w, acceptAll es (.fresh .xml .none declaration none) = .ok () w₀
      ∧ w₀.text = documentXml .all declaration (laidOut .none ps)
      ∧ acceptAll es (.fresh .xml .indent declaration none) = .ok () w
      ∧ w.text = documentXml .all declaration (laidOut .indent ps)
      ∧ ForestSpaced false false (laidOut .none ps) (laidOut .indent ps) := by
  intro ps
  have hnone : Whitespace.none ≠ .indent := nofun
  obtain ⟨w₀, hw₀, htext₀⟩ := brings_document hnone declaration ps
  obtain ⟨w, hw, htext⟩ :=
    brings_indented declaration before after name attributes children hout
  have hsettled : laidOut .none ps = settle .none "" ps := if_neg hnone
  have hspaced := spaced_indent 0 .outside (settle .indent "" ps)
  refine ⟨w₀, w, acceptAll_of_joined hes hw₀, ?_, acceptAll_of_joined hes hw,
    htext, ?_⟩
  · rw [htext₀, hsettled]
    unfold documentXml
    rw [forestXml_settle]
  · rw [hsettled, settle_none]
    exact hspaced

/-- Elements side by side, an empty element, and data in front of an element. -/
def leaflet : List Piece :=
  let named (s : String) : ElementName := ⟨none, s, s⟩
  [.text "\n", .element (named "b") []
      [.text "t", .element (named "c") [] [], .text " ",
        .element (named "c") [] [.text " "]],
    .element (named "d") [] [.element (named "e") [] [.cdata "<"]]]

/-- The data may be cut anywhere. -/
theorem indented_leaflet :
    let named (s : String) : ElementName := ⟨none, s, s⟩
    let a := named "a"
    let b := named "b"
    let c := named "c"
    let d := named "d"
    let e := named "e"
    let before : List Piece := [.doctype "a" none none, .text "\n"]
    let es : List Event :=
      [.startDocument, .startDoctype "a" none none, .endDoctype,
        .characters "\n", .start a [], .characters "\n", .start b [],
        .characters "", .characters "t", .start c [], .stop c,
        .characters " ", .start c [], .characters " ", .stop c, .stop b,
        .start d [], .start e [], .startCData, .characters "<", .endCData,
        .stop e, .stop d, .stop a, .endDocument]
    (∀ p ∈ before ++ [], p.Outside)
    ∧ joined es
      = joined (documentEvents (before ++ .element a [] leaflet :: []))
    ∧ ∃ w₀ w, acceptAll es (.fresh .xml .none false none) = .ok () w₀
      ∧ w₀.text = "<!DOCTYPE a>\n<a><b>t<c/><c/></b>"
        ++ "<d><e><![CDATA[<]]></e></d></a>"
      ∧ acceptAll es (.fresh .xml .indent false none) = .ok () w
      ∧ w.text = "<!DOCTYPE a>\n<a>\n  <b>t<c/><c/></b>\n"
        ++ "  <d>\n    <e><![CDATA[<]]></e>\n  </d>\n</a>\n" := by
  intro named a b c d e before es
  have hout : ∀ p ∈ before ++ [], p.Outside := by
    intro p hp
    rcases List.mem_cons.1 hp with rfl | hp
    · trivial
    · obtain rfl := List.mem_singleton.1 hp
      exact allBlank_feed
  have hes : joined es
      = joined (documentEvents (before ++ .element a [] leaflet :: [])) := by
    decide
  obtain ⟨w₀, w, hw₀, htext₀, hw, htext, -⟩ :=
    indented_as_laid_out false before [] a [] leaflet es hout hes
  refine ⟨hout, hes, w₀, w, hw₀, ?_, hw, ?_⟩
  · rw [htext₀]
    decide +kernel
  · rw [htext]
    decide +kernel

/-- White space is put into contents that hold text, before an element that
stands in front of the text. -/
theorem mixed_content_indented :
    let a : ElementName := ⟨none, "a", "a"⟩
    let b : ElementName := ⟨none, "b", "b"⟩
    let written (ws : Whitespace) (s : String) : Prop :=
      ∃ w, acceptAll
          (documentEvents [.element a [] [.element b [] [], .text "t"]])
          (.fresh .xml ws false none) = .ok () w
        ∧ w.text = s
    written .none "<a><b/>t</a>" ∧ written .indent "<a>\n  <b/>t</a>\n" := by
  intro a b written
  have hnone : Whitespace.none ≠ .indent := nofun
  obtain ⟨w₀, hw₀, htext₀⟩ := brings_document hnone false
    [.element a [] [.element b [] [], .text "t"]]
  obtain ⟨w, hw, htext⟩ := brings_indented false [] [] a []
    [.element b [] [], .text "t"] nofun
  exact ⟨⟨w₀, hw₀, htext₀.trans (by decide +kernel)⟩,
    ⟨w, hw, htext.trans (by decide +kernel)⟩⟩

end Writer

end Stencil.Output
