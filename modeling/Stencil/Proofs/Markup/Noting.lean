/-
The marks of what is written.

`Leads` says of a text how builders react to it; here the reaction is to add
marks. Whatever a builder accepts, its marks together with those of the events
to come stay the same, so the marks of one text behind another are those of
both (`Notes.append`), and where they stand does not matter. Only character
data can be scanned in other parts than it is written in, and what becomes of
it depends on where it stands: outside all elements it is left out, and in an
element its parts are joined. `Says` keeps the two apart until the data is
whole.
-/
import Stencil.Proofs.Markup.Flattening
import Stencil.Proofs.Markup.Scanning

namespace Stencil.Markup

open Text (allBlank)

-- ============================================================ joining texts

theorem joinTexts_textMarks (s t : String) (rest : List Mark) :
    joinTexts (textMarks (s ++ t) ++ rest)
      = joinTexts (textMarks s ++ (textMarks t ++ rest)) := by
  have hfilled {s : String} (h : s ≠ "") : textMarks s = [.text s] :=
    if_neg fun he => h (String.isEmpty_iff.1 he)
  by_cases hs : s = ""
  · rw [hs, String.empty_append]
    rfl
  by_cases ht : t = ""
  · rw [ht, String.append_empty]
    rfl
  have hst : s ++ t ≠ "" := fun h => hs (String.append_eq_empty_iff.1 h).1
  rw [hfilled hs, hfilled ht, hfilled hst]
  exact (joinTexts_text_text s t rest).symm

-- ================================================================ reactions

/-- If the builder accepts the events, it gets these marks, those left out that
are outside all elements. -/
def Notes (ms : List Mark) : Reaction := fun b r =>
  ∀ b', r = .ok b' → ∀ rest,
    joinTexts (b.marks ++ withoutOutside b.depth (ms ++ rest))
      = joinTexts (b'.marks ++ withoutOutside b'.depth rest)

/-- If the builder accepts some character data, this is white space outside all
elements, or its marks are added to those of the builder. -/
def Says (s : String) : Reaction := fun b r =>
  ∀ b', r = .ok b' →
    (b.depth = 0 ∧ allBlank s = true ∧ b' = b)
    ∨ (0 < b.depth ∧ b'.depth = b.depth ∧ ∀ rest,
      joinTexts (b'.marks ++ rest) = joinTexts (b.marks ++ (textMarks s ++ rest)))

section

variable {b : Builder} {r : Except Error Builder}
  {f : Builder → Except Error Builder}

theorem Notes.append {ms ns : List Mark} (hr : Notes ms b r)
    (hf : ∀ b', Notes ns b' (f b')) : Notes (ms ++ ns) b (r >>= f) := by
  intro b'' h rest
  obtain ⟨b', hb', h⟩ := bind_eq_ok h
  rw [List.append_assoc, hr b' hb', hf b' b'' h]

theorem Feeds.notes {e : Event} {ms : List Mark} (h : Feeds (some e) b r)
    (hms : e.marks? = some ms) : Notes ms b r := by
  obtain ⟨place, rfl⟩ := h
  intro b' hb' rest
  obtain ⟨ns, hns, hmarks⟩ := Builder.marks_fed (Builder.fed_of_feed hb')
  obtain rfl : ms = ns := Option.some.inj (hms.symm.trans hns)
  exact hmarks rest

/-- Markup that is no event has no marks. -/
theorem Feeds.notes_nothing (h : Feeds none b r) : Notes [] b r := by
  obtain ⟨_, rfl⟩ := h
  intro b' hb' rest
  cases hb'
  rfl

theorem Texts.says {s : List Char} (h : Texts s b r) :
    Says (String.ofList s) b r := by
  obtain ⟨place, rfl⟩ := h
  intro b' hb'
  have htop : b.atTop = true ↔ b.depth = 0 :=
    List.isEmpty_iff.trans List.length_eq_zero_iff.symm
  rcases Builder.text_cases hb' with
    ⟨hs, rfl⟩ | ⟨hat, hblank, rfl⟩ | ⟨hs, hin, rfl⟩
  · rw [hs]
    rcases Nat.eq_zero_or_pos b'.depth with hdepth | hdepth
    · exact .inl ⟨hdepth, by decide, rfl⟩
    · exact .inr ⟨hdepth, rfl, fun _ => rfl⟩
  · exact .inl ⟨htop.1 hat, hblank, rfl⟩
  · have hdepth : b.depth ≠ 0 := by
      intro he
      rw [htop.2 he] at hin
      cases hin
    have hmarks : textMarks (String.ofList s) = [.text (String.ofList s)] :=
      if_neg fun he => hs (String.isEmpty_iff.1 he)
    rw [hmarks]
    exact .inr ⟨Nat.pos_of_ne_zero hdepth, b.depth_addText place _,
      b.joinTexts_addText place _⟩

theorem Says.append {s t : String} (hr : Says s b r)
    (hf : ∀ b', Says t b' (f b')) : Says (s ++ t) b (r >>= f) := by
  intro b'' h
  obtain ⟨b', hb', h⟩ := bind_eq_ok h
  rcases hr b' hb' with ⟨hdepth, hs, rfl⟩ | ⟨hpos, hdepth, hmarks⟩
  · rcases hf b' b'' h with ⟨-, ht, rfl⟩ | ⟨hpos, -, -⟩
    · refine .inl ⟨hdepth, ?_, rfl⟩
      unfold allBlank at hs ht ⊢
      rw [String.toList_append, List.all_append, hs, ht]
      rfl
    · rw [hdepth] at hpos
      exact absurd hpos (Nat.lt_irrefl 0)
  · rcases hf b' b'' h with ⟨hzero, -, -⟩ | ⟨-, hdepth', hmarks'⟩
    · rw [hdepth] at hzero
      exact absurd hzero (Nat.ne_of_gt hpos)
    · refine .inr ⟨hpos, hdepth'.trans hdepth, fun rest => ?_⟩
      rw [hmarks', hmarks]
      exact joinTexts_append_congr _ (joinTexts_textMarks s t rest).symm

/-- In an element no mark is left out at once. -/
theorem withoutOutside_textMarks (depth : Nat) (s : String) (rest : List Mark) :
    withoutOutside (depth + 1) (textMarks s ++ rest)
      = textMarks s ++ withoutOutside (depth + 1) rest := by
  unfold textMarks
  split <;> rfl

/-- White space outside all elements is left out. -/
theorem withoutOutside_blank {s : String} (h : allBlank s = true)
    (rest : List Mark) :
    withoutOutside 0 (textMarks s ++ rest) = withoutOutside 0 rest := by
  unfold textMarks
  split
  · rfl
  · exact if_pos h

theorem Says.notes {s : String} (h : Says s b r) : Notes (textMarks s) b r := by
  intro b' hb' rest
  rcases h b' hb' with ⟨hdepth, hblank, rfl⟩ | ⟨hpos, hdepth, hmarks⟩
  · rw [hdepth, withoutOutside_blank hblank]
  · obtain ⟨d, hd⟩ := Nat.exists_eq_add_one.2 hpos
    rw [hdepth, hd, withoutOutside_textMarks, hmarks]

end

-- ================================================================== writing

/-- Escaped text has the marks of the text. -/
theorem notes_text (s : List Char) :
    Leads Stops (s.flatMap escapeTextChar)
      (Notes (textMarks (String.ofList s))) := by
  have hsays := leads_escaped (Q := fun s => Says (String.ofList s))
    (fun _ _ _ h => h.says)
    (fun s t b r f hr hf => by
      rw [String.ofList_append]
      exact hr.append hf) s (p := []) nofun
  exact hsays.mono fun _ _ h => h.notes

section

variable {name : String} {attributes : List (String × String)}
  (hname : isXmlName name = true)
  (hnames : ∀ a ∈ attributes, isXmlName a.1 = true)
  (hnodup : (attributes.map Prod.fst).Nodup)
include hname hnames hnodup

/-- The marks of a written tag. -/
theorem marks_tag (empty : Bool) :
    (Event.start (tagChars name attributes) empty).marks?
      = some (.start name attributes :: if empty then [.stop name] else []) := by
  rw [Event.marks?, readAttributes_written hname hnames hnodup,
    tagName_written hname, String.ofList_toList]
  rfl

/-- An element that is written with an end tag. -/
theorem notes_element {inside : List Char} {ms : List Mark}
    (hinside : Leads Stops inside (Notes ms)) :
    Leads Anything ('<' :: (tagChars name attributes ++ ['>'])
        ++ (inside ++ '<' :: '/' :: (name.toList ++ ['>'])))
      (Notes (.start name attributes :: (ms ++ [.stop name]))) := by
  have hrest := hinside.append (leads_stop hname)
    (fun rest _ => stops_cons (by decide) _)
    fun _ _ _ hr hf => hr.append fun b' => (hf b').notes rfl
  exact (leads_start hname hnames).append hrest (fun _ _ => trivial)
    fun _ _ _ hr hf =>
      (hr.notes (marks_tag hname hnames hnodup false)).append hf

/-- An element that is closed in its start tag. -/
theorem notes_hollow :
    Leads Anything ('<' :: (tagChars name attributes ++ ['/', '>']))
      (Notes [.start name attributes, .stop name]) :=
  (leads_empty hname hnames).mono
    fun _ _ hr => hr.notes (marks_tag hname hnames hnodup true)

end

/-- A section whose data does not hold its end. -/
theorem notes_section {data : String}
    (h : Text.breakOn? sectionEnd data.toList = none) :
    Leads Anything (sectionStart ++ data.toList ++ sectionEnd)
      (Notes [.cdata data]) := by
  refine (leads_section h).mono fun _ _ hr => hr.notes ?_
  rw [String.ofList_toList]
  rfl

-- ================================================================ documents

/-- A text that is parsed has the marks that it leads to, joined, without the
white space outside all elements. -/
theorem Tree.marks_of_notes {source : List Char} {ms : List Mark} {t : Tree}
    (hmark : withoutMark source = source) (hnotes : Leads Stops source (Notes ms))
    (h : parse source = .ok t) : t.marks = joinTexts (withoutOutside 0 ms) := by
  obtain ⟨-, b, hrun, hfinish⟩ := parse_ok h
  obtain ⟨placed, hscan, hreact⟩ := hnotes 0 [] nofun
  have hevents : (scan source).events = placed := by
    unfold scan
    rw [hmark, ← List.append_nil source, hscan, scanFrom]
    exact List.append_nil placed
  rw [hevents] at hrun
  have hmarks := hreact _ Builder.start b hrun []
  have hbuilt := built_of_parse h
  have hfinal := Builder.marks_of_finish hfinish hbuilt.content
  rw [List.append_nil, withoutOutside, List.append_nil, hfinal,
    hbuilt.joinTexts_marks] at hmarks
  exact hmarks.symm

end Stencil.Markup
