/-
A document read off again gives the events it was built from.

The marks of a builder are those of what has begun: the start of every open
element, and the marks of the trees in it. With the marks of the events to
come they stay the same, joined, whatever event is fed (`marks_fed`). A tidy
tree has its texts joined already.
-/
import Stencil.Markup.Mark
import Stencil.Proofs.Markup.Building

namespace Stencil.Markup

open Stencil.Markup.Tree (Apart IsText Tidy)

-- ============================================================ joining texts

theorem joinTexts_append_congr (xs : List Mark) {ys zs : List Mark}
    (h : joinTexts ys = joinTexts zs) :
    joinTexts (xs ++ ys) = joinTexts (xs ++ zs) := by
  induction xs with
  | nil => exact h
  | cons m xs ih =>
    rw [List.cons_append, List.cons_append]
    cases m <;> simp only [joinTexts, ih]

theorem prependText_prependText (t s : String) (ms : List Mark) :
    prependText t (prependText s ms) = prependText (t ++ s) ms := by
  cases ms with
  | nil => rfl
  | cons m ms =>
    cases m with
    | text u =>
      show Mark.text (t ++ (s ++ u)) :: ms = .text (t ++ s ++ u) :: ms
      rw [String.append_assoc]
    | _ => rfl

/-- Two texts may be joined before the rest is. -/
theorem joinTexts_text_text (t s : String) (ms : List Mark) :
    joinTexts (.text t :: .text s :: ms) = joinTexts (.text (t ++ s) :: ms) :=
  prependText_prependText t s (joinTexts ms)

namespace Mark

/-- Character data that is no section. -/
def IsText (m : Mark) : Prop := ∃ s, m = .text s

/-- Two neighbours are not both text. -/
def Apart (m n : Mark) : Prop := ¬ (m.IsText ∧ n.IsText)

end Mark

/-- Where no texts are neighbours there is nothing to join. -/
theorem joinTexts_of_apart {ms : List Mark} (h : ms.IsChain Mark.Apart) :
    joinTexts ms = ms := by
  induction ms with
  | nil => rfl
  | cons m ms ih =>
    obtain ⟨hhead, htail⟩ := List.isChain_cons.1 h
    have ih := ih htail
    cases m with
    | text s =>
      show prependText s (joinTexts ms) = _
      rw [ih]
      cases ms with
      | nil => rfl
      | cons n ms =>
        cases n with
        | text t => exact absurd ⟨⟨s, rfl⟩, ⟨t, rfl⟩⟩ (hhead (.text t) rfl)
        | _ => rfl
    | _ => exact congrArg (_ :: ·) ih

-- ================================================================ tidy trees

namespace Tree

/-- What is known of the marks of trees: no texts are neighbours, and one at
either end comes from a text at that end. -/
structure Marked (ts : List Tree) (ms : List Mark) : Prop where
  apart : ms.IsChain Mark.Apart
  first : ∀ m ∈ ms.head?, m.IsText → ∃ t ∈ ts.head?, t.IsText
  last : ∀ m ∈ ms.getLast?, m.IsText → ∃ t ∈ ts.getLast?, t.IsText
  filled : ms = [] ↔ ts = []

/-- Marks between two that are no text. -/
theorem Marked.enclosed {t : Tree} {m n : Mark} {ms : List Mark}
    (hm : ¬ m.IsText) (hn : ¬ n.IsText) (h : ms.IsChain Mark.Apart) :
    Marked [t] (m :: (ms ++ [n])) := by
  have hend : (ms ++ [n]).IsChain Mark.Apart := by
    refine List.isChain_append.2 ⟨h, .singleton n, fun _ _ k hk hboth => ?_⟩
    cases hk
    exact hn hboth.2
  refine ⟨List.isChain_cons.2 ⟨fun _ _ hboth => hm hboth.1, hend⟩, ?_, ?_,
    iff_of_false nofun nofun⟩
  · intro k hk htext
    cases hk
    exact absurd htext hm
  · intro k hk htext
    rw [← List.cons_append, List.getLast?_concat] at hk
    cases hk
    exact absurd htext hn

theorem Marked.one {t : Tree} {m : Mark} (h : m.IsText → t.IsText) :
    Marked [t] [m] :=
  ⟨.singleton m, fun _ hm ht => ⟨t, rfl, h (by cases hm; exact ht)⟩,
    fun _ hm ht => ⟨t, rfl, h (by cases hm; exact ht)⟩,
    iff_of_false nofun nofun⟩

theorem Marked.cons {t : Tree} {ts : List Tree} {ms ns : List Mark}
    (ht : Marked [t] ms) (hts : Marked ts ns)
    (hapart : ∀ u ∈ ts.head?, Apart t u) : Marked (t :: ts) (ms ++ ns) := by
  have hms : ms ≠ [] := fun he => nomatch ht.filled.1 he
  refine ⟨?_, ?_, ?_, ?_⟩
  · refine List.isChain_append.2 ⟨ht.apart, hts.apart, ?_⟩
    -- two texts would meet at the border only if trees did that are both texts
    intro m hm n hn hboth
    obtain ⟨t', ht', htext⟩ := ht.last m hm hboth.1
    obtain ⟨u, hu, hutext⟩ := hts.first n hn hboth.2
    cases ht'
    exact hapart u hu ⟨htext, hutext⟩
  · intro m hm htext
    rw [List.head?_append_of_ne_nil _ hms] at hm
    obtain ⟨t', ht', htext⟩ := ht.first m hm htext
    exact ⟨t', ht', htext⟩
  · intro m hm htext
    rw [List.getLast?_append] at hm
    cases ts with
    | nil =>
      rw [hts.filled.2 rfl] at hm
      exact ht.last m hm htext
    | cons u us =>
      have hns : ns ≠ [] := fun he => nomatch hts.filled.1 he
      rw [List.getLast?_eq_some_getLast hns, Option.some_or] at hm
      obtain ⟨last, hlast, htext⟩ :=
        hts.last m (by rw [List.getLast?_eq_some_getLast hns]; exact hm) htext
      exact ⟨last, by rw [List.getLast?_cons_cons]; exact hlast, htext⟩
  · exact iff_of_false (fun he => hms (List.append_eq_nil_iff.1 he).1) nofun

mutual

/-- The texts of a tidy tree are joined. -/
theorem marked_tree : ∀ {t : Tree}, t.Tidy → t.content ≠ .document →
    Marked [t] t.marks
  | .node label ts, h, hd => by
    obtain ⟨horderly, hbelow⟩ := tidy_node.1 h
    have hinside := marked_trees hbelow horderly.below horderly.apart
    rw [Tree.marks]
    obtain ⟨id, place, content⟩ := label
    cases content with
    | document => exact absurd rfl hd
    | element e =>
      exact .enclosed nofun nofun hinside.apart
    | text s => exact .one fun _ => ⟨s, rfl⟩
    | cdata s => exact .one nofun
    | comment s => exact .one nofun
    | instruction target data => exact .one nofun

theorem marked_trees : ∀ {ts : List Tree}, (∀ t ∈ ts, t.Tidy) →
    (∀ t ∈ ts, t.content ≠ .document) → ts.IsChain Apart →
    Marked ts (marksOf ts)
  | [], _, _, _ => ⟨.nil, nofun, nofun, iff_of_true rfl rfl⟩
  | t :: ts, h, hd, hapart => by
    obtain ⟨hhead, htail⟩ := List.isChain_cons.1 hapart
    have ht := marked_tree (h t List.mem_cons_self) (hd t List.mem_cons_self)
    have hts := marked_trees (fun u hu => h u (List.mem_cons_of_mem _ hu))
      (fun u hu => hd u (List.mem_cons_of_mem _ hu)) htail
    exact ht.cons hts hhead

end

/-- The texts of a document are joined. -/
theorem Built.joinTexts_marks {t : Tree} (h : t.Built) :
    joinTexts t.marks = t.marks := by
  obtain ⟨⟨id, place, content⟩, ts⟩ := t
  cases h.content
  obtain ⟨horderly, hbelow⟩ := tidy_node.1 h.tidy
  exact joinTexts_of_apart
    (marked_trees hbelow horderly.below horderly.apart).apart

end Tree

-- ================================================================= builders

theorem Name.ofText_text (s : String) : (Name.ofText s).text = s := by
  unfold ofText
  split <;> rfl

/-- The mark that a node begins with, if there may be others behind it. -/
def Label.opening (l : Label) : List Mark :=
  match l.content with
  | .element e =>
    [.start e.name.text (e.attributes.map fun a => (a.name.text, a.value))]
  | _ => []

/-- The marks of an open frame. -/
def Frame.marks (f : Frame) : List Mark :=
  f.label.opening ++ marksOf f.children.reverse

theorem Frame.marks_push (f : Frame) (t : Tree) :
    (f.push t).marks = f.marks ++ t.marks := by
  unfold Frame.marks Frame.push
  rw [List.reverse_cons, marksOf_append, marksOf, marksOf, List.append_nil,
    List.append_assoc]

namespace Builder

variable {b b' : Builder} {place : Location}

/-- The marks of all that has begun. -/
def marks (b : Builder) : List Mark :=
  (b.outer.reverse ++ [b.current]).flatMap Frame.marks

/-- The elements that are open. -/
def depth (b : Builder) : Nat := b.outer.length

theorem marks_mk (f : Frame) (fs : List Frame) (next : Nat) :
    marks ⟨f, fs, next⟩ = fs.reverse.flatMap Frame.marks ++ f.marks := by
  unfold marks
  rw [List.flatMap_append, List.flatMap_singleton]

theorem marks_leaf (b : Builder) (place : Location) (content : Content) :
    (b.leaf place content).marks
      = b.marks ++ (Tree.node ⟨b.next, place, content⟩ []).marks := by
  obtain ⟨f, fs, next⟩ := b
  unfold leaf
  rw [marks_mk, marks_mk, Frame.marks_push, List.append_assoc]

theorem marks_openElement (b : Builder) (place : Location) (e : Element) :
    (b.openElement place e).marks
      = b.marks ++ (⟨b.next, place, .element e⟩ : Label).opening := by
  obtain ⟨f, fs, next⟩ := b
  unfold openElement
  rw [marks_mk, marks_mk, List.reverse_cons, List.flatMap_append,
    List.flatMap_singleton]
  exact congrArg _ (List.append_nil _)

theorem marks_close {e : Element} {f : Frame} {fs : List Frame}
    (he : b.current.label.content = .element e) (hf : b.outer = f :: fs) :
    marks ⟨f.push b.current.close, fs, b.next⟩
      = b.marks ++ [.stop e.name.text] := by
  obtain ⟨⟨⟨id, place, content⟩, ts⟩, outer, next⟩ := b
  cases hf
  cases he
  rw [marks_mk, marks_mk, Frame.marks_push, List.reverse_cons,
    List.flatMap_append, List.flatMap_singleton, List.append_assoc,
    List.append_assoc]
  rfl

/-- Added text counts as a mark of its own, once texts are joined. -/
theorem joinTexts_addText (b : Builder) (place : Location) (s : String)
    (rest : List Mark) :
    joinTexts ((b.addText place s).marks ++ rest)
      = joinTexts (b.marks ++ .text s :: rest) := by
  rcases addText_cases b place s with
    ⟨id, first, t, ts, us, hc, heq⟩ | ⟨-, heq⟩
  · rw [heq]
    obtain ⟨⟨label, children⟩, outer, next⟩ := b
    cases hc
    have hold : Frame.marks ⟨label, .node ⟨id, first, .text t⟩ ts :: us⟩
        = Frame.marks ⟨label, us⟩ ++ [.text t] :=
      Frame.marks_push ⟨label, us⟩ _
    have hnew : Frame.marks (Frame.push ⟨label, us⟩
          (.node ⟨id, first, .text (t ++ s)⟩ ts))
        = Frame.marks ⟨label, us⟩ ++ [.text (t ++ s)] :=
      Frame.marks_push ⟨label, us⟩ _
    rw [marks_mk, marks_mk, hold, hnew]
    simp only [List.append_assoc, List.singleton_append]
    refine joinTexts_append_congr _ (joinTexts_append_congr _ ?_)
    exact (joinTexts_text_text t s rest).symm
  · rw [heq, marks_leaf, List.append_assoc]
    rfl

/-- Qualifying an attribute leaves its name and its value. -/
theorem qualify_ok {own : Declarations} {a : String × String}
    {q : Attribute} (h : b.qualify own place a = .ok q) :
    (q.name.text, q.value) = a := by
  have hpair (uri : Option String) :
      ((⟨Name.ofText a.1, uri, a.2⟩ : Attribute).name.text, a.2) = a :=
    congrArg (·, a.2) (Name.ofText_text a.1)
  unfold qualify at h
  dsimp only at h
  split at h
  · cases h
    exact hpair _
  · split at h
    · cases h
      exact hpair _
    · split at h
      · cases h
        exact hpair _
      · cases h

theorem qualify_all_ok {own : Declarations} :
    ∀ {raw : List (String × String)} {attributes : List Attribute},
      raw.mapM (b.qualify own place) = .ok attributes →
        attributes.map (fun a => (a.name.text, a.value)) = raw
  | [], _, h => by
    cases h
    rfl
  | a :: raw, attributes, h => by
    rw [List.mapM_cons] at h
    obtain ⟨q, ha, h⟩ := bind_eq_ok h
    obtain ⟨qs, hraw, h⟩ := bind_eq_ok h
    cases h
    exact congrArg₂ List.cons (qualify_ok ha) (qualify_all_ok hraw)

/-- An element has the name and the attributes of its tag. -/
theorem element_ok {tag : List Char} {e : Element}
    (h : b.element place tag = .ok e) :
    (readAttributes tag).toOption
        = some (e.attributes.map fun a => (a.name.text, a.value))
      ∧ e.name.text = String.ofList (tagName tag) := by
  unfold element at h
  cases hraw : readAttributes tag with
  | error fault =>
    rw [hraw] at h
    cases h
  | ok raw =>
    rw [hraw] at h
    simp only [Except.mapError, bind, Except.bind] at h
    split at h
    · cases h
    · split at h
      · cases h
      · next attributes hall =>
        cases h
        exact ⟨congrArg some (qualify_all_ok hall).symm, Name.ofText_text _⟩

theorem depth_addText (b : Builder) (place : Location) (s : String) :
    (b.addText place s).depth = b.depth := by
  rcases addText_cases b place s with ⟨_, _, _, _, _, -, h⟩ | ⟨-, h⟩ <;>
    rw [h] <;> rfl

/-- Character data that is accepted adds its mark, or is left out. -/
theorem marks_text {s : String} (h : b.text place s = .ok b')
    (rest : List Mark) :
    joinTexts (b.marks ++ withoutOutside b.depth (textMarks s ++ rest))
      = joinTexts (b'.marks ++ withoutOutside b'.depth rest) := by
  rcases text_cases h with ⟨rfl, rfl⟩ | ⟨htop, hblank, rfl⟩ | ⟨hs, htop, rfl⟩
  · rfl
  · have hdepth : b'.depth = 0 :=
      List.length_eq_zero_iff.2 (List.isEmpty_iff.1 htop)
    unfold textMarks
    split
    · rfl
    · rw [hdepth, List.singleton_append, withoutOutside, if_pos hblank]
  · have hmarks : textMarks s = [.text s] :=
      if_neg fun he => hs (String.isEmpty_iff.1 he)
    obtain ⟨d, hdepth⟩ : ∃ d, b.depth = d + 1 := by
      refine Nat.exists_eq_add_one.2 (List.length_pos_iff.2 fun he => ?_)
      rw [atTop, he] at htop
      cases htop
    rw [joinTexts_addText, depth_addText, hmarks, hdepth]
    rfl

/-- An event that is accepted adds its marks, once texts are joined and white
space outside all elements is left out. -/
theorem marks_fed {e : Event} (h : Fed b place e b') :
    ∃ ms, e.marks? = some ms ∧ ∀ rest,
      joinTexts (b.marks ++ withoutOutside b.depth (ms ++ rest))
        = joinTexts (b'.marks ++ withoutOutside b'.depth rest) := by
  -- a leaf that is no text is kept, also outside of all elements
  have hleaf {content : Content} {m : Mark}
      (hm : (Tree.node ⟨b.next, place, content⟩ []).marks = [m])
      (hkeep : ∀ rest, withoutOutside b.depth (m :: rest)
        = m :: withoutOutside b.depth rest) (rest : List Mark) :
      joinTexts (b.marks ++ withoutOutside b.depth ([m] ++ rest))
        = joinTexts ((b.leaf place content).marks
          ++ withoutOutside b.depth rest) := by
    rw [marks_leaf, hm, List.append_assoc, List.singleton_append, hkeep]
    rfl
  cases h with
  | @opened tag e _ he =>
    obtain ⟨hattributes, hname⟩ := element_ok he
    refine ⟨_, by rw [Event.marks?, hattributes]; rfl, fun rest => ?_⟩
    rw [marks_openElement, List.append_assoc, ← hname]
    rfl
  | @empty tag e _ he =>
    obtain ⟨hattributes, hname⟩ := element_ok he
    refine ⟨_, by rw [Event.marks?, hattributes]; rfl, fun rest => ?_⟩
    rw [marks_leaf, List.append_assoc, ← hname]
    rfl
  | @closed e f fs he hf =>
    have hdepth : b.depth - 1 = fs.length := by
      rw [depth, hf]
      rfl
    refine ⟨_, rfl, fun rest => ?_⟩
    rw [marks_close he hf, List.append_assoc, List.singleton_append,
      withoutOutside, hdepth]
    rfl
  | text ht => exact ⟨_, rfl, marks_text ht⟩
  | @reference name c _ hc ht =>
    -- one character is never nothing, so it has a mark
    have hmarks : textMarks c.toString = [.text c.toString] :=
      if_neg fun he => String.singleton_ne_empty (String.isEmpty_iff.1 he)
    refine ⟨_, by rw [Event.marks?, hc]; rfl, ?_⟩
    show ∀ rest, joinTexts (b.marks
      ++ withoutOutside b.depth ([.text c.toString] ++ rest)) = _
    rw [← hmarks]
    exact marks_text ht
  | cdata _ => exact ⟨_, rfl, hleaf rfl fun _ => by cases b.depth <;> rfl⟩
  | comment => exact ⟨_, rfl, hleaf rfl fun _ => by cases b.depth <;> rfl⟩
  | instruction =>
    exact ⟨_, rfl, hleaf rfl fun _ => by cases b.depth <;> rfl⟩

/-- A run that accepts all events adds the marks of all. -/
theorem marks_run {starts : List Nat} {es : List Placed}
    (h : b.run starts es = .ok b') :
    ∃ mss, (es.mapM fun (e : Placed) => e.event.marks?) = some mss ∧ ∀ rest,
      joinTexts (b.marks ++ withoutOutside b.depth (mss.flatten ++ rest))
        = joinTexts (b'.marks ++ withoutOutside b'.depth rest) := by
  induction es generalizing b with
  | nil =>
    cases h
    exact ⟨[], rfl, fun _ => rfl⟩
  | cons e es ih =>
    obtain ⟨b₁, hfed, hrun⟩ := run_cons h
    obtain ⟨ms, hms, hfirst⟩ := marks_fed hfed
    obtain ⟨mss, hmss, hrest⟩ := ih hrun
    refine ⟨ms :: mss, ?_, fun rest => ?_⟩
    · rw [List.mapM_cons, hms, hmss]
      rfl
    · rw [List.flatten_cons, List.append_assoc, hfirst, hrest]

end Builder

/-- A builder that finishes has the marks of the document. -/
theorem Builder.marks_of_finish {b : Builder} {t : Tree} (h : b.finish = .ok t)
    (hdocument : t.content = .document) : b.marks = t.marks := by
  obtain ⟨houter, -, rfl⟩ := finish_ok h
  obtain ⟨⟨⟨id, place, content⟩, ts⟩, outer, next⟩ := b
  cases houter
  cases hdocument
  exact List.append_nil _

/-- The events of a source that is parsed have the marks of its tree. -/
theorem Tree.marks_of_parse {source : List Char} {t : Tree}
    (h : parse source = .ok t) : (scan source).marks? = some t.marks := by
  obtain ⟨-, b, hrun, hfinish⟩ := parse_ok h
  obtain ⟨mss, hmss, hmarks⟩ := Builder.marks_run hrun
  have hbuilt := built_of_parse h
  have hfinal := Builder.marks_of_finish hfinish hbuilt.content
  have hevents : joinTexts (withoutOutside 0 mss.flatten) = t.marks := by
    have hend := hmarks []
    rw [List.append_nil, withoutOutside, List.append_nil, hfinal,
      hbuilt.joinTexts_marks] at hend
    exact hend
  rw [Scan.marks?, hmss]
  exact congrArg some hevents

end Stencil.Markup
