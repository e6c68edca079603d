/-
What the builder keeps while it reads events.

`Fed` says what one event does to a builder that accepts it; every invariant
is read off from it. The builder is `Sound` at every point of a run: the nodes
begun so far are numbered in the order in which they began, the trees in the
open frames are `Tidy`, and under elements only lies the document, which has
one root element at most. A finished document has all that from its builder.
-/
import Mathlib.Data.List.Chain
import Stencil.Markup.Builder
import Stencil.Proofs.Markup.Preorder
import Stencil.Proofs.Related

namespace Stencil.Markup

-- ============================================================== tidy trees

namespace Tree

/-- Character data that is no section. -/
def IsText (t : Tree) : Prop := ∃ s, t.content = .text s

/-- Two neighbours are not both text. -/
def Apart (t u : Tree) : Prop := ¬ (t.IsText ∧ u.IsText)

/-- A node holds what it may: text is not empty, only the document and
elements have children, no child is a document, and texts are not
neighbours. -/
structure Orderly (t : Tree) : Prop where
  filled : t.content ≠ .text ""
  leaf : t.content = .document ∨ t.isElement = true ∨ t.children = []
  below : ∀ u ∈ t.children, u.content ≠ .document
  apart : t.children.IsChain Apart

/-- Every node of the tree holds what it may. -/
def Tidy (t : Tree) : Prop := ∀ u ∈ t.preorder, u.Orderly

theorem tidy_node {label : Label} {ts : List Tree} :
    (Tree.node label ts).Tidy
      ↔ (Tree.node label ts).Orderly ∧ ∀ t ∈ ts, t.Tidy := by
  unfold Tidy
  rw [preorder]
  constructor
  · intro h
    refine ⟨h _ List.mem_cons_self, fun t ht u hu => ?_⟩
    exact h u (List.mem_cons_of_mem _ (mem_preorders.2 ⟨t, ht, hu⟩))
  · rintro ⟨hself, hbelow⟩ u hu
    rcases List.mem_cons.1 hu with rfl | hu
    · exact hself
    · obtain ⟨t, ht, hu⟩ := mem_preorders.1 hu
      exact hbelow t ht u hu

/-- A node without children is tidy. -/
theorem tidy_leaf {label : Label} (h : label.content ≠ .text "") :
    (Tree.node label []).Tidy :=
  tidy_node.2 ⟨⟨h, .inr (.inr rfl), nofun, .nil⟩, nofun⟩

theorem Tidy.child {t u : Tree} (h : t.Tidy) (hu : u ∈ t.children) :
    u.Tidy :=
  fun v hv => h v (mem_preorder hu hv)

end Tree

open Stencil.Markup.Tree (Apart IsText Orderly Tidy)

-- =================================================================== frames

namespace Frame

/-- A frame that may have children: the document or an element. -/
def Holds (f : Frame) : Prop :=
  f.label.content = .document ∨ f.close.isElement = true

theorem close_push (f : Frame) (t : Tree) :
    (f.push t).close = .node f.label (f.children.reverse ++ [t]) := by
  unfold close push
  rw [List.reverse_cons]

/-- Another child at the end. -/
theorem tidy_push {f : Frame} {t : Tree} (hf : f.Holds) :
    (f.push t).close.Tidy
      ↔ f.close.Tidy ∧ t.Tidy ∧ t.content ≠ .document
        ∧ ∀ last ∈ f.children.head?, Apart last t := by
  rw [close_push, close, Tree.tidy_node, Tree.tidy_node]
  -- the children are kept in reverse, so the last one heads them
  have hchain : (f.children.reverse ++ [t]).IsChain Apart
      ↔ f.children.reverse.IsChain Apart
        ∧ ∀ last ∈ f.children.head?, Apart last t := by
    rw [List.isChain_append]
    simp
  constructor
  · rintro ⟨⟨hfilled, -, hbelow, hapart⟩, htidy⟩
    have ⟨hchildren, hlast⟩ := hchain.1 hapart
    refine ⟨⟨⟨hfilled, ?_, ?_, hchildren⟩, ?_⟩, ?_, ?_, hlast⟩
    · exact hf.imp_right .inl
    · exact fun u hu => hbelow u (List.mem_append_left _ hu)
    · exact fun u hu => htidy u (List.mem_append_left _ hu)
    · exact htidy t (List.mem_append_right _ (List.mem_singleton_self t))
    · exact hbelow t (List.mem_append_right _ (List.mem_singleton_self t))
  · rintro ⟨⟨⟨hfilled, -, hbelow, hapart⟩, htidy⟩, ht, hcontent, hlast⟩
    refine ⟨⟨hfilled, hf.imp_right .inl, ?_, hchain.2 ⟨hapart, hlast⟩⟩, ?_⟩
    · intro u hu
      rcases List.mem_append.1 hu with hu | hu
      · exact hbelow u hu
      · cases List.mem_singleton.1 hu
        exact hcontent
    · intro u hu
      rcases List.mem_append.1 hu with hu | hu
      · exact htidy u hu
      · cases List.mem_singleton.1 hu
        exact ht

/-- How many children are elements. -/
def roots (f : Frame) : Nat := f.children.countP Tree.isElement

end Frame

/-- Elements lie on the document: it has one root element at most, and none
before the one that is open. -/
inductive Stacked : Frame → List Frame → Prop
  | top {d : Frame} (hd : d.label.content = .document) (hroots : d.roots ≤ 1) :
    Stacked d []
  | root {f d : Frame} (hf : f.close.isElement = true)
    (hd : d.label.content = .document) (hroots : d.roots = 0) : Stacked f [d]
  | inner {f g h : Frame} {fs : List Frame} (hf : f.close.isElement = true)
    (hg : Stacked g (h :: fs)) : Stacked f (g :: h :: fs)

namespace Stacked

variable {f g : Frame} {fs : List Frame}

theorem holds (h : Stacked f fs) : f.Holds := by
  cases h with
  | top hd _ => exact .inl hd
  | root hf _ _ => exact .inr hf
  | inner hf _ => exact .inr hf

/-- Another child of the innermost frame. -/
theorem push (h : Stacked f fs) {t : Tree}
    (ht : fs = [] → t.isElement = true → f.roots = 0) :
    Stacked (f.push t) fs := by
  cases h with
  | top hd hroots =>
    refine .top hd ?_
    have hcount : (f.push t).roots
        = f.roots + if t.isElement = true then 1 else 0 := List.countP_cons
    rw [hcount]
    split
    · next he => exact Nat.le_of_eq (congrArg (· + 1) (ht rfl he))
    · exact hroots
  | root hf hd hroots => exact .root hf hd hroots
  | inner hf hg => exact .inner hf hg

/-- The frame around the innermost. -/
theorem holds_outer (h : Stacked f (g :: fs)) : g.Holds := by
  cases h with
  | root _ hd _ => exact .inl hd
  | inner _ hg => exact hg.holds

/-- The innermost frame is left, as a child of the one around it. -/
theorem close (h : Stacked f (g :: fs)) : Stacked (g.push f.close) fs := by
  cases h with
  | root hf hd hroots => exact (Stacked.top hd (by omega)).push fun _ _ => hroots
  | inner hf hg => exact hg.push nofun

/-- The innermost frame has other children, with as many elements. -/
theorem congr (h : Stacked f fs) (hlabel : g.label = f.label)
    (hroots : g.roots = f.roots) : Stacked g fs := by
  have helement : g.close.isElement = f.close.isElement := by
    unfold Tree.isElement Tree.content
    exact congrArg (fun l : Label => l.content.element?.isSome) hlabel
  cases h with
  | top hd hle => exact .top (hlabel ▸ hd) (hroots ▸ hle)
  | root hf hd hle => exact .root (helement ▸ hf) hd hle
  | inner hf hg => exact .inner (helement ▸ hf) hg

/-- A new element opens. -/
theorem openElement (h : Stacked f fs) {e : Frame}
    (he : e.close.isElement = true) (hnone : fs = [] → f.roots = 0) :
    Stacked e (f :: fs) := by
  cases h with
  | top hd _ => exact .root he hd (hnone rfl)
  | root hf hd hroots => exact .inner he (.root hf hd hroots)
  | inner hf hg => exact .inner he (.inner hf hg)

end Stacked

-- ================================================================ the steps

namespace Builder

variable {b b' : Builder} {place : Location}

/-- What one event does to a builder that accepts it. -/
inductive Fed (b : Builder) (place : Location) : Event → Builder → Prop
  | opened {tag : List Char} {e : Element} (hroot : b.hasRoot = false)
    (he : b.element place tag = .ok e) :
    Fed b place (.start tag false) (b.openElement place e)
  | empty {tag : List Char} {e : Element} (hroot : b.hasRoot = false)
    (he : b.element place tag = .ok e) :
    Fed b place (.start tag true) (b.leaf place (.element e))
  | closed {e : Element} {f : Frame} {fs : List Frame}
    (he : b.current.label.content = .element e) (hf : b.outer = f :: fs) :
    Fed b place (.stop e.name.text) ⟨f.push b.current.close, fs, b.next⟩
  | text {s : String} {b' : Builder} (h : b.text place s = .ok b') :
    Fed b place (.text s) b'
  | reference {name : List Char} {c : Char} {b' : Builder}
    (hc : referenced? name = some c) (h : b.text place c.toString = .ok b') :
    Fed b place (.reference name) b'
  | cdata {s : String} (htop : b.atTop = false) :
    Fed b place (.cdata s) (b.leaf place (.cdata s))
  | comment {s : String} : Fed b place (.comment s) (b.leaf place (.comment s))
  | instruction {target data : String} :
    Fed b place (.instruction target data)
      (b.leaf place (.instruction target data))

theorem fed_stop {name : String} (h : b.stop place name = .ok b') :
    Fed b place (.stop name) b' := by
  unfold stop at h
  split at h
  · next e f fs he hf =>
    split at h
    · next hname =>
      cases h
      cases hname
      exact .closed he hf
    · cases h
  · cases h

theorem fed_of_feed {e : Event} (h : b.feed place e = .ok b') :
    Fed b place e b' := by
  cases e with
  | start tag empty =>
    rw [feed] at h
    split at h
    · cases h
    · next hroot =>
      have hroot : b.hasRoot = false := by simpa using hroot
      cases he : b.element place tag with
      | error fault =>
        rw [he] at h
        cases h
      | ok e =>
        rw [he] at h
        cases empty <;> cases h
        · exact .opened hroot he
        · exact .empty hroot he
  | stop name => exact fed_stop h
  | text s => exact .text h
  | reference name =>
    rw [feed] at h
    split at h
    · next c hc => exact .reference hc h
    · cases h
  | cdata s =>
    rw [feed] at h
    split at h
    · cases h
    · next htop =>
      cases h
      exact .cdata (by simpa using htop)
  | comment s =>
    cases h
    exact .comment
  | instruction target data =>
    cases h
    exact .instruction

/-- Character data is nothing, or white space around the root, or it is added
to an open element. -/
theorem text_cases {s : String} (h : b.text place s = .ok b') :
    (s = "" ∧ b' = b)
    ∨ (b.atTop = true ∧ Text.allBlank s = true ∧ b' = b)
    ∨ (s ≠ "" ∧ b.atTop = false ∧ b' = b.addText place s) := by
  unfold text at h
  split at h
  · next hs =>
    cases h
    exact .inl ⟨String.isEmpty_iff.1 hs, rfl⟩
  · next hs =>
    have hs : s ≠ "" := fun he => hs (String.isEmpty_iff.2 he)
    split at h
    · next htop =>
      split at h
      · next hblank =>
        cases h
        exact .inr (.inl ⟨htop, hblank, rfl⟩)
      · cases h
    · next htop =>
      cases h
      exact .inr (.inr ⟨hs, by simpa using htop, rfl⟩)

/-- Character data joins the text before it, or is a new text. -/
theorem addText_cases (b : Builder) (place : Location) (s : String) :
    (∃ id first t ts rest,
      b.current.children = Tree.node ⟨id, first, .text t⟩ ts :: rest
      ∧ b.addText place s
        = { b with
            current := Frame.push ⟨b.current.label, rest⟩
              (.node ⟨id, first, .text (t ++ s)⟩ ts) })
    ∨ ((∀ last ∈ b.current.children.head?, ¬ last.IsText)
      ∧ b.addText place s = b.leaf place (.text s)) := by
  unfold addText
  split
  · next id first t ts rest hc => exact .inl ⟨id, first, t, ts, rest, hc, rfl⟩
  · next hno =>
    refine .inr ⟨?_, rfl⟩
    rintro ⟨⟨id, first, content⟩, ts⟩ hlast ⟨t, ht⟩
    obtain ⟨rest, hrest⟩ := List.head?_eq_some_iff.1 hlast
    cases ht
    exact hno id first t ts rest hrest

-- =================================================================== sound

/-- The numbers of the nodes begun so far, in document order. -/
def numbers (b : Builder) : List Nat :=
  (b.outer.reverse ++ [b.current]).flatMap
    fun f => Tree.numbers f.close.preorder

/-- What holds at every point of a run. -/
structure Sound (b : Builder) : Prop where
  numbered : b.numbers = List.range b.next
  tidy : ∀ f ∈ b.current :: b.outer, f.close.Tidy
  stacked : Stacked b.current b.outer

theorem labels_push (f : Frame) (t : Tree) :
    (f.push t).close.preorder.map Tree.label
      = f.close.preorder.map Tree.label ++ t.preorder.map Tree.label := by
  rw [f.close_push, Frame.close, Tree.preorder, Tree.preorder,
    Tree.preorders_append]
  simp [Tree.preorders, Tree.label]

theorem numbers_push (f : Frame) (t : Tree) :
    Tree.numbers (f.push t).close.preorder
      = Tree.numbers f.close.preorder ++ Tree.numbers t.preorder := by
  have h := congrArg (List.map Label.id) (labels_push f t)
  simp only [List.map_append, List.map_map] at h
  exact h

theorem numbers_mk (f : Frame) (fs : List Frame) (next : Nat) :
    numbers ⟨f, fs, next⟩
      = fs.reverse.flatMap (fun f => Tree.numbers f.close.preorder)
        ++ Tree.numbers f.close.preorder := by
  unfold numbers
  rw [List.flatMap_append, List.flatMap_singleton]

theorem sound_start : start.Sound where
  numbered := rfl
  tidy := by
    intro f hf
    cases List.mem_singleton.1 hf
    exact Tree.tidy_leaf nofun
  stacked := .top rfl (Nat.zero_le 1)

/-- Without a root element yet, none is among the children so far. -/
theorem roots_of_hasRoot (h : b.hasRoot = false) (htop : b.outer = []) :
    b.current.roots = 0 := by
  unfold hasRoot atTop at h
  rw [htop] at h
  have h : b.current.children.any Tree.isElement = false := h
  unfold Frame.roots
  rw [List.countP_eq_zero]
  simpa using h

theorem Sound.leaf (h : b.Sound) {content : Content}
    (hfilled : content ≠ .text "") (hdocument : content ≠ .document)
    (happart : ∀ last ∈ b.current.children.head?,
      Apart last (.node ⟨b.next, place, content⟩ []))
    (hroot : content.element?.isSome = true → b.hasRoot = false) :
    (b.leaf place content).Sound where
  numbered := by
    have hb := h.numbered
    obtain ⟨f, fs, next⟩ := b
    unfold Builder.leaf
    rw [numbers_mk] at hb ⊢
    rw [numbers_push, ← List.append_assoc, hb, List.range_succ]
    rfl
  tidy := by
    intro f hf
    rcases List.mem_cons.1 hf with rfl | hf
    · exact (Frame.tidy_push h.stacked.holds).2
        ⟨h.tidy _ List.mem_cons_self, Tree.tidy_leaf hfilled, hdocument, happart⟩
    · exact h.tidy f (List.mem_cons_of_mem _ hf)
  stacked := h.stacked.push fun htop he => roots_of_hasRoot (hroot he) htop

theorem Sound.openElement (h : b.Sound) (e : Element)
    (hroot : b.hasRoot = false) : (b.openElement place e).Sound where
  numbered := by
    have hb := h.numbered
    obtain ⟨f, fs, next⟩ := b
    unfold Builder.openElement
    rw [numbers_mk] at hb ⊢
    rw [List.reverse_cons, List.flatMap_append, List.flatMap_singleton, hb,
      List.range_succ]
    rfl
  tidy := by
    intro f hf
    rcases List.mem_cons.1 hf with rfl | hf
    · exact Tree.tidy_leaf nofun
    · exact h.tidy f hf
  stacked := h.stacked.openElement rfl (roots_of_hasRoot hroot)

theorem Sound.close (h : b.Sound) {e : Element} {f : Frame} {fs : List Frame}
    (he : b.current.label.content = .element e) (hf : b.outer = f :: fs) :
    Sound ⟨f.push b.current.close, fs, b.next⟩ := by
  obtain ⟨current, outer, next⟩ := b
  cases hf
  have ⟨hnumbered, htidy, hstacked⟩ := h
  refine ⟨?_, ?_, hstacked.close⟩
  · rw [numbers_mk] at hnumbered ⊢
    rw [List.reverse_cons, List.flatMap_append, List.flatMap_singleton,
      List.append_assoc] at hnumbered
    rw [numbers_push, hnumbered]
  · intro g hg
    rcases List.mem_cons.1 hg with rfl | hg
    · refine (Frame.tidy_push hstacked.holds_outer).2 ⟨?_, ?_, ?_, ?_⟩
      · exact htidy f (List.mem_cons_of_mem _ List.mem_cons_self)
      · exact htidy current List.mem_cons_self
      · show current.label.content ≠ .document
        rw [he]
        exact nofun
      -- an element stands next to no text that it could be one with
      · rintro last - ⟨-, s, hs⟩
        have hs : current.label.content = .text s := hs
        rw [he] at hs
        cases hs
    · exact htidy g (List.mem_cons_of_mem _ (List.mem_cons_of_mem _ hg))

theorem Sound.addText (h : b.Sound) {s : String} (hs : s ≠ "") :
    (b.addText place s).Sound := by
  rcases addText_cases b place s with
    ⟨id, first, t, ts, rest, hc, heq⟩ | ⟨hlast, heq⟩
  · rw [heq]
    obtain ⟨⟨label, children⟩, outer, next⟩ := b
    cases hc
    obtain ⟨hnumbered, htidy, hstacked⟩ := h
    obtain ⟨hrest, hold, -, hapart⟩ := (Frame.tidy_push (f := ⟨label, rest⟩)
      hstacked.holds).1 (htidy _ List.mem_cons_self)
    have hts : ts = [] := by
      rcases (Tree.tidy_node.1 hold).1.leaf with he | he | he <;> cases he
      rfl
    subst hts
    have hjoined : t ++ s ≠ "" := fun he => hs (String.append_eq_empty_iff.1 he).2
    -- one text stands for the other: the same number, the same neighbour
    refine ⟨?_, ?_, hstacked.congr rfl rfl⟩
    · rw [numbers_mk] at hnumbered ⊢
      have hsame := (numbers_push ⟨label, rest⟩
        (.node ⟨id, first, .text (t ++ s)⟩ [])).trans
        (numbers_push ⟨label, rest⟩ (.node ⟨id, first, .text t⟩ [])).symm
      exact (congrArg (_ ++ ·) hsame).trans hnumbered
    · intro f hf
      rcases List.mem_cons.1 hf with rfl | hf
      · refine (Frame.tidy_push (f := ⟨label, rest⟩) hstacked.holds).2
          ⟨hrest, Tree.tidy_leaf fun he => hjoined (Content.text.inj he), nofun,
            fun last hlast hboth => ?_⟩
        exact hapart last hlast ⟨hboth.1, t, rfl⟩
      · exact htidy f (List.mem_cons_of_mem _ hf)
  · rw [heq]
    exact h.leaf (fun he => hs (Content.text.inj he)) nofun
      (fun last hl hboth => hlast last hl hboth.1) nofun

theorem Sound.text (h : b.Sound) {s : String} (ht : b.text place s = .ok b') :
    b'.Sound := by
  rcases text_cases ht with ⟨-, rfl⟩ | ⟨-, -, rfl⟩ | ⟨hs, -, rfl⟩
  · exact h
  · exact h
  · exact h.addText hs

/-- One event. -/
theorem Sound.fed (h : b.Sound) {e : Event} (hf : Fed b place e b') :
    b'.Sound := by
  cases hf with
  | opened hroot _ => exact h.openElement _ hroot
  | empty hroot _ =>
    exact h.leaf nofun nofun (fun _ _ ⟨_, _, hs⟩ => nomatch hs) fun _ => hroot
  | closed he hf => exact h.close he hf
  | text ht => exact h.text ht
  | reference _ ht => exact h.text ht
  | cdata _ =>
    exact h.leaf nofun nofun (fun _ _ ⟨_, _, hs⟩ => nomatch hs) nofun
  | comment =>
    exact h.leaf nofun nofun (fun _ _ ⟨_, _, hs⟩ => nomatch hs) nofun
  | instruction =>
    exact h.leaf nofun nofun (fun _ _ ⟨_, _, hs⟩ => nomatch hs) nofun

theorem run_cons {starts : List Nat} {e : Placed} {es : List Placed}
    (h : b.run starts (e :: es) = .ok b') :
    ∃ b₁, Fed b (Location.ofOffset starts e.offset) e.event b₁
      ∧ b₁.run starts es = .ok b' := by
  rw [run] at h
  obtain ⟨b₁, hf, h⟩ := bind_eq_ok h
  exact ⟨b₁, fed_of_feed hf, h⟩

/-- All events of a run. -/
theorem Sound.run (h : b.Sound) {starts : List Nat} {es : List Placed}
    (hr : b.run starts es = .ok b') : b'.Sound := by
  induction es generalizing b with
  | nil =>
    cases hr
    exact h
  | cons e es ih =>
    obtain ⟨b₁, hf, hr⟩ := run_cons hr
    exact ih (h.fed hf) hr

theorem finish_ok {t : Tree} (h : b.finish = .ok t) :
    b.outer = [] ∧ b.hasRoot = true ∧ t = b.current.close := by
  unfold finish at h
  split at h
  · cases h
  · split at h
    · next hroot =>
      cases h
      refine ⟨?_, hroot, rfl⟩
      unfold hasRoot at hroot
      exact List.isEmpty_iff.1 (Bool.and_eq_true_iff.1 hroot).1
    · cases h

end Builder

-- ========================================================= finished documents

namespace Tree

/-- The tree of a document as it is built: the nodes have the numbers from
zero on in document order, each holds what it may, and there is one root
element. -/
structure Built (t : Tree) : Prop where
  content : t.content = .document
  number : t.label.id = 0
  numbered : t.Numbered
  tidy : t.Tidy
  root : t.children.countP isElement = 1

/-- A sound builder finishes with a document. -/
theorem built_of_finish {b : Builder} (h : b.Sound) {t : Tree}
    (hf : b.finish = .ok t) : t.Built := by
  obtain ⟨houter, hroot, rfl⟩ := Builder.finish_ok hf
  obtain ⟨⟨label, ts⟩, outer, next⟩ := b
  cases houter
  obtain ⟨hnumbered, htidy, hstacked⟩ := h
  cases hstacked with
  | top hd hroots =>
    have hnumbers : numbers (Frame.close ⟨label, ts⟩).preorder
        = List.range next := by
      rw [← hnumbered, Builder.numbers_mk]
      rfl
    -- as many numbers were given away as there are nodes
    have hsize : next = (Frame.close ⟨label, ts⟩).size := by
      rw [← length_preorder, ← List.length_range (n := next), ← hnumbers,
        numbers, List.length_map]
    rw [hsize, List.range_eq_range'] at hnumbers
    have hid : label.id = 0 := by
      have hsucc := hnumbers
      rw [Frame.close, size, List.range'_succ, preorder] at hsucc
      exact (List.cons.inj hsucc).1
    refine ⟨hd, hid, ?_, htidy _ List.mem_cons_self, ?_⟩
    · unfold Numbered
      rw [hnumbers]
      exact congrArg (List.range' · _) hid.symm
    · have hpos : 0 < ts.countP isElement :=
        List.countP_pos_iff.2
          (List.any_eq_true.1 (Bool.and_eq_true_iff.1 hroot).2)
      have hle : ts.countP isElement ≤ 1 := hroots
      show ts.reverse.countP isElement = 1
      rw [List.countP_reverse]
      omega

/-- A source that is parsed has no fault, and a builder reads its events to
the end. -/
theorem parse_ok {source : List Char} {t : Tree} (h : parse source = .ok t) :
    (scan source).failure = none
    ∧ ∃ b, Builder.start.run (lineStarts source) (scan source).events = .ok b
      ∧ b.finish = .ok t := by
  unfold parse at h
  dsimp only at h
  cases hr : Builder.start.run (lineStarts source) (scan source).events with
  | error fault =>
    rw [hr] at h
    cases h
  | ok b =>
    rw [hr] at h
    cases hfailure : (scan source).failure with
    | some fault =>
      rw [hfailure] at h
      cases h
    | none =>
      rw [hfailure] at h
      exact ⟨rfl, b, rfl, h⟩

theorem built_of_parse {source : List Char} {t : Tree}
    (h : parse source = .ok t) : t.Built :=
  have ⟨_, _, hr, hf⟩ := parse_ok h
  built_of_finish (Builder.sound_start.run hr) hf

end Tree

/-- A document is parsed as its tree is. -/
theorem Document.tree_of_parse {origin : Origin} {source : String}
    {d : Document} (h : Document.parse origin source = .ok d) :
    d.origin = origin ∧ Tree.parse source.toList = .ok d.root := by
  unfold parse at h
  cases ht : Tree.parse source.toList with
  | error fault =>
    rw [ht] at h
    cases h
  | ok t =>
    rw [ht] at h
    cases h
    exact ⟨rfl, rfl⟩

end Stencil.Markup
