/-
A path leads to one place of a document.

Each step of a path begins with a name: the tag of an element, `text`, or
nothing before the `@` of an attribute. What is behind the name begins with a
character that is in no name, so steps are cut there (`cut_inj`), and by this
character a step tells which kind of place it is for. Steps hold no `/`, so a
path is cut into them (`line_inj`).

Below one element the last step tells the children apart (`sibling_of_step`).
From this, up the ancestors, elements with the same steps are one element; the
induction is on the numbers of the nodes, which get smaller on the way up.
-/
import Mathlib.Data.List.TakeWhile
import Stencil.Proofs.Markup.Arena
import Stencil.Proofs.Markup.Resolved
import Stencil.Proofs.Markup.Tags
import Stencil.Template.Diagnostic

namespace Stencil.Markup

/-- Documents that leave no doubt about what a path means: tags are names of
XML, an `id` holds no `/`, and children with one tag have different `id`s if
they have any that are not empty. -/
structure Document.Addressed (d : Document) : Prop where
  tags : ∀ n ∈ d.nodes, ∀ tag ∈ n.tag?, isXmlName tag = true
  whole : ∀ n ∈ d.nodes, ∀ i ∈ n.attribute? "id", '/' ∉ i.toList
  apart : ∀ p ∈ d.nodes, p.children.Pairwise fun m n =>
    m.tag? = n.tag? → ∀ i ∈ m.attribute? "id", i ≠ "" →
      n.attribute? "id" ≠ some i

end Stencil.Markup

namespace Stencil.Template

open Markup (Document Node isXmlName namePartRanges)

namespace Diagnostic

-- =================================================== cutting at a character

/-- A name is cut off from what is behind it. -/
theorem cut_inj {x y r s : List Char}
    (hx : ∀ c ∈ x, namePartRanges.contains c = true)
    (hy : ∀ c ∈ y, namePartRanges.contains c = true)
    (hr : ∀ c ∈ r.head?, namePartRanges.contains c = false)
    (hs : ∀ c ∈ s.head?, namePartRanges.contains c = false)
    (h : x ++ r = y ++ s) : x = y ∧ r = s := by
  have htake {x r : List Char}
      (hx : ∀ c ∈ x, namePartRanges.contains c = true)
      (hr : ∀ c ∈ r.head?, namePartRanges.contains c = false) :
      (x ++ r).takeWhile namePartRanges.contains = x := by
    rw [List.takeWhile_append_of_pos hx]
    cases r with
    | nil => rw [List.takeWhile_nil, List.append_nil]
    | cons c r =>
      rw [List.takeWhile_cons_of_neg (by rw [hr c rfl]; decide),
        List.append_nil]
  have hxy : x = y := by
    rw [← htake hx hr, h, htake hy hs]
  subst hxy
  exact ⟨rfl, List.append_cancel_left h⟩

/-- The characters of a path, with a space put behind it. -/
def line (ss : List String) : List Char :=
  ss.flatMap fun s => '/' :: ' ' :: (s.toList ++ [' '])

theorem line_eq {ss : List String} (h : ss ≠ []) :
    ("/ " ++ " / ".intercalate ss).toList ++ [' '] = line ss := by
  induction ss with
  | nil => exact absurd rfl h
  | cons s ss ih =>
    cases ss with
    | nil =>
      rw [String.intercalate_singleton, String.toList_append]
      simp [line]
    | cons t ss =>
      have hrest := ih (List.cons_ne_nil t ss)
      rw [String.intercalate_cons_cons, line, List.flatMap_cons, ← line,
        ← hrest]
      simp [String.toList_append]

theorem head?_line (ss : List String) : ∀ c ∈ (line ss).head?, c = '/' := by
  cases ss with
  | nil => exact nofun
  | cons s ss =>
    intro c hc
    exact (Option.some.inj hc).symm

/-- Steps without `/` are read off the path. -/
theorem line_inj {ss ts : List String} (hss : ∀ s ∈ ss, '/' ∉ s.toList)
    (hts : ∀ t ∈ ts, '/' ∉ t.toList) (h : line ss = line ts) : ss = ts := by
  -- a step ends at the first slash, since it has none itself
  have hfirst {s : String} (hs : '/' ∉ s.toList) (ss : List String) :
      (s.toList ++ ' ' :: line ss).takeWhile (· != '/')
        = s.toList ++ [' '] := by
    rw [List.append_cons, List.takeWhile_append_of_pos]
    · have hhead := head?_line ss
      cases hl : line ss with
      | nil => rw [List.takeWhile_nil, List.append_nil]
      | cons c l =>
        rw [hl] at hhead
        obtain rfl := hhead c rfl
        rw [List.takeWhile_cons_of_neg (by decide), List.append_nil]
    · intro c hc
      rcases List.mem_append.1 hc with hc | hc
      · exact bne_iff_ne.2 fun he => hs (he ▸ hc)
      · rw [List.mem_singleton.1 hc]
        decide
  have hcons (s : String) (ss : List String) :
      line (s :: ss) = '/' :: ' ' :: (s.toList ++ ' ' :: line ss) := by
    rw [line, List.flatMap_cons, ← line]
    simp
  induction ss generalizing ts with
  | nil =>
    cases ts with
    | nil => rfl
    | cons t ts => cases h
  | cons s ss ih =>
    cases ts with
    | nil => cases h
    | cons t ts =>
      obtain ⟨hs, hss⟩ := List.forall_mem_cons.1 hss
      obtain ⟨ht, hts⟩ := List.forall_mem_cons.1 hts
      rw [hcons, hcons] at h
      have hline := (List.cons.inj (List.cons.inj h).2).2
      have htake := congrArg (List.takeWhile (· != '/')) hline
      rw [hfirst hs, hfirst ht] at htake
      have hst := List.append_cancel_right htake
      rw [hst] at hline
      have hrest := List.append_cancel_left hline
      rw [String.toList_inj.1 hst, ih hss hts (List.cons.inj hrest).2]

-- ================================================================ positions

/-- A position is in brackets, or there is none. -/
theorem ordinal_cases (n : Node) (like : Node → Bool) :
    (ordinal n like).toList = []
      ∨ ∃ k, (ordinal n like).toList = '[' :: (Nat.toDigits 10 k ++ [']']) := by
  unfold ordinal
  cases n.parent? with
  | none => exact .inl rfl
  | some p =>
    dsimp only
    split
    · refine .inr ⟨((p.children.filter like).takeWhile
        fun m => !m.same n).length + 1, ?_⟩
      simp [String.toList_append, toString, Nat.repr]
    · exact .inl rfl

theorem slash_not_mem_ordinal (n : Node) (like : Node → Bool) :
    '/' ∉ (ordinal n like).toList := by
  rcases ordinal_cases n like with h | ⟨k, h⟩
  · rw [h]
    exact List.not_mem_nil
  · rw [h]
    intro hmem
    rcases List.mem_append.1 ((List.mem_cons.1 hmem).resolve_left nofun) with
      hmem | hmem
    · cases Nat.isDigit_of_mem_toDigits (by decide) (by decide) hmem
    · cases List.mem_singleton.1 hmem

/-- With as many nodes before them two members of a list are the same. -/
theorem exists_same_of_length {ns : List Node} {m n : Node} (hm : m ∈ ns)
    (hn : n ∈ ns)
    (h : (ns.takeWhile fun k => !k.same m).length
      = (ns.takeWhile fun k => !k.same n).length) :
    ∃ k ∈ ns, k.same m = true ∧ k.same n = true := by
  have hself (k : Node) : k.same k = true := by
    unfold Node.same
    rw [beq_self_eq_true, beq_self_eq_true]
    rfl
  induction ns with
  | nil => cases hm
  | cons a ns ih =>
    have htail {b : Node} (hb : b ∈ a :: ns) (hab : a.same b = false) :
        b ∈ ns := by
      rcases List.mem_cons.1 hb with rfl | hb
      · rw [hself] at hab
        cases hab
      · exact hb
    rw [List.takeWhile_cons, List.takeWhile_cons] at h
    -- the first node that is the same as one of them is the same as both, or
    -- as none
    cases ham : a.same m with
    | true =>
      cases han : a.same n with
      | true => exact ⟨a, List.mem_cons_self, ham, han⟩
      | false =>
        rw [ham, han] at h
        cases h
    | false =>
      cases han : a.same n with
      | true =>
        rw [ham, han] at h
        cases h
      | false =>
        rw [ham, han] at h
        obtain ⟨k, hk, hkm, hkn⟩ := ih (htail hm ham) (htail hn han)
          (Nat.succ.inj h)
        exact ⟨k, List.mem_cons_of_mem _ hk, hkm, hkn⟩

/-- Among the children of an element that are alike, a position is that of one
child. -/
theorem ordinal_inj {p m n : Node} {like : Node → Bool}
    (hmp : m.parent? = some p) (hnp : n.parent? = some p)
    (hp : p.isElement = true) (hm : m ∈ p.children) (hn : n ∈ p.children)
    (hlm : like m = true) (hln : like n = true)
    (h : ordinal m like = ordinal n like) : m.id = n.id := by
  have hm := List.mem_filter.2 ⟨hm, hlm⟩
  have hn := List.mem_filter.2 ⟨hn, hln⟩
  have hordinal {k : Node} (hk : k.parent? = some p) :
      ordinal k like = if 1 < (p.children.filter like).length then
        s!"[{((p.children.filter like).takeWhile
          fun m => !m.same k).length + 1}]" else "" := by
    unfold ordinal
    rw [hk]
    simp [hp]
  rw [hordinal hmp, hordinal hnp] at h
  by_cases hmany : 1 < (p.children.filter like).length
  · rw [if_pos hmany, if_pos hmany] at h
    -- numbers are told apart by their digits
    have hdigits := congrArg String.toList h
    simp only [String.toList_append, toString, Nat.repr,
      String.toList_ofList] at hdigits
    have hnumbers := congrArg (Nat.ofDigitChars 10 · 0)
      (List.append_cancel_left (List.append_cancel_right hdigits))
    simp only [Nat.ofDigitChars_ten_toDigits] at hnumbers
    obtain ⟨k, -, hkm, hkn⟩ :=
      exists_same_of_length hm hn (Nat.succ.inj hnumbers)
    have hid {a b : Node} (hab : a.same b = true) : a.id = b.id :=
      eq_of_beq (Bool.and_eq_true_iff.1 hab).2
    exact (hid hkm).symm.trans (hid hkn)
  -- where no number is given there is one such sibling
  · match hns : p.children.filter like with
    | [] =>
      rw [hns] at hm
      cases hm
    | [k] =>
      rw [hns] at hm hn
      rw [List.mem_singleton.1 hm, List.mem_singleton.1 hn]
    | _ :: _ :: _ =>
      rw [hns] at hmany
      exact absurd (Nat.succ_lt_succ (Nat.succ_pos _)) hmany

-- ==================================================================== steps

/-- What stands in a step behind the tag. -/
def distinction (n : Node) (tag : String) : List Char :=
  match (n.attribute? "id").filter fun id => !id.isEmpty with
  | some id => '#' :: id.toList
  | none => (ordinal n fun m => m.tag? == some tag).toList

theorem elementStep_eq {n : Node} {tag : String} (h : n.tag? = some tag) :
    (elementStep n).toList = tag.toList ++ distinction n tag := by
  unfold elementStep distinction
  rw [h]
  cases (n.attribute? "id").filter fun id => !id.isEmpty with
  | none => simp
  | some id => simp

theorem head?_distinction (n : Node) (tag : String) :
    ∀ c ∈ (distinction n tag).head?, c = '#' ∨ c = '[' := by
  intro c hc
  unfold distinction at hc
  split at hc
  · exact .inl (Option.some.inj hc).symm
  · rcases ordinal_cases n fun m => m.tag? == some tag with h | ⟨k, h⟩
    · rw [h] at hc
      cases hc
    · rw [h] at hc
      exact .inr (Option.some.inj hc).symm

theorem id_ne_ordinal (i : List Char) (n : Node) (like : Node → Bool) :
    '#' :: i ≠ (ordinal n like).toList := by
  rcases ordinal_cases n like with h | ⟨k, h⟩
  · rw [h]
    exact List.cons_ne_nil _ _
  · rw [h]
    exact fun he => absurd (List.cons.inj he).1 (by decide)

theorem outside_name (n : Node) (tag : String) :
    ∀ c ∈ (distinction n tag).head?, namePartRanges.contains c = false := by
  intro c hc
  rcases head?_distinction n tag c hc with rfl | rfl
  · decide
  · decide

/-- The first character of a step that is in no name. -/
def mark? (s : String) : Option Char :=
  s.toList.find? fun c => !namePartRanges.contains c

theorem mark?_eq {s : String} {x r : List Char} (h : s.toList = x ++ r)
    (hx : ∀ c ∈ x, namePartRanges.contains c = true)
    (hr : ∀ c ∈ r.head?, namePartRanges.contains c = false) :
    mark? s = r.head? := by
  have hnone : x.find? (fun c => !namePartRanges.contains c) = none :=
    List.find?_eq_none.2 fun c hc => by rw [hx c hc]; decide
  unfold mark?
  rw [h, List.find?_append, hnone, Option.none_or]
  cases r with
  | nil => rfl
  | cons c r => exact List.find?_cons_of_pos (by rw [hr c rfl]; rfl)

theorem tag_of_isElement {n : Node} (h : n.isElement = true) :
    ∃ tag, n.tag? = some tag := by
  obtain ⟨e, he⟩ := Option.isSome_iff_exists.1 h
  exact ⟨e.name.text, by rw [Node.tag?, he]; rfl⟩

theorem isCharacters_of_isElement {n : Node} (h : n.isElement = true) :
    isCharacters n = false := by
  have hcontent : (n.content.element?).isSome = true := h
  unfold isCharacters Node.characters?
  cases hn : n.content <;> rw [hn] at hcontent <;> first | rfl | cases hcontent

theorem content_ne_of_isElement {n : Node} (h : n.isElement = true) :
    n.content ≠ .document := by
  intro hcontent
  unfold Node.isElement Node.element? at h
  rw [hcontent] at h
  cases h

theorem content_ne_of_isCharacters {n : Node} (h : isCharacters n = true) :
    n.content ≠ .document := by
  intro hcontent
  unfold isCharacters Node.characters? at h
  rw [hcontent] at h
  cases h

theorem ancestors_eq {n p : Node} (hp : n.parent? = some p) :
    n.ancestors = p.lineage := by
  obtain ⟨origin, tree, trail⟩ := n
  cases trail with
  | nil => cases hp
  | cons t ts =>
    cases hp
    rfl

/-- Up an element the steps go on with those of its parent. -/
theorem stepsUp_element {n : Node} (h : n.isElement = true) :
    stepsUp n.lineage = elementStep n :: stepsUp n.ancestors := by
  unfold stepsUp
  rw [Node.lineage, List.takeWhile_cons_of_pos h, List.map_cons]

theorem stepsUp_other {n : Node} (h : n.isElement = false) :
    stepsUp n.lineage = [] := by
  unfold stepsUp Node.lineage
  rw [List.takeWhile_cons_of_neg (by rw [h]; decide), List.map_nil]

/-- The first characters in no name of the steps to attributes, to character
data and to elements. -/
def marks (attr chars : Bool) : List (Option Char) :=
  if attr then [some '@']
  else if chars then [some '(']
  else [none, some '#', some '[']

theorem marks_apart : ∀ p q r s : Bool,
    (p = r ∧ (p = false → q = s)) ∨ ∀ x ∈ marks p q, x ∉ marks r s := by
  decide

/-- The last step of a path. -/
def lastStep (n : Node) : Option String → String
  | some a => "@" ++ a
  | none =>
    if isCharacters n then "text()" ++ ordinal n isCharacters
    else elementStep n

/-- The steps before the last one, innermost first. -/
def outerSteps (n : Node) : Option String → List String
  | some _ => stepsUp n.lineage
  | none => stepsUp n.ancestors

end Diagnostic

end Stencil.Template

namespace Stencil.Markup.Document

open Template.Diagnostic

/-- What a path leads to: an element, a text or a section, or an attribute of
an element, which may also be one that the element lacks. -/
def Spot (d : Document) (n : Node) : Option String → Prop
  | none => n ∈ d.nodes ∧ (n.isElement = true ∨ isCharacters n = true)
  | some a => n ∈ d.nodes ∧ n.isElement = true ∧ isXmlName a = true

variable {d : Document}

theorem Spot.mem {n : Node} {attr : Option String} (h : d.Spot n attr) :
    n ∈ d.nodes := by
  cases attr with
  | none => exact h.1
  | some a => exact h.1

theorem Spot.steps_eq {n : Node} {attr : Option String} (h : d.Spot n attr) :
    steps n attr = (outerSteps n attr).reverse ++ [lastStep n attr] := by
  cases attr with
  | some a => rfl
  | none =>
    unfold steps outerSteps lastStep
    dsimp only
    rcases h.2 with he | hc
    · rw [isCharacters_of_isElement he, stepsUp_element he,
        List.reverse_cons]
      rfl
    · rw [hc]
      rfl

-- ================================================================= children

/-- A node with children that is no element is the document. -/
theorem eq_document (h : d.Arena) {p c : Node} (hp : p ∈ d.nodes)
    (hc : c ∈ p.children) (hno : p.isElement = false) : p = d.node := by
  rcases h.leaves p hp (List.ne_nil_of_mem hc) with hdocument | helement
  · exact h.eq_node hp hdocument
  · rw [hno] at helement
    cases helement

/-- There is one element at the top. -/
theorem sibling_of_top (h : d.Arena) {p m n : Node} (hp : p ∈ d.nodes)
    (hm : m ∈ p.children) (hn : n ∈ p.children) (hem : m.isElement = true)
    (hen : n.isElement = true) (hep : p.isElement = false) : m = n := by
  have hroot := h.root
  rw [← eq_document h hp hm hep] at hroot
  obtain ⟨r, hr⟩ := List.length_eq_one_iff.1 hroot
  have hone {c : Node} (hc : c ∈ p.children) (hec : c.isElement = true) :
      c = r := by
    have hmem : c ∈ p.childElements := List.mem_filter.2 ⟨hc, hec⟩
    rw [hr] at hmem
    exact List.mem_singleton.1 hmem
  rw [hone hm hem, hone hn hen]

/-- Siblings with one tag and one `id` are the same. -/
theorem sibling_of_id (hd : d.Addressed) {p m n : Node} {i : String}
    (hp : p ∈ d.nodes) (hm : m ∈ p.children) (hn : n ∈ p.children)
    (htag : m.tag? = n.tag?) (hmi : m.attribute? "id" = some i)
    (hni : n.attribute? "id" = some i) (hi : i ≠ "") : m = n := by
  by_contra hmn
  have : Std.Symm fun m n : Node => m.tag? = n.tag? →
      ∀ i ∈ m.attribute? "id", i ≠ "" → n.attribute? "id" ≠ some i :=
    ⟨fun m n hmn htag i hi hne him => hmn htag.symm i him hne hi⟩
  exact (hd.apart p hp).forall hm hn hmn htag i hmi hi hni

theorem id_of_filter {n : Node} {i : String}
    (h : (n.attribute? "id").filter (fun id => !id.isEmpty) = some i) :
    n.attribute? "id" = some i ∧ i ≠ "" := by
  obtain ⟨hi, hne⟩ := Option.filter_eq_some_iff.1 h
  refine ⟨hi, fun he => ?_⟩
  rw [he] at hne
  cases hne

/-- Siblings with one tag are told apart by what follows it: an `id` of one of
them by its mark, `id`s of both as they are, and else their positions. -/
theorem sibling_of_distinction (h : d.Arena) (hd : d.Addressed)
    {p m n : Node} {tag : String} (hp : p ∈ d.nodes)
    (hmp : m.parent? = some p) (hnp : n.parent? = some p)
    (hm : m ∈ p.children) (hn : n ∈ p.children) (hep : p.isElement = true)
    (hmtag : m.tag? = some tag) (hntag : n.tag? = some tag)
    (heq : distinction m tag = distinction n tag) : m = n := by
  unfold distinction at heq
  split at heq
  · next i hi =>
    split at heq
    · next j hj =>
      obtain rfl := String.toList_inj.1 (List.cons.inj heq).2
      obtain ⟨hmi, hne⟩ := id_of_filter hi
      exact sibling_of_id hd hp hm hn (hmtag.trans hntag.symm) hmi
        (id_of_filter hj).1 hne
    -- an id follows a number sign, a number stands in brackets
    · exact absurd heq (id_ne_ordinal i.toList n _)
  · split at heq
    · next j hj => exact absurd heq.symm (id_ne_ordinal j.toList m _)
    · have hin := h.closed.2 p hp
      refine h.eq_of_id (hin hm) (hin hn) ?_
      refine ordinal_inj hmp hnp hep hm hn ?_ ?_ (String.toList_inj.1 heq)
      · rw [hmtag]
        exact beq_self_eq_true _
      · rw [hntag]
        exact beq_self_eq_true _

/-- Below one node different elements have different steps. -/
theorem sibling_of_step (h : d.Arena) (hd : d.Addressed) {p m n : Node}
    (hp : p ∈ d.nodes) (hmp : m.parent? = some p) (hnp : n.parent? = some p)
    (hm : m ∈ p.children) (hn : n ∈ p.children) (hem : m.isElement = true)
    (hen : n.isElement = true) (hstep : elementStep m = elementStep n) :
    m = n := by
  have hin := h.closed.2 p hp
  cases hep : p.isElement with
  | false => exact sibling_of_top h hp hm hn hem hen hep
  | true =>
    obtain ⟨tag, htag⟩ := tag_of_isElement hem
    obtain ⟨tag', htag'⟩ := tag_of_isElement hen
    obtain ⟨-, -, -, hname⟩ := parts_of_isXmlName (hd.tags m (hin hm) tag htag)
    obtain ⟨-, -, -, hname'⟩ :=
      parts_of_isXmlName (hd.tags n (hin hn) tag' htag')
    have hchars := congrArg String.toList hstep
    rw [elementStep_eq htag, elementStep_eq htag'] at hchars
    obtain ⟨heq, hrest⟩ := cut_inj hname hname' (outside_name m tag)
      (outside_name n tag') hchars
    obtain rfl := String.toList_inj.1 heq
    exact sibling_of_distinction h hd hp hmp hnp hm hn hep htag htag' hrest

-- ==================================================================== climbing

/-- Parents with the same steps are one, if elements with the same steps
are. -/
theorem above_of_steps (h : d.Arena) {p q a b : Node} (hp : p ∈ d.nodes)
    (hq : q ∈ d.nodes) (ha : a ∈ p.children) (hb : b ∈ q.children)
    (hone : p.isElement = true → q.isElement = true → p = q)
    (hsteps : stepsUp p.lineage = stepsUp q.lineage) : p = q := by
  have hfilled {k : Node} (he : k.isElement = true) :
      stepsUp k.lineage ≠ [] := by
    rw [stepsUp_element he]
    exact List.cons_ne_nil _ _
  cases hep : p.isElement with
  | true =>
    cases heq : q.isElement with
    | true => exact hone hep heq
    | false =>
      rw [stepsUp_other heq] at hsteps
      exact absurd hsteps (hfilled hep)
  | false =>
    cases heq : q.isElement with
    | true =>
      rw [stepsUp_other hep] at hsteps
      exact absurd hsteps.symm (hfilled heq)
    | false => rw [eq_document h hp ha hep, eq_document h hq hb heq]

/-- Elements with the same steps are one. -/
theorem element_of_steps (h : d.Arena) (hd : d.Addressed) {m n : Node}
    (hm : m ∈ d.nodes) (hn : n ∈ d.nodes) (hem : m.isElement = true)
    (hen : n.isElement = true)
    (hsteps : stepsUp m.lineage = stepsUp n.lineage) : m = n := by
  induction hk : m.id using Nat.strong_induction_on generalizing m n with
  | h k ih =>
    subst hk
    obtain ⟨p, hp, hmp, hlt, hmc⟩ :=
      h.exists_above hm (content_ne_of_isElement hem)
    obtain ⟨q, hq, hnq, -, hnc⟩ :=
      h.exists_above hn (content_ne_of_isElement hen)
    rw [stepsUp_element hem, stepsUp_element hen, ancestors_eq hmp,
      ancestors_eq hnq] at hsteps
    obtain ⟨hstep, hup⟩ := List.cons.inj hsteps
    obtain rfl := above_of_steps h hp hq hmc hnc
      (fun hep heq => ih p.id hlt hp hq hep heq hup rfl) hup
    exact sibling_of_step h hd hp hmp hnq hmc hnc hem hen hstep

/-- Texts and sections with the same steps are one, as they are children of
elements. -/
theorem characters_of_steps (h : d.Arena) (hd : d.Addressed)
    (hout : ∀ c ∈ d.node.children, isCharacters c = false) {m n : Node}
    (hm : m ∈ d.nodes) (hn : n ∈ d.nodes) (hcm : isCharacters m = true)
    (hcn : isCharacters n = true)
    (hup : stepsUp m.ancestors = stepsUp n.ancestors)
    (hordinal : ordinal m isCharacters = ordinal n isCharacters) : m = n := by
  obtain ⟨p, hp, hmp, -, hmc⟩ :=
    h.exists_above hm (content_ne_of_isCharacters hcm)
  obtain ⟨q, hq, hnq, -, hnc⟩ :=
    h.exists_above hn (content_ne_of_isCharacters hcn)
  rw [ancestors_eq hmp, ancestors_eq hnq] at hup
  obtain rfl := above_of_steps h hp hq hmc hnc
    (fun hep heq => element_of_steps h hd hp hq hep heq hup) hup
  cases hep : p.isElement with
  | false =>
    rw [eq_document h hp hmc hep] at hmc
    rw [hout m hmc] at hcm
    cases hcm
  | true =>
    exact h.eq_of_id hm hn
      (ordinal_inj hmp hnq hep hmc hnc hcm hcn hordinal)

-- ===================================================================== paths

/-- What a last step is for is told by the first character in it that is in no
name. -/
theorem mark?_lastStep (hd : d.Addressed) {n : Node} {attr : Option String}
    (h : d.Spot n attr) :
    mark? (lastStep n attr) ∈ marks attr.isSome (isCharacters n) := by
  cases attr with
  | some a =>
    have hsplit : ("@" ++ a).toList = [] ++ '@' :: a.toList :=
      String.toList_append
    refine List.mem_singleton.2 (mark?_eq hsplit nofun fun c hc => ?_)
    obtain rfl := Option.some.inj hc
    decide
  | none =>
    unfold lastStep
    dsimp only
    rcases h.2 with he | hc
    · obtain ⟨tag, htag⟩ := tag_of_isElement he
      obtain ⟨-, -, -, hname⟩ :=
        parts_of_isXmlName (hd.tags n h.1 tag htag)
      rw [isCharacters_of_isElement he, if_neg (by decide),
        mark?_eq (elementStep_eq htag) hname (outside_name n tag)]
      -- behind a tag stands nothing, a number sign or a bracket
      have hhead := head?_distinction n tag
      cases hr : (distinction n tag).head? with
      | none => exact List.mem_cons_self
      | some c => rcases hhead c hr with rfl | rfl <;> decide
    · rw [hc, if_pos rfl]
      have hsplit : ("text()" ++ ordinal n isCharacters).toList
          = "text".toList ++ '(' :: ')' :: (ordinal n isCharacters).toList := by
        rw [String.toList_append]
        rfl
      obtain ⟨-, -, -, htext⟩ :=
        parts_of_isXmlName (by decide +kernel : isXmlName "text" = true)
      refine List.mem_singleton.2 (mark?_eq hsplit htext fun c hc => ?_)
      obtain rfl := Option.some.inj hc
      decide

theorem slash_not_mem_elementStep (hd : d.Addressed) {n : Node}
    (hn : n ∈ d.nodes) (he : n.isElement = true) :
    '/' ∉ (elementStep n).toList := by
  obtain ⟨tag, htag⟩ := tag_of_isElement he
  obtain ⟨-, -, -, hname⟩ := parts_of_isXmlName (hd.tags n hn tag htag)
  rw [elementStep_eq htag]
  intro hmem
  rcases List.mem_append.1 hmem with hmem | hmem
  · cases hname _ hmem
  · unfold distinction at hmem
    split at hmem
    · next i hi =>
      have hi := (Option.filter_eq_some_iff.1 hi).1
      exact hd.whole n hn i hi ((List.mem_cons.1 hmem).resolve_left nofun)
    · exact slash_not_mem_ordinal _ _ hmem

/-- No step has a `/` in it. -/
theorem slash_not_mem_steps (h : d.Arena) (hd : d.Addressed) {n : Node}
    {attr : Option String} (hspot : d.Spot n attr) :
    ∀ s ∈ steps n attr, '/' ∉ s.toList := by
  have hup {ns : List Node} (hns : ns ⊆ d.nodes) :
      ∀ s ∈ stepsUp ns, '/' ∉ s.toList := by
    intro s hs
    obtain ⟨k, hk, rfl⟩ := List.mem_map.1 hs
    exact slash_not_mem_elementStep hd
      (hns ((List.takeWhile_sublist _).subset hk)) (List.mem_takeWhile_imp hk)
  have hlineage := h.lineage_subset hspot.mem
  intro s hs
  rw [hspot.steps_eq] at hs
  -- the steps down to the parent, and the last one
  rcases List.mem_append.1 hs with hs | hs
  · have hs := List.mem_reverse.1 hs
    cases attr with
    | some a => exact hup hlineage s hs
    | none => exact hup (List.cons_subset.1 hlineage).2 s hs
  · obtain rfl := List.mem_singleton.1 hs
    cases attr with
    | some a =>
      obtain ⟨-, -, -, hname⟩ := parts_of_isXmlName hspot.2.2
      intro hmem
      rw [lastStep, String.toList_append] at hmem
      cases hname _ ((List.mem_cons.1 hmem).resolve_left nofun)
    | none =>
      unfold lastStep
      dsimp only
      rcases hspot.2 with he | hc
      · rw [isCharacters_of_isElement he]
        exact slash_not_mem_elementStep hd hspot.1 he
      · rw [hc, if_pos rfl, String.toList_append]
        intro hmem
        rcases List.mem_append.1 hmem with hmem | hmem
        · revert hmem
          decide
        · exact slash_not_mem_ordinal _ _ hmem

/-- What a path leads to is told by its last step. -/
theorem alike_of_lastStep (hd : d.Addressed) {m n : Node}
    {a b : Option String} (hm : d.Spot m a) (hn : d.Spot n b)
    (h : lastStep m a = lastStep n b) :
    a.isSome = b.isSome
      ∧ (a.isSome = false → isCharacters m = isCharacters n) := by
  have hmark := mark?_lastStep hd hm
  rw [h] at hmark
  exact (marks_apart ..).resolve_right fun hapart =>
    hapart _ hmark (mark?_lastStep hd hn)

/-- Spots with the same steps are one. -/
theorem spot_of_steps (h : d.Arena) (hd : d.Addressed)
    (hout : ∀ c ∈ d.node.children, isCharacters c = false) {m n : Node}
    {a b : Option String} (hm : d.Spot m a) (hn : d.Spot n b)
    (hsteps : steps m a = steps n b) : m = n ∧ a = b := by
  rw [hm.steps_eq, hn.steps_eq] at hsteps
  obtain ⟨houter, hlast⟩ := List.append_inj' hsteps rfl
  have houter := List.reverse_inj.1 houter
  have hlast := (List.cons.inj hlast).1
  -- the last step tells an attribute from characters and from an element
  obtain ⟨hattr, hkind⟩ := alike_of_lastStep hd hm hn hlast
  match a, b with
  | some a, some b =>
    refine ⟨element_of_steps h hd hm.1 hn.1 hm.2.1 hn.2.1 houter, ?_⟩
    have hchars := congrArg String.toList hlast
    rw [lastStep, lastStep, String.toList_append, String.toList_append]
      at hchars
    rw [String.toList_inj.1 (List.append_cancel_left hchars)]
  | none, none =>
    refine ⟨?_, rfl⟩
    have hkind := hkind rfl
    unfold lastStep at hlast
    dsimp only at hlast
    rw [hkind] at hlast
    cases hcn : isCharacters n with
    | true =>
      rw [hcn, if_pos rfl, if_pos rfl] at hlast
      have hchars := congrArg String.toList hlast
      rw [String.toList_append, String.toList_append] at hchars
      exact characters_of_steps h hd hout hm.1 hn.1 (hkind.trans hcn) hcn
        houter (String.toList_inj.1 (List.append_cancel_left hchars))
    | false =>
      rw [hcn, if_neg (by decide), if_neg (by decide)] at hlast
      have hem := hm.2.resolve_right (by rw [hkind, hcn]; decide)
      have hen := hn.2.resolve_right (by rw [hcn]; decide)
      refine element_of_steps h hd hm.1 hn.1 hem hen ?_
      rw [stepsUp_element hem, stepsUp_element hen, hlast]
      exact congrArg _ houter

end Stencil.Markup.Document

namespace Stencil.Template

open Markup (Document Node)

/-- In a document that is parsed, whose tags are names and whose `id`s are
clear, the path of a diagnostic is that of no other element, text, section or
attribute than the one the diagnostic is about. -/
theorem path_identifies (origin : Markup.Origin) (source : String)
    (d : Document) (hparse : Document.parse origin source = .ok d)
    (hd : d.Addressed) (e f : Diagnostic) (m n : Node)
    (he : e.node = some m) (hf : f.node = some n) (hm : d.Spot m e.attr)
    (hn : d.Spot n f.attr) :
    e.path? = f.path? ↔ m = n ∧ e.attr = f.attr := by
  have harena := (Markup.Document.parsed_in_order origin source d hparse).1
  -- text stands in elements only, so what is at the top is no text
  have hout (c : Node) (hc : c ∈ d.node.children) :
      Diagnostic.isCharacters c = false := by
    obtain ⟨-, ht⟩ := Markup.Document.tree_of_parse hparse
    obtain ⟨t, ht', rfl⟩ := List.mem_map.1 hc
    have hnone := (Markup.Tree.resolved_of_parse ht).2 t ht'
    exact congrArg Option.isSome hnone
  unfold Diagnostic.path?
  rw [he, hf, Option.map_some, Option.map_some]
  refine ⟨fun h => ?_, fun ⟨hmn, hattr⟩ => by rw [hmn, hattr]⟩
  have hnil {k : Node} {attr : Option String} (hk : d.Spot k attr) :
      Diagnostic.steps k attr ≠ [] := by
    rw [hk.steps_eq]
    exact List.append_ne_nil_of_right_ne_nil _ (List.cons_ne_nil _ _)
  -- a path is its steps in one line, from which they can be told again
  have hline : Diagnostic.line (Diagnostic.steps m e.attr)
      = Diagnostic.line (Diagnostic.steps n f.attr) := by
    rw [← Diagnostic.line_eq (hnil hm), ← Diagnostic.line_eq (hnil hn),
      Option.some.inj h]
  exact Markup.Document.spot_of_steps harena hd hout hm hn
    (Diagnostic.line_inj
      (Markup.Document.slash_not_mem_steps harena hd hm)
      (Markup.Document.slash_not_mem_steps harena hd hn) hline)

/-- A source with two elements of one tag, one of them with an `id`. -/
def pairedSource : String := "<a><p id='i'>s</p><p>t<b/>u</p></a>"

/-- The second of them, with a text before and a text behind an element. -/
def pairedSecond : Markup.Tree :=
  .node ⟨4, ⟨1, 19⟩, .element ⟨.ofText "p", none, [], []⟩⟩
    [.node ⟨5, ⟨1, 22⟩, .text "t"⟩ [],
      .node ⟨6, ⟨1, 23⟩, .element ⟨.ofText "b", none, [], []⟩⟩ [],
      .node ⟨7, ⟨1, 27⟩, .text "u"⟩ []]

def pairedFirst : Markup.Tree :=
  .node ⟨2, ⟨1, 4⟩, .element
      ⟨.ofText "p", none, [⟨.ofText "id", none, "i"⟩], []⟩⟩
    [.node ⟨3, ⟨1, 14⟩, .text "s"⟩ []]

def pairedRoot : Markup.Tree :=
  .node ⟨1, ⟨1, 1⟩, .element ⟨.ofText "a", none, [], []⟩⟩
    [pairedFirst, pairedSecond]

def paired : Document where
  origin := .given 0
  root := .node ⟨0, ⟨1, 1⟩, .document⟩ [pairedRoot]

/-- The last text of the source. -/
def lastText : Node :=
  ⟨.given 0, .node ⟨7, ⟨1, 27⟩, .text "u"⟩ [],
    [pairedSecond, pairedRoot, paired.root]⟩

/-- The element with an `id`. -/
def firstOfPair : Node := ⟨.given 0, pairedFirst, [pairedRoot, paired.root]⟩

/-- The path to a text has its position and that of its element, and the path
to an attribute has the `id`. -/
theorem path_identifies_paired :
    Document.parse (.given 0) pairedSource = .ok paired ∧ paired.Addressed
    ∧ paired.Spot lastText none ∧ paired.Spot firstOfPair (some "id")
    ∧ (Diagnostic.about lastText .valueMissing).path?
        = some "/ a / p[2] / text()[2]"
    ∧ (Diagnostic.on firstOfPair "id" .nameInvalid).path?
        = some "/ a / p#i / @id"
    ∧ ((Diagnostic.about lastText .valueMissing).path?
          = (Diagnostic.on firstOfPair "id" .nameInvalid).path?
        ↔ lastText = firstOfPair ∧ none = some "id") := by
  have hparse : Document.parse (.given 0) pairedSource = .ok paired := by
    with_unfolding_all rfl
  have hnodes : paired.nodes[7]? = some lastText
      ∧ paired.nodes[2]? = some firstOfPair := by
    with_unfolding_all exact ⟨rfl, rfl⟩
  have hpaired : paired.Addressed := by
    constructor
    · decide +kernel
    · decide +kernel
    · decide +kernel
  have htext : paired.Spot lastText none :=
    ⟨List.mem_of_getElem? hnodes.1, .inr rfl⟩
  have hfirst : paired.Spot firstOfPair (some "id") :=
    ⟨List.mem_of_getElem? hnodes.2, rfl, by decide +kernel⟩
  exact ⟨hparse, hpaired, htext, hfirst, by decide +kernel,
    by decide +kernel,
    path_identifies (.given 0) pairedSource paired hparse hpaired
      (.about lastText .valueMissing) (.on firstOfPair "id" .nameInvalid)
      lastText firstOfPair rfl rfl htext hfirst⟩

end Stencil.Template
