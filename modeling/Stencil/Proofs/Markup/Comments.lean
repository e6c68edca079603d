/-
Documents without some of their comments.

A comment may be taken out anywhere. Where two texts meet then, they may become
one, as they are in a document that never had the comment, provided that they
are verbatim: no expression begins in them, and none could where they meet. The
nodes that stay may have other numbers and another place in the source
(`Uncommented`).

Which numbers belong together is for a renumbering to say, and a node and its
twin are the same but for numbers, places and comments. Navigation and identity
cannot tell one from the other: twins have twin elements below them, the same
text and the same names in scope, and two nodes are the same where their twins
are. Documents that are numbered in document order have a renumbering that makes
them twins (`exists_renumbering`).
-/
import Stencil.Proofs.Markup.Preorder
import Stencil.Proofs.Related

namespace Stencil.Markup

-- ================================================================ relations

/-- A text that has no part in an expression, whatever stands around it. -/
def Verbatim (s : String) : Prop := '$' ∉ s.toList ∧ '\\' ∉ s.toList

instance (s : String) : Decidable (Verbatim s) :=
  inferInstanceAs (Decidable (_ ∧ _))

/-- The second trees are the first without some of the comments, at any depth.
Texts on both sides of such a comment may be one text. Nodes that stay have
numbers that `R` relates. -/
inductive Uncommented (R : Nat → Nat → Prop) : List Tree → List Tree → Prop
  | nil : Uncommented R [] []
  | keep {l l' : Label} {ts ts' us us' : List Tree}
    (content : l.content = l'.content) (number : R l.id l'.id)
    (below : Uncommented R ts ts') (rest : Uncommented R us us') :
    Uncommented R (.node l ts :: us) (.node l' ts' :: us')
  | drop {l : Label} {c : String} {ts us us' : List Tree}
    (comment : l.content = .comment c) (rest : Uncommented R us us') :
    Uncommented R (.node l ts :: us) us'
  | join {k l m k' : Label} {s t c : String}
    {ks ls ms ks' us us' : List Tree} (first : k.content = .text s)
    (comment : l.content = .comment c) (second : m.content = .text t)
    (joined : k'.content = .text (s ++ t)) (verbatim : Verbatim s)
    (verbatim' : Verbatim t) (rest : Uncommented R us us') :
    Uncommented R (.node k ks :: .node l ls :: .node m ms :: us)
      (.node k' ks' :: us')

/-- What holds of a tree if it holds of its children, holds of all trees. -/
@[elab_as_elim]
theorem Tree.induction {P : Tree → Prop}
    (node : ∀ (l : Label) (ts : List Tree), (∀ t ∈ ts, P t) → P (.node l ts)) :
    ∀ t, P t :=
  @Tree.rec P (fun ts => ∀ t ∈ ts, P t) node nofun
    fun _ _ first rest => List.forall_mem_cons.2 ⟨first, rest⟩

/-- The same tree without some of the comments below it. -/
structure Tree.Twin (R : Nat → Nat → Prop) (t t' : Tree) : Prop where
  content : t.content = t'.content
  number : R t.label.id t'.label.id
  below : Uncommented R t.children t'.children

/-- Which numbers the nodes of each document have in another edition of it. A
number on one side belongs to no more than one on the other. -/
structure Renumbering where
  takes : Origin → Nat → Nat → Prop
  unique {o : Origin} {i i' j j' : Nat} :
    takes o i i' → takes o j j' → (i = j ↔ i' = j')

/-- The same node of the same document, in an edition without some of the
comments. -/
structure Node.Twin (r : Renumbering) (n n' : Node) : Prop where
  origin : n.origin = n'.origin
  tree : n.tree.Twin (r.takes n.origin) n'.tree
  trail : List.Forall₂ (Tree.Twin (r.takes n.origin)) n.trail n'.trail

/-- An edition of the same document. -/
structure Document.Twin (r : Renumbering) (d d' : Document) : Prop where
  origin : d.origin = d'.origin
  root : d.root.Twin (r.takes d.origin) d'.root

-- ==================================================================== trees

section

variable {R S : Nat → Nat → Prop} {t t' : Tree} {ts ts' us us' : List Tree}

theorem Tree.Twin.isElement (h : t.Twin R t') : t.isElement = t'.isElement :=
  congrArg (fun c : Content => c.element?.isSome) h.content

theorem isElement_of_content {l : Label} {content : Content}
    (h : l.content = content) (hother : content.element? = none) :
    (Tree.node l ts).isElement = false := by
  show l.content.element?.isSome = false
  rw [h, hother]
  rfl

theorem Tree.Twin.isInsignificant (h : t.Twin R t') :
    t.isInsignificant = t'.isInsignificant :=
  congrArg Content.isInsignificant h.content

namespace Uncommented

theorem cons (h : t.Twin R t') (rest : Uncommented R us us') :
    Uncommented R (t :: us) (t' :: us') := by
  obtain ⟨l, ts⟩ := t
  obtain ⟨l', ts'⟩ := t'
  exact .keep h.content h.number h.below rest

theorem mono (h : Uncommented R ts ts') (hRS : ∀ i j, R i j → S i j) :
    Uncommented S ts ts' := by
  induction h with
  | nil => exact .nil
  | keep content number _ _ below rest =>
    exact .keep content (hRS _ _ number) below rest
  | drop comment _ rest => exact .drop comment rest
  | join first comment second joined verbatim verbatim' _ rest =>
    exact .join first comment second joined verbatim verbatim' rest

theorem all_isInsignificant (h : Uncommented R ts ts') :
    ts.all Tree.isInsignificant = ts'.all Tree.isInsignificant := by
  induction h with
  | nil => rfl
  | keep content _ _ _ _ rest =>
    have same := congrArg Content.isInsignificant content
    rw [List.all_cons, List.all_cons, rest]
    exact congrArg (· && _) same
  | @drop l c ts us us' comment _ rest =>
    have blank : (Tree.node l ts).isInsignificant = true :=
      congrArg Content.isInsignificant comment
    rw [List.all_cons, blank, Bool.true_and, rest]
  | @join k l m k' s t c ks ls ms ks' us us' first comment second joined _ _ _
      rest =>
    have atFirst : (Tree.node k ks).isInsignificant = Text.allBlank s :=
      congrArg Content.isInsignificant first
    have between : (Tree.node l ls).isInsignificant = true :=
      congrArg Content.isInsignificant comment
    have atSecond : (Tree.node m ms).isInsignificant = Text.allBlank t :=
      congrArg Content.isInsignificant second
    have atBoth : (Tree.node k' ks').isInsignificant = Text.allBlank (s ++ t) :=
      congrArg Content.isInsignificant joined
    -- two texts are blank exactly if they are so when joined
    rw [List.all_cons, List.all_cons, List.all_cons, List.all_cons, atFirst,
      between, atSecond, atBoth, rest, Bool.true_and, ← Bool.and_assoc,
      Text.allBlank, Text.allBlank, Text.allBlank, String.toList_append,
      List.all_append]

theorem textContents (h : Uncommented R ts ts') :
    Tree.textContents ts = Tree.textContents ts' := by
  induction h with
  | nil => rfl
  | keep content _ _ _ below rest =>
    rw [Tree.textContents, Tree.textContents, rest, Tree.textContent,
      Tree.textContent, content, below]
  | drop comment _ rest =>
    rw [Tree.textContents, Tree.textContent, comment, rest]
    exact String.empty_append
  | join first comment second joined _ _ _ rest =>
    rw [Tree.textContents, Tree.textContents, Tree.textContents,
      Tree.textContents, Tree.textContent, Tree.textContent, Tree.textContent,
      Tree.textContent, first, comment, second, joined, rest]
    show _ ++ ("" ++ _) = _
    rw [String.empty_append, String.append_assoc]

/-- Elements stay, each with its twin. -/
theorem elements (h : Uncommented R ts ts') :
    List.Forall₂ (Tree.Twin R) (ts.filter Tree.isElement)
      (ts'.filter Tree.isElement) := by
  induction h with
  | nil => exact .nil
  | @keep l l' ts ts' us us' content number below _ _ rest =>
    have twins : (Tree.node l ts).Twin R (.node l' ts') :=
      ⟨content, number, below⟩
    rw [List.filter_cons, List.filter_cons, twins.isElement]
    split
    · exact .cons twins rest
    · exact rest
  | @drop l c ts us us' comment _ rest =>
    rw [List.filter_cons, isElement_of_content comment rfl]
    exact rest
  | @join k l m k' s t c ks ls ms ks' us us' first comment second joined _ _ _
      rest =>
    rw [List.filter_cons, List.filter_cons, List.filter_cons, List.filter_cons,
      isElement_of_content first rfl, isElement_of_content comment rfl,
      isElement_of_content second rfl, isElement_of_content joined rfl]
    exact rest

end Uncommented

-- ---------------------------------------------------------------- sifting

/-- A kind of contents that comments are of, and a text just when both parts
of it are. -/
structure Passable (p : Content → Bool) : Prop where
  comment (c : String) : p (.comment c) = true
  text (s t : String) : p (.text (s ++ t)) = (p (.text s) && p (.text t))

theorem passable_insignificant : Passable Content.isInsignificant where
  comment _ := rfl
  text s t := by
    show Text.allBlank (s ++ t) = (Text.allBlank s && Text.allBlank t)
    unfold Text.allBlank
    rw [String.toList_append, List.all_append]

/-- What is done with a list of children looks for elements: it passes over
other children of one kind, and any other child settles it. -/
structure Sifts {α : Type} (p : Content → Bool) (settled : α)
    (f : List Tree → α) : Prop where
  pass {t : Tree} (ts : List Tree) : t.isElement = false →
    p t.content = true → f (t :: ts) = f ts
  settle {t : Tree} (ts : List Tree) : t.isElement = false →
    p t.content = false → f (t :: ts) = settled

/-- What looks for elements comes out alike for twins if it does so at the
elements, of which `G` holds. -/
theorem Uncommented.sift {α β : Type} {Q : α → β → Prop} {G : Tree → Prop}
    {p : Content → Bool} {settled : α} {settled' : β} {f : List Tree → α}
    {f' : List Tree → β} (hp : Passable p) (hf : Sifts p settled f)
    (hf' : Sifts p settled' f') (hsettled : Q settled settled')
    (hnil : Q (f []) (f' []))
    (hcons : ∀ t t' us us', G t → t.isElement = true → t.Twin R t' →
      Q (f us) (f' us') → Q (f (t :: us)) (f' (t' :: us')))
    (hG : ∀ t ∈ ts, G t) (h : Uncommented R ts ts') : Q (f ts) (f' ts') := by
  induction h with
  | nil => exact hnil
  | @keep l l' ts ts' us us' content number below _ _ rest =>
    obtain ⟨hfirst, hrest⟩ := List.forall_mem_cons.1 hG
    have twins : (Tree.node l ts).Twin R (.node l' ts') :=
      ⟨content, number, below⟩
    cases helement : (Tree.node l ts).isElement with
    | true => exact hcons _ _ _ _ hfirst helement twins (rest hrest)
    | false =>
      have helement' := twins.isElement.symm.trans helement
      have same : p l'.content = p l.content := congrArg p content.symm
      cases hpass : p l.content with
      | true =>
        rw [hf.pass us helement hpass, hf'.pass us' helement' (same.trans hpass)]
        exact rest hrest
      | false =>
        rw [hf.settle us helement hpass,
          hf'.settle us' helement' (same.trans hpass)]
        exact hsettled
  | @drop l c ts us us' comment _ rest =>
    have passes : p l.content = true := comment ▸ hp.comment c
    rw [hf.pass us (isElement_of_content comment rfl) passes]
    exact rest (List.forall_mem_cons.1 hG).2
  | @join k l m k' s t c ks ls ms ks' us us' first comment second joined _ _ _
      rest =>
    have passes : p l.content = true := comment ▸ hp.comment c
    have atJoined : p k'.content = (p k.content && p m.content) := by
      rw [first, second, joined, hp.text]
    have behind := rest fun t ht => hG t (by simp [ht])
    -- the joined text passes only if both texts do
    cases hpass : p k.content with
    | false =>
      rw [hpass, Bool.false_and] at atJoined
      rw [hf.settle _ (isElement_of_content first rfl) hpass,
        hf'.settle _ (isElement_of_content joined rfl) atJoined]
      exact hsettled
    | true =>
      rw [hpass, Bool.true_and] at atJoined
      rw [hf.pass _ (isElement_of_content first rfl) hpass,
        hf.pass _ (isElement_of_content comment rfl) passes]
      cases hpass' : p m.content with
      | false =>
        rw [hf.settle _ (isElement_of_content second rfl) hpass',
          hf'.settle _ (isElement_of_content joined rfl) (atJoined.trans hpass')]
        exact hsettled
      | true =>
        rw [hf.pass _ (isElement_of_content second rfl) hpass',
          hf'.pass _ (isElement_of_content joined rfl) (atJoined.trans hpass')]
        exact behind

theorem Tree.Twin.textContent (h : t.Twin R t') :
    t.textContent = t'.textContent := by
  obtain ⟨l, ts⟩ := t
  obtain ⟨l', ts'⟩ := t'
  have content : l.content = l'.content := h.content
  have below : Tree.textContents ts = Tree.textContents ts' :=
    h.below.textContents
  rw [Tree.textContent, Tree.textContent, content, below]

mutual

/-- Where no number changes, every tree is its own twin. -/
theorem Tree.Twin.refl (hR : ∀ i, R i i) : ∀ t : Tree, t.Twin R t
  | .node l ts => ⟨rfl, hR l.id, Uncommented.refl hR ts⟩

theorem Uncommented.refl (hR : ∀ i, R i i) : ∀ ts, Uncommented R ts ts
  | [] => .nil
  | t :: ts => .cons (Tree.Twin.refl hR t) (Uncommented.refl hR ts)

end

end

-- ==================================================================== nodes

namespace Node.Twin

variable {r : Renumbering} {m m' n n' : Node}

theorem content (h : n.Twin r n') : n.content = n'.content := h.tree.content

theorem element? (h : n.Twin r n') : n.element? = n'.element? :=
  congrArg Content.element? h.content

theorem isElement (h : n.Twin r n') : n.isElement = n'.isElement :=
  congrArg Option.isSome h.element?

theorem isInsignificant (h : n.Twin r n') :
    n.isInsignificant = n'.isInsignificant :=
  congrArg Content.isInsignificant h.content

theorem characters? (h : n.Twin r n') : n.characters? = n'.characters? :=
  congrArg Content.characters? h.content

theorem tag? (h : n.Twin r n') : n.tag? = n'.tag? := by
  unfold Node.tag?
  rw [h.element?]

theorem attributes (h : n.Twin r n') : n.attributes = n'.attributes := by
  unfold Node.attributes
  rw [h.element?]

theorem attribute? (h : n.Twin r n') (name : String) :
    n.attribute? name = n'.attribute? name := by
  unfold Node.attribute?
  rw [h.element?]

theorem attributeIn? (h : n.Twin r n') (uri localPart : String) :
    n.attributeIn? uri localPart = n'.attributeIn? uri localPart := by
  unfold Node.attributeIn?
  rw [h.element?]

theorem textContent (h : n.Twin r n') : n.textContent = n'.textContent :=
  h.tree.textContent

theorem isContentEmpty (h : n.Twin r n') :
    n.isContentEmpty = n'.isContentEmpty := by
  have below := h.tree.below.all_isInsignificant
  unfold Node.isContentEmpty Node.children
  rw [List.all_map, List.all_map]
  exact below

/-- Twins of trees in twins of nodes. -/
theorem under (h : n.Twin r n') {t t' : Tree}
    (ht : t.Twin (r.takes n.origin) t') : (n.below t).Twin r (n'.below t') :=
  ⟨h.origin, ht, .cons h.tree h.trail⟩

theorem childElements (h : n.Twin r n') :
    List.Forall₂ (Node.Twin r) n.childElements n'.childElements := by
  have elements (n : Node) : n.childElements
      = (n.tree.children.filter Tree.isElement).map n.below := by
    unfold Node.childElements Node.children
    rw [List.filter_map]
    rfl
  rw [elements, elements, List.forall₂_map_left_iff,
    List.forall₂_map_right_iff]
  exact h.tree.below.elements.imp fun _ _ ht => h.under ht

theorem lineage (h : n.Twin r n') :
    List.Forall₂ (fun m m' => m.content = m'.content) n.lineage n'.lineage := by
  have ancestors {o o' : Origin} {ts ts' : List Tree}
      (hts : List.Forall₂ (Tree.Twin (r.takes n.origin)) ts ts') :
      List.Forall₂ (fun m m' => m.content = m'.content) (onTrail o ts)
        (onTrail o' ts') := by
    induction hts with
    | nil => exact .nil
    | cons ht _ ih => exact .cons ht.content ih
  exact .cons h.content (ancestors h.trail)

/-- The same qualifiers stand for the same at both nodes. -/
theorem resolve? (h : n.Twin r n') (q : Option String) :
    n.resolve? q = n'.resolve? q := by
  have declared : n.lineage.findSome? (fun m => m.declared? q)
      = n'.lineage.findSome? (fun m => m.declared? q) := by
    refine findSome?_eq h.lineage fun m m' hm => ?_
    unfold Node.declared? Node.element?
    rw [hm]
  unfold Node.resolve?
  rw [declared]

/-- Nodes are the same where their twins are. -/
theorem same (h : m.Twin r m') (h' : n.Twin r n') : m.same n = m'.same n' := by
  unfold Node.same
  rw [← h.origin, ← h'.origin]
  by_cases ho : m.origin = n.origin
  · have takes := h'.tree.number
    rw [← ho] at takes
    have ids : (m.id == n.id) = (m'.id == n'.id) := by
      rw [Bool.eq_iff_iff, beq_iff_eq, beq_iff_eq]
      exact r.unique h.tree.number takes
    rw [ids]
  · have other : (m.origin == n.origin) = false := beq_eq_false_iff_ne.2 ho
    rw [other, Bool.false_and, Bool.false_and]

end Node.Twin

-- ================================================================ documents

namespace Document.Twin

variable {r : Renumbering} {d d' : Document}

theorem node (h : d.Twin r d') : d.node.Twin r d'.node :=
  ⟨h.origin, h.root, .nil⟩

theorem rootElement? (h : d.Twin r d') :
    Option.Rel (Node.Twin r) d.rootElement? d'.rootElement? := by
  have first (d : Document) : d.rootElement? = d.node.childElements.head? :=
    (List.head?_filter ..).symm
  have elements := h.node.childElements
  rw [first, first]
  generalize d.node.childElements = ns at elements ⊢
  generalize d'.node.childElements = ns' at elements ⊢
  cases elements with
  | nil => exact .none
  | cons hn _ => exact .some hn

end Document.Twin

-- ================================================================== numbers

/-- The pairs of numbers of the nodes that stay. -/
theorem Uncommented.exists_pairs {ts ts' : List Tree}
    (h : Uncommented (fun _ _ => True) ts ts') :
    ∃ pairs : List (Nat × Nat),
      Uncommented (fun i j => (i, j) ∈ pairs) ts ts'
        ∧ (pairs.map Prod.fst).Sublist (Tree.numbers (Tree.preorders ts))
        ∧ (pairs.map Prod.snd).Sublist (Tree.numbers (Tree.preorders ts')) := by
  have numbers (l : Label) (ts us : List Tree) :
      Tree.numbers (Tree.preorders (.node l ts :: us))
        = l.id :: (Tree.numbers (Tree.preorders ts)
          ++ Tree.numbers (Tree.preorders us)) := by
    rw [Tree.preorders, Tree.preorder, List.cons_append, ← Tree.numbers_append]
    rfl
  -- what is dropped takes its numbers along, so those left are a sublist
  have skip (l : Label) (ts us : List Tree) :
      (Tree.numbers (Tree.preorders us)).Sublist
        (Tree.numbers (Tree.preorders (.node l ts :: us))) := by
    rw [numbers]
    exact (List.sublist_append_right _ _).cons _
  induction h with
  | nil => exact ⟨[], .nil, .slnil, .slnil⟩
  | @keep l l' ts ts' us us' content _ _ _ below rest =>
    obtain ⟨ps, hps, hleft, hright⟩ := below
    obtain ⟨qs, hqs, hleft', hright'⟩ := rest
    refine ⟨(l.id, l'.id) :: (ps ++ qs), ?_, ?_, ?_⟩
    · refine .keep content List.mem_cons_self (hps.mono fun i j hij => ?_)
        (hqs.mono fun i j hij => ?_)
      · exact List.mem_cons_of_mem _ (List.mem_append_left _ hij)
      · exact List.mem_cons_of_mem _ (List.mem_append_right _ hij)
    · rw [numbers, List.map_cons, List.map_append]
      exact (hleft.append hleft').cons_cons _
    · rw [numbers, List.map_cons, List.map_append]
      exact (hright.append hright').cons_cons _
  | @drop l c ts us us' comment _ rest =>
    obtain ⟨ps, hps, hleft, hright⟩ := rest
    exact ⟨ps, .drop comment hps, hleft.trans (skip ..), hright⟩
  | @join k l m k' s t c ks ls ms ks' us us' first comment second joined verbatim
      verbatim' _ rest =>
    obtain ⟨ps, hps, hleft, hright⟩ := rest
    refine ⟨ps, .join first comment second joined verbatim verbatim' hps, ?_, ?_⟩
    · exact ((hleft.trans (skip ..)).trans (skip ..)).trans (skip ..)
    · exact hright.trans (skip ..)

/-- The trees that stay are twins. -/
theorem Uncommented.twin {R : Nat → Nat → Prop} {t t' : Tree}
    (h : Uncommented R [t] [t']) : t.Twin R t' := by
  cases h with
  | keep content number below _ => exact ⟨content, number, below⟩
  | drop _ rest => cases rest

/-- Editions that are numbered in document order are twins by a renumbering
that leaves all other documents alone. -/
theorem exists_renumbering {d d' : Document} (horigin : d.origin = d'.origin)
    (hd : d.root.Numbered) (hd' : d'.root.Numbered)
    (h : d.root.Twin (fun _ _ => True) d'.root) :
    ∃ r : Renumbering, d.Twin r d' ∧
      ∀ o ≠ d.origin, ∀ t : Tree, t.Twin (r.takes o) t := by
  obtain ⟨pairs, hpairs, hleft, hright⟩ :=
    (Uncommented.cons h .nil).exists_pairs
  have alone (t : Tree) : Tree.preorders [t] = t.preorder :=
    List.append_nil _
  rw [alone] at hleft hright
  -- no number is met twice, so a pair is known by either of its numbers
  have once := hleft.nodup hd.nodup
  have once' := hright.nodup hd'.nodup
  let takes (o : Origin) (i j : Nat) : Prop :=
    if o = d.origin then (i, j) ∈ pairs else i = j
  have unique {o : Origin} {i i' j j' : Nat} (hi : takes o i i')
      (hj : takes o j j') : i = j ↔ i' = j' := by
    by_cases ho : o = d.origin
    · simp only [takes, if_pos ho] at hi hj
      constructor
      · intro hij
        exact congrArg Prod.snd (List.inj_on_of_nodup_map once hi hj hij)
      · intro hij
        exact congrArg Prod.fst (List.inj_on_of_nodup_map once' hi hj hij)
    · simp only [takes, if_neg ho] at hi hj
      rw [hi, hj]
  refine ⟨⟨takes, unique⟩, ⟨horigin, ?_⟩, fun o ho => .refl fun i => ?_⟩
  · refine (hpairs.mono fun i j hij => ?_).twin
    simp only [takes, if_pos]
    exact hij
  · simp only [takes, if_neg ho]

end Stencil.Markup
