/-
Namespaces of a parsed document.

What a qualifier stands for is a matter of the declarations around it, nearest
first, so an element has its namespaces from its name, its attributes and that
context alone (`elementOf?`). The builder gives every element just these, and
keeps character data inside the root element.
-/
import Stencil.Proofs.Markup.Flattening
import Stencil.Proofs.Markup.Tags

namespace Stencil.Markup

-- ============================================================== namespaces

/-- The declarations of the elements around a place, nearest first. -/
abbrev Context := List Declarations

/-- The namespace of a qualifier: the nearest declaration decides, and an
empty URI is none. -/
def uriOf? (ctx : Context) (q : Option String) : Option String :=
  if q = some "xml" then some xmlUri
  else
    (ctx.findSome? fun ds => ds.find? q).filter fun uri => !uri.isEmpty

/-- An attribute with its namespace, where the declarations of its own element
are the nearest. -/
def qualified? (ctx : Context) (a : String × String) : Option Attribute :=
  let name := Name.ofText a.1
  if a.1 = "xmlns" || name.qualifier = some "xmlns" then
    some ⟨name, some declarationUri, a.2⟩
  else
    match name.qualifier with
    | none => some ⟨name, none, a.2⟩
    | some q => (uriOf? ctx (some q)).map fun uri => ⟨name, some uri, a.2⟩

theorem name_of_qualified? {ctx : Context} {a : Attribute}
    {b : String × String} (h : qualified? ctx b = some a) :
    a.name = Name.ofText b.1 := by
  unfold qualified? at h
  dsimp only at h
  split at h
  · cases h
    rfl
  · split at h
    · cases h
      rfl
    · obtain ⟨uri, -, rfl⟩ := Option.map_eq_some_iff.1 h
      rfl

/-- The element of a name and attributes in a context, if all qualifiers stand
for something. -/
def elementOf? (ctx : Context) (name : String) (raw : List (String × String)) :
    Option Element :=
  let own := raw.filterMap Builder.declaration?
  let name := Name.ofText name
  let uri := uriOf? (own :: ctx) name.qualifier
  if name.qualifier.isSome && uri.isNone then none
  else
    (raw.mapM (qualified? (own :: ctx))).map fun attributes =>
      ⟨name, uri, attributes, own⟩

/-- What some attributes declare. -/
def declared (raw : List (String × String)) : Declarations :=
  raw.filterMap Builder.declaration?

/-- What an element has from its name, its attributes and its context. -/
theorem elementOf?_eq_some {ctx : Context} {name : String}
    {raw : List (String × String)} {e : Element}
    (h : elementOf? ctx name raw = some e) :
    e.name = Name.ofText name
      ∧ e.declarations = declared raw
      ∧ e.uri = uriOf? (declared raw :: ctx) e.name.qualifier
      ∧ (e.name.qualifier.isSome → e.uri.isSome)
      ∧ raw.mapM (qualified? (declared raw :: ctx)) = some e.attributes := by
  unfold elementOf? at h
  dsimp only at h
  split at h
  · cases h
  · next hbound =>
    obtain ⟨attributes, hall, rfl⟩ := Option.map_eq_some_iff.1 h
    refine ⟨rfl, rfl, rfl, fun hq => ?_, hall⟩
    dsimp only at hq ⊢
    simpa [hq, Option.isSome_iff_ne_none] using hbound

/-- The declarations of an element are those of its attributes. -/
theorem declarations_of_elementOf? {ctx : Context} {name : String}
    {raw : List (String × String)} {e : Element}
    (h : elementOf? ctx name raw = some e) :
    e.declarations = declared raw ∧ e.name.text = name := by
  obtain ⟨hname, hdeclared, -⟩ := elementOf?_eq_some h
  exact ⟨hdeclared, hname ▸ Name.ofText_text name⟩

/-- The attributes of an element as they are written. -/
def Element.raw (e : Element) : List (String × String) :=
  e.attributes.map fun a => (a.name.text, a.value)

namespace Builder

variable {b b' : Builder} {place : Location}

/-- The declarations around what comes next. -/
def context (b : Builder) : Context :=
  (b.current :: b.outer).map Frame.declarations

theorem resolve?_eq (own : Declarations) (q : Option String) :
    b.resolve? own q = uriOf? (own :: b.context) q := rfl

theorem qualify_eq (own : Declarations) (a : String × String) :
    (b.qualify own place a).toOption = qualified? (own :: b.context) a := by
  unfold qualify qualified?
  dsimp only
  split
  · rfl
  · cases (Name.ofText a.1).qualifier with
    | none => rfl
    | some q =>
      dsimp only
      rw [resolve?_eq]
      cases uriOf? (own :: b.context) (some q) <;> rfl

theorem toOption_mapM {ε α β : Type} (f : α → Except ε β) (as : List α) :
    (as.mapM f).toOption = as.mapM fun a => (f a).toOption := by
  induction as with
  | nil => rfl
  | cons a as ih =>
    rw [List.mapM_cons, List.mapM_cons, ← ih]
    cases f a with
    | error e => rfl
    | ok b => cases as.mapM f <;> rfl

/-- The element of a tag is that of its name and its attributes. -/
theorem element_eq (tag : List Char) :
    (b.element place tag).toOption
      = (readAttributes tag).toOption.bind
          (elementOf? b.context (String.ofList (tagName tag))) := by
  unfold element
  cases readAttributes tag with
  | error fault => rfl
  | ok raw =>
    have hall := toOption_mapM (b.qualify (raw.filterMap declaration?) place) raw
    simp only [qualify_eq] at hall
    simp only [Except.mapError, bind, Except.bind, Except.toOption,
      Option.bind_some, resolve?_eq, elementOf?]
    rw [← hall]
    generalize (Name.ofText (String.ofList (tagName tag))).qualifier = q
    generalize uriOf? _ q = uri
    cases q <;> cases uri <;>
      cases raw.mapM (b.qualify (raw.filterMap declaration?) place) <;> rfl

end Builder

-- ==================================================================== trees

/-- The element has the namespaces that its names have in a context. -/
structure Element.Resolved (ctx : Context) (e : Element) : Prop where
  resolved : elementOf? ctx e.name.text e.raw = some e
  distinct : (e.raw.map Prod.fst).Nodup

theorem eq_some_of_mapM {α β : Type} {f : β → Option α} {g : α → β} {as : List α}
    (h : (as.map g).mapM f = some as) : ∀ a ∈ as, f (g a) = some a := by
  induction as with
  | nil => exact nofun
  | cons a as ih =>
    rw [List.map_cons, List.mapM_cons] at h
    obtain ⟨b, hb, h⟩ := Option.bind_eq_some_iff.1 h
    obtain ⟨bs, hbs, h⟩ := Option.bind_eq_some_iff.1 h
    cases h
    exact List.forall_mem_cons.2 ⟨hb, ih hbs⟩

/-- Every attribute has the namespace that its name has on the element. -/
theorem Element.Resolved.attribute {ctx : Context} {e : Element}
    (h : e.Resolved ctx) {a : Attribute} (ha : a ∈ e.attributes) :
    qualified? (declared e.raw :: ctx) (a.name.text, a.value) = some a :=
  have ⟨_, _, _, _, hall⟩ := elementOf?_eq_some h.resolved
  eq_some_of_mapM hall a ha

mutual

/-- All elements of a tree have the namespaces that their names have where
they stand. -/
def Tree.Resolved (ctx : Context) : Tree → Prop
  | .node label ts =>
    match label.content with
    | .document => Tree.AllResolved ([] :: ctx) ts
    | .element e => e.Resolved ctx ∧ Tree.AllResolved (e.declarations :: ctx) ts
    | _ => True

def Tree.AllResolved (ctx : Context) : List Tree → Prop
  | [] => True
  | t :: ts => t.Resolved ctx ∧ Tree.AllResolved ctx ts

end

theorem Tree.allResolved_iff {ctx : Context} {ts : List Tree} :
    Tree.AllResolved ctx ts ↔ ∀ t ∈ ts, t.Resolved ctx := by
  induction ts with
  | nil => exact iff_of_true trivial nofun
  | cons t ts ih => rw [Tree.AllResolved, ih, List.forall_mem_cons]

/-- A document's children are no character data. -/
def Content.Outside (parent child : Content) : Prop :=
  parent = .document → child.characters? = none

mutual

/-- An element of a tree has the namespaces of its names somewhere. -/
theorem exists_resolved : ∀ (ctx : Context) (t : Tree), t.Tidy →
    t.Resolved ctx → ∀ u ∈ t.preorder, ∀ e, u.content = .element e →
    ∃ ctx, e.Resolved ctx
  | ctx, .node ⟨id, place, content⟩ ts, htidy, h, u, hu, e, he => by
    obtain ⟨horderly, hbelow⟩ := Tree.tidy_node.1 htidy
    rcases List.mem_cons.1 hu with rfl | hin
    · cases he
      exact ⟨ctx, h.1⟩
    · rcases horderly.leaf with hc | hc | hc
      · cases hc
        exact exists_allResolved ([] :: ctx) ts hbelow h u hin e he
      · cases content with
        | element e' =>
          exact exists_allResolved (e'.declarations :: ctx) ts hbelow h.2 u hin e
            he
        | _ => cases hc
      · cases hc
        cases hin
termination_by structural _ t => t

theorem exists_allResolved : ∀ (ctx : Context) (ts : List Tree),
    (∀ t ∈ ts, t.Tidy) → Tree.AllResolved ctx ts →
    ∀ u ∈ Tree.preorders ts, ∀ e, u.content = .element e →
    ∃ ctx, e.Resolved ctx
  | _, [], _, _, _, hu, _, _ => absurd hu List.not_mem_nil
  | ctx, t :: ts, htidy, ⟨ht, hts⟩, u, hu, e, he => by
    obtain ⟨hfirst, hrest⟩ := List.forall_mem_cons.1 htidy
    rcases List.mem_append.1 hu with hu | hu
    · exact exists_resolved ctx t hfirst ht u hu e he
    · exact exists_allResolved ctx ts hrest hts u hu e he
termination_by structural _ ts => ts

end

-- =================================================================== frames

/-- An open frame in the context of those around it. -/
structure Frame.Resolved (ctx : Context) (f : Frame) : Prop where
  self : ∀ e, f.label.content = .element e → e.Resolved ctx
  below : ∀ t ∈ f.children, t.Resolved (f.declarations :: ctx)
  outside : ∀ t ∈ f.children, f.label.content.Outside t.content

namespace Frame.Resolved

variable {ctx : Context} {f : Frame}

theorem push (h : f.Resolved ctx) {t : Tree}
    (ht : t.Resolved (f.declarations :: ctx))
    (hout : f.label.content.Outside t.content) : (f.push t).Resolved ctx where
  self := h.self
  below := List.forall_mem_cons.2 ⟨ht, h.below⟩
  outside := List.forall_mem_cons.2 ⟨hout, h.outside⟩

/-- The tree of a frame that is finished. -/
theorem close (h : f.Resolved ctx)
    (hf : f.label.content = .document ∨ ∃ e, f.label.content = .element e) :
    f.close.Resolved ctx := by
  have hbelow : Tree.AllResolved (f.declarations :: ctx) f.children.reverse :=
    Tree.allResolved_iff.2 fun t ht => h.below t (List.mem_reverse.1 ht)
  unfold Frame.declarations at hbelow
  unfold Frame.close Tree.Resolved
  rcases hf with hf | ⟨e, hf⟩
  · rw [hf] at hbelow ⊢
    exact hbelow
  · rw [hf] at hbelow ⊢
    exact ⟨h.self e hf, hbelow⟩

end Frame.Resolved

/-- Frames, innermost first. -/
def FramesResolved : List Frame → Prop
  | [] => True
  | f :: fs => f.Resolved (fs.map Frame.declarations) ∧ FramesResolved fs

namespace Builder

variable {b b' : Builder} {place : Location}

/-- An element that is begun is that of its own name and attributes, no two of
which have one name. -/
theorem element_resolved {tag : List Char} {e : Element}
    (h : b.element place tag = .ok e) :
    e.Resolved b.context := by
  obtain ⟨hraw, hname⟩ := element_ok h
  have helement : (b.element place tag).toOption = _ := b.element_eq tag
  rw [h, hraw, ← hname] at helement
  refine ⟨helement.symm, ?_⟩
  cases hread : readAttributes tag with
  | error fault =>
    rw [hread] at hraw
    cases hraw
  | ok raw =>
    rw [hread] at hraw
    have hraw : raw = e.raw := Option.some.inj hraw
    rw [← hraw]
    exact readAttributes_distinct hread

/-- All that has begun has the namespaces it has where it stands. -/
def Resolved (b : Builder) : Prop := FramesResolved (b.current :: b.outer)

theorem resolved_start : start.Resolved :=
  ⟨⟨nofun, nofun, nofun⟩, trivial⟩

theorem Resolved.leaf (h : b.Resolved) {content : Content}
    (ht : (Tree.node ⟨b.next, place, content⟩ []).Resolved b.context)
    (hout : b.current.label.content.Outside content) :
    (b.leaf place content).Resolved :=
  ⟨h.1.push ht hout, h.2⟩

/-- Within an element anything may stand. -/
theorem outside_of_inside (hs : b.Sound) (htop : b.atTop = false)
    (content : Content) : b.current.label.content.Outside content := by
  intro hd
  have hstacked := hs.stacked
  unfold atTop at htop
  cases houter : b.outer with
  | nil =>
    rw [houter] at htop
    cases htop
  | cons f fs =>
    rw [houter] at hstacked
    have hopen : b.current.close.isElement = true := by
      cases hstacked with
      | root hf _ _ => exact hf
      | inner hf _ => exact hf
    unfold Tree.isElement Tree.content at hopen
    rw [show b.current.close.label = b.current.label from rfl, hd] at hopen
    cases hopen

theorem Resolved.addText (h : b.Resolved) (hs : b.Sound)
    (htop : b.atTop = false) (s : String) : (b.addText place s).Resolved := by
  have hout := outside_of_inside hs htop
  rcases addText_cases b place s with
    ⟨id, first, t, ts, rest, hc, heq⟩ | ⟨-, heq⟩
  · rw [heq]
    obtain ⟨⟨label, children⟩, outer, next⟩ := b
    cases hc
    obtain ⟨⟨hself, hbelow, houtside⟩, houter⟩ := h
    obtain ⟨-, hbelow⟩ := List.forall_mem_cons.1 hbelow
    obtain ⟨-, houtside⟩ := List.forall_mem_cons.1 houtside
    exact ⟨Frame.Resolved.push (f := ⟨label, rest⟩) ⟨hself, hbelow, houtside⟩
      trivial (hout _), houter⟩
  · rw [heq]
    exact h.leaf trivial (hout _)

theorem Resolved.text (h : b.Resolved) (hs : b.Sound) {s : String}
    (ht : b.text place s = .ok b') : b'.Resolved := by
  rcases text_cases ht with ⟨-, rfl⟩ | ⟨-, -, rfl⟩ | ⟨-, htop, rfl⟩
  · exact h
  · exact h
  · exact h.addText hs htop s

/-- One event. -/
theorem Resolved.fed (h : b.Resolved) (hs : b.Sound) {e : Event}
    (hf : Fed b place e b') : b'.Resolved := by
  cases hf with
  | opened _ he =>
    refine ⟨⟨fun e' he' => ?_, nofun, nofun⟩, h⟩
    cases he'
    exact element_resolved he
  | empty _ he =>
    exact h.leaf ⟨element_resolved he, trivial⟩ fun _ => rfl
  | closed he hf =>
    obtain ⟨current, outer, next⟩ := b
    cases hf
    obtain ⟨hcurrent, hf, houter⟩ := h
    have hclosed := hcurrent.close (.inr ⟨_, he⟩)
    refine ⟨hf.push hclosed fun _ => ?_, houter⟩
    show current.label.content.characters? = none
    rw [he]
    rfl
  | text ht => exact h.text hs ht
  | reference _ ht => exact h.text hs ht
  | cdata htop => exact h.leaf trivial (outside_of_inside hs htop _)
  | comment => exact h.leaf trivial fun _ => rfl
  | instruction => exact h.leaf trivial fun _ => rfl

theorem Resolved.run (h : b.Resolved) (hs : b.Sound) {starts : List Nat}
    {es : List Placed} (hr : b.run starts es = .ok b') : b'.Resolved := by
  induction es generalizing b with
  | nil =>
    cases hr
    exact h
  | cons e es ih =>
    obtain ⟨b₁, hf, hr⟩ := run_cons hr
    exact ih (h.fed hs hf) (hs.fed hf) hr

end Builder

/-- In a document that is parsed every element has the namespaces that its
names have where it stands, and no character data stands outside the root
element. -/
theorem Tree.resolved_of_parse {source : List Char} {t : Tree}
    (h : Tree.parse source = .ok t) :
    t.Resolved [] ∧ ∀ u ∈ t.children, u.content.characters? = none := by
  obtain ⟨-, b, hr, hf⟩ := parse_ok h
  have hdocument := (Tree.built_of_finish (Builder.sound_start.run hr) hf).content
  obtain ⟨houter, -, rfl⟩ := Builder.finish_ok hf
  have hresolved := Builder.resolved_start.run Builder.sound_start hr
  unfold Builder.Resolved at hresolved
  rw [houter] at hresolved
  refine ⟨hresolved.1.close (.inl hdocument), fun u hu => ?_⟩
  exact hresolved.1.outside u (List.mem_reverse.1 hu) hdocument

/-- The children of a document that is parsed. -/
theorem Tree.children_of_parse {source : List Char} {t : Tree}
    (h : Tree.parse source = .ok t) :
    ∃ id place ts, t = .node ⟨id, place, .document⟩ ts ∧ (∀ u ∈ ts, u.Tidy)
      ∧ (∀ u ∈ ts, u.content ≠ .document) ∧ Tree.AllResolved [[]] ts := by
  have hbuilt := Tree.built_of_parse h
  have hresolved := (Tree.resolved_of_parse h).1
  have hdocument := hbuilt.content
  have htidy := hbuilt.tidy
  obtain ⟨⟨id, place, content⟩, ts⟩ := t
  cases hdocument
  obtain ⟨horderly, hbelow⟩ := Tree.tidy_node.1 htidy
  exact ⟨id, place, ts, rfl, hbelow, horderly.below, hresolved⟩

/-- An element of a document that is parsed is that of its name and its
attributes in some context. -/
theorem Tree.exists_resolved_of_parse {source : List Char} {t u : Tree}
    (h : Tree.parse source = .ok t) (hu : u ∈ t.preorder) {e : Element}
    (he : u.content = .element e) : ∃ ctx, e.Resolved ctx :=
  exists_resolved [] t (built_of_parse h).tidy (resolved_of_parse h).1 u hu e he

-- ========================================================== the root element

/-- A comment or an instruction. -/
def Content.IsRemark (c : Content) : Prop :=
  (∃ s, c = .comment s) ∨ ∃ target data, c = .instruction target data

/-- The children of a document that is parsed are its root element, and
comments and instructions around it. -/
theorem Tree.root_of_parse {source : List Char} {t : Tree}
    (h : Tree.parse source = .ok t) :
    ∃ before root after, t.children = before ++ root :: after
      ∧ root.isElement = true ∧ ∀ u ∈ before ++ after, u.content.IsRemark := by
  have hbuilt := built_of_parse h
  have houtside := (resolved_of_parse h).2
  have hbelow := (hbuilt.tidy t (by cases t; exact List.mem_cons_self)).below
  have hcount := hbuilt.root
  obtain ⟨root, hmem, hroot⟩ :=
    List.countP_pos_iff.1 (hcount ▸ Nat.zero_lt_one)
  obtain ⟨before, after, hsplit⟩ := List.append_of_mem hmem
  refine ⟨before, root, after, hsplit, hroot, fun u hu => ?_⟩
  -- there is one element among the children, and it is the root
  have hnone : (before ++ after).countP isElement = 0 := by
    rw [hsplit, List.countP_append, List.countP_cons_of_pos hroot] at hcount
    rw [List.countP_append]
    omega
  have hother : u.isElement ≠ true := List.countP_eq_zero.1 hnone u hu
  have hchild : u ∈ t.children := by
    rw [hsplit]
    rcases List.mem_append.1 hu with hu | hu
    · exact List.mem_append_left _ hu
    · exact List.mem_append_right _ (List.mem_cons_of_mem _ hu)
  have hsilent := houtside u hchild
  have hdocument := hbelow u hchild
  unfold isElement at hother
  generalize u.content = c at hother hsilent hdocument ⊢
  cases c with
  | document => exact absurd rfl hdocument
  | element e => exact absurd rfl hother
  | text s => cases hsilent
  | cdata s => cases hsilent
  | comment s => exact .inl ⟨s, rfl⟩
  | instruction target data => exact .inr ⟨target, data, rfl⟩

theorem Document.rootElement?_eq {d : Document} {root : Tree}
    (h : d.root.children.find? Tree.isElement = some root) :
    d.rootElement? = some (d.node.below root) := by
  unfold rootElement? Node.children
  rw [List.find?_map]
  show (d.root.children.find? Tree.isElement).map d.node.below = _
  rw [h]
  rfl

end Stencil.Markup
