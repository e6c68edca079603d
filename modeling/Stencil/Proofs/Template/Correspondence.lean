/-
Relations between runs at nodes that are like each other.

Two runs are compared by a relation, perhaps of different outputs and on
different documents. If the relation holds of the single steps (reading,
sending, binding, loading) and survives the ways in which steps are put together
(one after another, in a scope, inside an inclusion or a call, between the two
ends of an element), it holds of whole templates:
`Matching.Congruence.execute`. The induction over the interpreter is made here,
once and for all.

Which nodes may stand for each other is for `N` to say. Where the contents of an
element are trimmed, its children have to correspond one by one; elsewhere it is
enough that the macros among them do, and the others (`Descends`). `U` is what
is known of the addresses that documents are loaded from: of the base of the
outermost scope, and hence of every address that is resolved against it. Only
the intercepts of a copy carry runs, so they are compared one by one.
-/
import Stencil.Proofs.Template.Matching
import Stencil.Proofs.Template.Passes

namespace Stencil.Template

open Stencil.Expr (Value)
open Markup (Document Node Origin Tree)

variable {σ τ : Type}

-- ============================================================ nodes below

/-- A directive that has contents of its own; those are trimmed. -/
def Directed (uri : String) (n : Node) : Prop :=
  ∃ d, Directive.ofNode? uri n = some d ∧ d ≠ .template

/-- The node defines a macro. -/
def isMacro (uri : String) (n : Node) : Bool :=
  Directive.ofNode? uri n = some .definition

/-- Nodes that are alike with all their children, one by one. -/
structure Wholly (N : Node → Node → Prop) (n n' : Node) : Prop where
  node : N n n'
  children : List.Forall₂ N n.children n'.children

/-- What is below nodes that are alike is so too: the macros among their
children and the others, and all the children of a directive. -/
structure Descends (uri : String) (N : Node → Node → Prop) : Prop where
  macros {n n' : Node} (h : N n n') :
    List.Forall₂ N (n.children.filter (isMacro uri))
      (n'.children.filter (isMacro uri))
  others {n n' : Node} (h : N n n') :
    List.Forall₂ N (n.children.filter fun child => !isMacro uri child)
      (n'.children.filter fun child => !isMacro uri child)
  wholly {n n' : Node} (h : N n n') (directed : Directed uri n) : Wholly N n n'

theorem isMacro_eq {N : Node → Node → Prop} [Likeness N] {n n' : Node}
    (h : N n n') (uri : String) : isMacro uri n = isMacro uri n' := by
  unfold isMacro
  rw [Likeness.ofNode? h]

/-- It is enough that all children are alike, one by one. -/
theorem Descends.of_children {N : Node → Node → Prop} [Likeness N]
    (uri : String)
    (h : ∀ n n', N n n' → List.Forall₂ N n.children n'.children) :
    Descends uri N where
  macros hn := List.rel_filter
    (fun _ _ hm => iff_of_eq (congrArg (· = true) (isMacro_eq hm uri)))
    (h _ _ hn)
  others hn := List.rel_filter
    (fun _ _ hm =>
      iff_of_eq (congrArg (fun b => (!b) = true) (isMacro_eq hm uri)))
    (h _ _ hn)
  wholly hn _ := ⟨hn, h _ _ hn⟩

/-- Trees that are alike at their places, one by one. -/
def Abreast (N : Node → Node → Prop) (origin origin' : Origin)
    (trail trail' : List Tree) : List Tree → List Tree → Prop :=
  List.Forall₂ fun tree tree' =>
    N ⟨origin, tree, trail⟩ ⟨origin', tree', trail'⟩

section

variable {N : Node → Node → Prop} {origin origin' : Origin}
  {trail trail' ts ts' : List Tree}

theorem abreast_of_children {label label' : Markup.Label}
    (h : List.Forall₂ N (Node.children ⟨origin, .node label ts, trail⟩)
      (Node.children ⟨origin', .node label' ts', trail'⟩)) :
    Abreast N origin origin' (.node label ts :: trail)
      (.node label' ts' :: trail') ts ts' := by
  unfold Node.children at h
  rw [List.forall₂_map_left_iff, List.forall₂_map_right_iff] at h
  exact h

theorem all_insignificant [Likeness N]
    (h : Abreast N origin origin' trail trail' ts ts') :
    ts.all Tree.isInsignificant = ts'.all Tree.isInsignificant := by
  induction h with
  | nil => rfl
  | @cons tree tree' _ _ hn _ ih =>
    have same : tree.isInsignificant = tree'.isInsignificant :=
      Likeness.isInsignificant hn
    rw [List.all_cons, List.all_cons, ih, same]

end

-- ======================================================== what is looked at

/-- Documents whose roots are alike, or the same error. -/
inductive LoadedAlike (N : Node → Node → Prop) :
    Except Loading.Error Document → Except Loading.Error Document → Prop
  | ok {d d' : Document}
    (root : Option.Rel N d.rootElement? d'.rootElement?) :
    LoadedAlike N (.ok d) (.ok d')
  | error (e : Loading.Error) : LoadedAlike N (.error e) (.error e)

/-- What is loaded is like itself, if every node is. -/
theorem loadedAlike_same {N : Node → Node → Prop} (same : ∀ n, N n n)
    (d : Except Loading.Error Document) : LoadedAlike N d d := by
  cases d with
  | error e => exact .error e
  | ok d =>
    refine .ok ?_
    cases d.rootElement? with
    | none => exact .none
    | some n => exact .some (same n)

/-- What the interpreter sees of scopes, apart from what is read: the same
base, and macros that are alike. -/
structure SeenAlike (N : Node → Node → Prop) (U : Url → Prop)
    (scopes scopes' : Scopes) : Prop where
  base : scopes.base = scopes'.base
  known : ∀ b ∈ scopes.base, U b
  defined? (name : String) :
    Option.Rel (Wholly N) (scopes.defined? name) (scopes'.defined? name)

/-- To process a tree as a body is to process its contents trimmed. -/
theorem body_eq_contents (s : Settings σ) (inner : Option (Inner σ))
    (origin : Origin) (trail : List Tree) (tree : Tree) :
    body s inner origin trail tree
      = contents s inner true ⟨origin, tree, trail⟩ := by
  cases tree
  rfl

namespace Matching

-- =============================================================== relations

/-- A relation that survives sequencing and holds of bindings. -/
structure Sequential (N : Node → Node → Prop)
    (R : Run σ Unit → Run τ Unit → Prop) : Prop where
  skip : R (pure ()) (pure ())
  seq {x y : Run σ Unit} {x' y' : Run τ Unit} : R x x' → R y y' →
    R (x >>= fun _ => y) (x' >>= fun _ => y')
  binding {n n' : Node} (h : N n n') (name : String) (v : Value) :
    R (bindVariable n name v) (bindVariable n' name v)

/-- A relation that single steps keep, between runs by two settings. -/
structure Stepwise (N : Node → Node → Prop) (U : Url → Prop)
    (s : Settings σ) (t : Settings τ) (R : Run σ Unit → Run τ Unit → Prop) :
    Prop extends Sequential N R where
  uri : s.uri = t.uri
  same (n : Node) : N n n
  descends : Descends s.uri N
  fault {d d' : Diagnostic} : d.Matches N d' → R (fail d) (fail d')
  reading {α β : Type} {Q : α → β → Prop} {r : Reading α} {r' : Reading β}
    {f : α → Run σ Unit} {f' : β → Run τ Unit} :
    ReadAlike N Q r r' → (∀ a b, Q a b → R (f a) (f' b)) →
    R (read r >>= f) (read r' >>= f')
  state {f : Machine σ → Run σ Unit} {f' : Machine τ → Run τ Unit} :
    (∀ m m', SeenAlike N U m.scopes m'.scopes → R (f m) (f' m')) →
    R (get >>= f) (get >>= f')
  resolved {base : Option Url} {href : String} {url : Url} :
    (∀ b ∈ base, U b) → Loading.resolveHref base href = .ok url → U url
  loading {f : Except Loading.Error Document → Run σ Unit}
    {f' : Except Loading.Error Document → Run τ Unit} {url : Url} : U url →
    (∀ d d', LoadedAlike N d d' → R (f d) (f' d')) →
    R (load s url >>= f) (load t url >>= f')
  definition {n n' : Node} (h : Wholly N n n') (name : String) :
    R (onScope n (·.define name n)) (onScope n' (·.define name n'))
  characters (data : String) :
    R (send s (.characters data)) (send t (.characters data))
  cdata (data : String) :
    R (sendAll s (Template.cdata data)) (sendAll t (Template.cdata data))
  doctype (name : String) (publicId systemId : Option String) :
    R (sendAll s [.startDoctype name publicId systemId, .endDoctype])
      (sendAll t [.startDoctype name publicId systemId, .endDoctype])

/-- A relation that also survives the ways in which steps are put together. -/
structure Congruence (N : Node → Node → Prop) (U : Url → Prop)
    (s : Settings σ) (t : Settings τ) (R : Run σ Unit → Run τ Unit → Prop) :
    Prop extends Stepwise N U s t R where
  enclosed {x : Run σ Unit} {x' : Run τ Unit} (name : Output.ElementName)
    (attributes : List (String × String)) : R x x' →
    R (do send s (.start name attributes); x; send s (.stop name))
      (do send t (.start name attributes); x'; send t (.stop name))
  inScope {x : Run σ Unit} {x' : Run τ Unit} {anchor anchor' : Node}
    (h : N anchor anchor') : R x x' →
    R (Template.inScope anchor x) (Template.inScope anchor' x')
  nested {x : Run σ Unit} {x' : Run τ Unit} : R x x' →
    R (Template.nested x) (Template.nested x')
  rebased {x : Run σ Unit} {x' : Run τ Unit} {root root' : Node} {url : Url}
    (h : N root root') (hu : U url) : R x x' →
    R (Template.inScope root do setBase (some url); x)
      (Template.inScope root' do setBase (some url); x')
  floating {x : Run σ Unit} {x' : Run τ Unit} {n n' : Node}
    (h : N n n') (name : Option String) (r : Range Float) : R x x' →
    R (runFloat s n name r x) (runFloat t n' name r x')

/-- What is open on both sides runs alike. -/
structure InnerAlike (N : Node → Node → Prop)
    (R : Run σ Unit → Run τ Unit → Prop) (inner : Inner σ) (inner' : Inner τ) :
    Prop where
  execute {n n' : Node} : N n n' →
    R (inner.execute n) (inner'.execute n')
  expand {n n' : Node} : Wholly N n n' →
    R (inner.expand n) (inner'.expand n')

/-- Matching nodes with a run each. -/
def PairAlike (N : Node → Node → Prop)
    (R : Node → Run σ Unit → Run τ Unit → Prop) (p : Node × Run σ Unit)
    (p' : Node × Run τ Unit) : Prop :=
  N p.1 p'.1 ∧ R p.1 p.2 p'.2

/-- Intercepts that say the same, with replacements that run alike. -/
structure InterceptAlike (N : Node → Node → Prop)
    (R : Node → Run σ Unit → Run τ Unit → Prop) (i : Intercept σ)
    (i' : Intercept τ) : Prop where
  tag : i.tag = i'.tag
  node : N i.node i'.node
  capture : i.capture = i'.capture
  replacement : R i.node i.replacement i'.replacement

/-- Nodes with a run each, which are related if the nodes are directives. -/
def ContentsAlike (uri : String) (N : Node → Node → Prop)
    (R : Run σ Unit → Run τ Unit → Prop) :
    Node × Run σ Unit → Node × Run τ Unit → Prop :=
  PairAlike N fun child x x' => Directed uri child → R x x'

/-- What lies in an element runs alike on both sides: its contents as they are,
and in a directive also what makes use of its children one by one. -/
structure BelowAlike (uri : String) (N : Node → Node → Prop)
    (R : Run σ Unit → Run τ Unit → Prop) (directed : Prop) (below : Below σ)
    (below' : Below τ) : Prop where
  contents : R (below.contents false) (below'.contents false)
  trimmed (h : directed) : R (below.contents true) (below'.contents true)
  cases (h : directed) : R below.cases below'.cases
  replacements (h : directed) :
    List.Forall₂ (ContentsAlike uri N R) below.replacements below'.replacements

section

variable {N : Node → Node → Prop} {U : Url → Prop} {s : Settings σ}
  {t : Settings τ} {n n' : Node}

-- ============================================================== intercepts

theorem agree_intercepts [Likeness N]
    {R : Node → Run σ Unit → Run τ Unit → Prop} (uri : String) (hn : N n n')
    {cs : List (Node × Run σ Unit)} {cs' : List (Node × Run τ Unit)}
    (h : List.Forall₂
      (PairAlike N fun child x x' => Directed uri child → R child x x')
      cs cs') :
    ReadAlike N (List.Forall₂ (InterceptAlike N R)) (intercepts uri n cs)
      (intercepts uri n' cs') := by
  intro env
  induction h with
  | nil => exact .ok .nil
  | @cons p p' rest rest' hp hrest ih =>
    obtain ⟨child, x⟩ := p
    obtain ⟨child', x'⟩ := p'
    obtain ⟨hchild, hx⟩ :
      N child child' ∧ (Directed uri child → R child x x') := hp
    -- only children that are admitted are looked into, and those are
    -- directives
    have halike := (alike_admitted hn uri .copy .intercept hchild).known
      (P := fun b => b = true → Directive.ofNode? uri child = some .intercept)
      fun env b hb htrue => ofNode?_admitted (htrue ▸ hb)
    refine agree_bind (halike env) ?_
    rintro b _ ⟨rfl, hkind⟩
    split
    · next htrue =>
      replace hx := hx ⟨.intercept, hkind htrue, nofun⟩
      refine agree_bind (alike_interceptSpec hchild env) ?_
      rintro spec _ rfl
      refine agree_bind ih fun is is' his => ?_
      exact .ok (.cons ⟨rfl, hchild, rfl, hx⟩ his)
    · exact ih

/-- The first intercept for a tag is the same on both sides, if there is
one. -/
theorem rel_intercept {R : Node → Run σ Unit → Run τ Unit → Prop}
    {is : List (Intercept σ)} {is' : List (Intercept τ)}
    (h : List.Forall₂ (InterceptAlike N R) is is') (tag : String) :
    Option.Rel (InterceptAlike N R) (is.find? fun i => i.tag == tag)
      (is'.find? fun i => i.tag == tag) :=
  rel_find? h fun i i' hi => by rw [hi.tag]

variable {R : Run σ Unit → Run τ Unit → Prop} {x : Run σ Unit}
  {x' : Run τ Unit}

-- ================================================================== passes

namespace Sequential

theorem optional (c : Sequential N R) (h : N n n')
    (name : Option String) (v : Value) :
    R (bindOptional n name v) (bindOptional n' name v) := by
  cases name with
  | none => exact c.skip
  | some name => exact c.binding h name v

theorem itemPasses (c : Sequential N R) (h : N n n') (spec : LoopSpec)
    (hx : R x x') (i : Nat) (vs : List Value) :
    R (Template.itemPasses n spec x i vs)
      (Template.itemPasses n' spec x' i vs) := by
  induction vs generalizing i with
  | nil => exact c.skip
  | cons v vs ih =>
    refine c.seq (c.optional h spec.name v) ?_
    refine c.seq (c.optional h spec.index _) ?_
    exact c.seq hx (ih (i + 1))

theorem wholePasses (c : Sequential N R) (h : N n n')
    (name : Option String) (hx : R x x') (step : Int) (k : Nat) (i : Int) :
    R (wholePasses n name x step k i) (wholePasses n' name x' step k i) := by
  induction k generalizing i with
  | zero => exact c.skip
  | succ k ih =>
    refine c.seq (c.optional h name _) ?_
    exact c.seq hx (ih (i + step))

/-- A floating range, if the relation holds of being out of passes. -/
theorem floatPasses (c : Sequential N R)
    (hu : R (throw .unfinished) (throw .unfinished)) (h : N n n')
    (name : Option String) (r : Range Float) (up : Bool) (hx : R x x')
    (fuel : Nat) (v : Float) :
    R (floatPasses n name r up x fuel v)
      (floatPasses n' name r up x' fuel v) := by
  induction fuel generalizing v with
  | zero => exact hu
  | succ fuel ih =>
    refine c.seq (c.optional h name _) (c.seq hx ?_)
    dsimp only
    split
    · exact ih (r.next up v)
    · exact c.skip

theorem runFloat (c : Sequential N R)
    (hu : R (throw .unfinished) (throw .unfinished))
    (hp : s.passes = t.passes) (h : N n n') (name : Option String)
    (r : Range Float) (hx : R x x') :
    R (Template.runFloat s n name r x) (Template.runFloat t n' name r x') := by
  unfold Template.runFloat
  rw [← hp]
  exact c.floatPasses hu h name r _ hx _ _

end Sequential

-- ================================================================== macros

/-- Only the macros among some nodes are defined. -/
theorem defineAll_eq_macros (s : Settings σ) (ns : List Node) :
    Template.defineAll s ns
      = Template.defineAll s (ns.filter (isMacro s.uri)) := by
  induction ns with
  | nil => rfl
  | cons n ns ih =>
    by_cases hn : Directive.ofNode? s.uri n = some .definition
    · have hmacro : isMacro s.uri n = true := decide_eq_true hn
      rw [List.filter_cons_of_pos hmacro]
      simp only [Template.defineAll, if_pos hn, ih]
    · have hother : ¬ isMacro s.uri n = true := fun h =>
        hn (of_decide_eq_true h)
      rw [List.filter_cons_of_neg hother, ← ih]
      simp only [Template.defineAll, if_neg hn]

/-- Macros do nothing in their place. -/
theorem item_of_isMacro {s : Settings σ} (hn : isMacro s.uri n = true)
    (front back : Bool) (x : Run σ Unit) :
    item s n front back x = pure () := by
  have hmacro := of_decide_eq_true hn
  unfold item
  obtain ⟨e, he, -⟩ := Option.bind_eq_some_iff.1 hmacro
  unfold Node.element? Markup.Content.element? at he
  split at he
  · next hc =>
    rw [hc]
    exact if_pos hmacro
  · cases he

/-- Contents that are not trimmed come to those of them that define nothing. -/
theorem items_eq_others (s : Settings σ) (inner : Option (Inner σ))
    (origin : Origin) (trail : List Tree) (ts : List Tree) :
    Template.items s inner origin trail false false ts
      = Template.items s inner origin trail false false
        (ts.filter fun tree => !isMacro s.uri ⟨origin, tree, trail⟩) := by
  induction ts with
  | nil => rfl
  | cons tree ts ih =>
    cases hn : isMacro s.uri ⟨origin, tree, trail⟩ with
    | true =>
      rw [List.filter_cons_of_neg (by simp [hn]), ← ih]
      rw [Template.items]
      simp only [Bool.false_and, Bool.false_eq_true, if_false]
      rw [item_of_isMacro hn, pure_bind]
    | false =>
      rw [List.filter_cons_of_pos (by simp [hn])]
      simp only [Template.items, Bool.false_and, Bool.false_eq_true, if_false]
      rw [ih]

-- =================================================================== runs

namespace Stepwise

/-- The same is read on both sides. -/
theorem reads (c : Stepwise N U s t R) {α : Type} {r r' : Reading α}
    {f : α → Run σ Unit} {f' : α → Run τ Unit} (hr : ReadAlike N (· = ·) r r')
    (h : ∀ a, R (f a) (f' a)) : R (read r >>= f) (read r' >>= f') :=
  c.reading hr fun a _ hab => hab ▸ h a

-- ------------------------------------------------------- simple directives

theorem explicitFailure [Likeness N] (c : Stepwise N U s t R) (h : N n n') :
    R (explicitFailure n) (explicitFailure n') :=
  c.reads (alike_substituted h "text") fun _ =>
    c.fault (Diagnostic.matches_about h nofun)

theorem doctypes [Likeness N] (c : Stepwise N U s t R) (h : N n n') :
    R (Template.doctype s n) (Template.doctype t n') := by
  refine c.reads (alike_substituted h "name") fun name => ?_
  cases name with
  | none => exact c.fault (Diagnostic.matches_on h "name" nofun)
  | some name =>
    refine c.reads (alike_substituted h "system") fun systemId => ?_
    refine c.reads (alike_substituted h "public") fun publicId => ?_
    exact c.doctype name publicId systemId

theorem assignment [Likeness N] (c : Stepwise N U s t R) (h : N n n') :
    R (assignment n) (assignment n') := by
  refine c.reads (alike_requiredName h) fun name => ?_
  rw [Likeness.attribute? h, Likeness.isContentEmpty h]
  split
  · exact c.fault (Diagnostic.matches_on h "document" nofun)
  · split
    · exact c.fault (Diagnostic.matches_about h nofun)
    · exact c.reads (alike_requiredValue h) fun v => c.binding h name v

theorem define [Likeness N] (c : Stepwise N U s t R) (h : Wholly N n n') :
    R (define n) (define n') := by
  unfold Template.define
  rw [Likeness.attribute? h.node]
  dsimp only
  split
  · exact c.definition h _
  · exact c.fault (Diagnostic.matches_on h.node "name" nofun)

theorem defineAll [Likeness N] (c : Stepwise N U s t R) {ns ns' : List Node}
    (h : List.Forall₂ N ns ns') :
    R (defineAll s ns) (defineAll t ns') := by
  induction h with
  | nil => exact c.skip
  | cons hn _ ih =>
    unfold Template.defineAll
    rw [← c.uri, ← Likeness.ofNode? hn]
    split
    · next hmacro =>
      have whole := c.descends.wholly hn ⟨.definition, hmacro, nofun⟩
      exact c.seq (c.define whole) ih
    · exact c.seq c.skip ih

/-- The same macros are defined, wherever they are among the children. -/
theorem definitions [Likeness N] (c : Stepwise N U s t R)
    {ns ns' : List Node}
    (h : List.Forall₂ N (ns.filter (isMacro s.uri))
      (ns'.filter (isMacro s.uri))) :
    R (Template.defineAll s ns) (Template.defineAll t ns') := by
  rw [defineAll_eq_macros, defineAll_eq_macros t, ← c.uri]
  exact c.defineAll h

theorem bindParam [Likeness N] (c : Stepwise N U s t R) (h : N n n') :
    R (bindParam n) (bindParam n') := by
  refine c.reads (alike_requiredName h) fun name => ?_
  exact c.reads (alike_requiredValue h) fun v => c.binding h name v

theorem bindParams [Likeness N] (c : Stepwise N U s t R) (h : N n n')
    {children children' : List Node}
    (hc : List.Forall₂ N children children') :
    R (bindParams s n children) (bindParams t n' children') := by
  induction hc with
  | nil => exact c.skip
  | cons hchild _ ih =>
    unfold Template.bindParams
    rw [← c.uri]
    refine c.reads (alike_admitted h s.uri .call .param hchild) fun b => ?_
    split
    · exact c.seq (c.bindParam hchild) ih
    · exact c.seq c.skip ih

theorem text [Likeness N] (c : Stepwise N U s t R) (h : N n n')
    (data : String) :
    R (text s n data) (text t n' data) := by
  unfold Template.text
  split
  · exact c.skip
  · exact c.reads (alike_literalText h data) fun text => c.characters text

theorem item [Likeness N] (c : Stepwise N U s t R) (h : N n n')
    (front back : Bool) (hx : R x x') :
    R (item s n front back x) (item t n' front back x') := by
  unfold Template.item
  rw [← c.uri, Likeness.content h, Likeness.ofNode? h]
  cases n'.content with
  | element e =>
    dsimp only
    split
    · exact c.skip
    · exact hx
  | text data => exact c.text h _
  | cdata data => exact c.cdata data
  | _ => exact c.skip

end Stepwise

namespace Congruence

section

variable {inner : Option (Inner σ)} {inner' : Option (Inner τ)}

-- ---------------------------------------------------- inclusions and calls

theorem includeDocument (c : Congruence N U s t R) {inner : Inner σ}
    {inner' : Inner τ} (hi : InnerAlike N R inner inner') (h : N n n')
    (href : String) :
    R (includeDocument s inner n href) (includeDocument t inner' n' href) := by
  refine c.state fun m m' hm => ?_
  rw [← hm.base]
  cases hurl : Loading.resolveHref m.scopes.base href with
  | error e => exact c.fault (Diagnostic.matches_on h "href" nofun)
  | ok url =>
    have hu := c.resolved hm.known hurl
    refine c.loading hu fun d d' hd => ?_
    cases hd with
    | error e => exact c.fault (Diagnostic.matches_on h "href" nofun)
    | @ok d d' root =>
      dsimp only
      generalize d.rootElement? = root? at root ⊢
      generalize d'.rootElement? = root?' at root ⊢
      cases root with
      | none => exact c.fault (Diagnostic.matches_about h nofun)
      | some hroot => exact c.rebased hroot hu (c.nested (hi.execute hroot))

theorem inclusion [Likeness N] (c : Congruence N U s t R)
    (hi : Option.Rel (InnerAlike N R) inner inner') (h : N n n') :
    R (inclusion s inner n) (inclusion t inner' n') := by
  refine c.reads (alike_substituted h "href") fun href => ?_
  cases href with
  | none => exact c.fault (Diagnostic.matches_on h "href" nofun)
  | some href =>
    cases hi with
    | none => exact c.fault (Diagnostic.matches_on h "href" nofun)
    | some hi => exact c.includeDocument hi h href

theorem call [Likeness N] (c : Congruence N U s t R)
    (hi : Option.Rel (InnerAlike N R) inner inner') (h : Wholly N n n') :
    R (call s inner n) (call t inner' n') := by
  obtain ⟨h, children⟩ := h
  refine c.reads (alike_substituted h "name") fun name => ?_
  refine c.state fun m m' hm => ?_
  have hbody := hm.defined? (name.getD "")
  generalize m.scopes.defined? (name.getD "") = body at hbody ⊢
  generalize m'.scopes.defined? (name.getD "") = body' at hbody ⊢
  cases hbody with
  | none => exact c.fault (Diagnostic.matches_on h "name" nofun)
  | some hbody =>
    cases hi with
    | none => exact c.fault (Diagnostic.matches_on h "name" nofun)
    | some hi =>
      exact c.inScope h (c.seq (c.bindParams h children)
        (c.nested (hi.expand hbody)))

-- ------------------------------------------------------------------ loops

theorem loop [Likeness N] (c : Congruence N U s t R) (h : N n n')
    (hx : R x x') :
    R (loop s n x) (loop t n' x') := by
  refine c.reads (alike_loopSpec h) fun spec => ?_
  refine c.reads (alike_loopKind h spec) fun kind => ?_
  cases kind with
  | items values => exact c.inScope h (c.itemPasses h spec hx 0 values)
  | range b =>
    dsimp only
    split
    · refine c.reads (alike_floatRange h b) fun r => ?_
      split
      · exact c.skip
      · exact c.inScope h (c.floating h spec.name r hx)
    · refine c.reads (alike_wholeRange h b) fun r => ?_
      split
      · exact c.skip
      · next hne =>
        rw [runWhole_eq n _ r x hne, runWhole_eq n' _ r x' hne]
        exact c.inScope h (c.wholePasses h spec.name hx _ _ _)

-- ----------------------------------------------------------------- copies

theorem replacement (c : Congruence N U s t R) {i : Intercept σ}
    {i' : Intercept τ} (hi : InterceptAlike N (fun _ => R) i i')
    (source : Node) :
    R (i.run source) (i'.run source) := by
  unfold Intercept.run
  rw [← hi.capture]
  exact c.inScope hi.node (c.seq (c.optional hi.node ..) hi.replacement)

mutual

theorem copyTree (c : Congruence N U s t R) {is : List (Intercept σ)}
    {is' : List (Intercept τ)}
    (h : List.Forall₂ (InterceptAlike N fun _ => R) is is')
    (origin : Origin) (trail : List Tree) :
    ∀ tree,
      R (copyTree s is origin trail tree) (copyTree t is' origin trail tree)
  | .node label ts => by
    have below := copyTrees c h origin (.node label ts :: trail) ts
    unfold Template.copyTree
    rw [← c.uri]
    cases label.content with
    | element e =>
      have found := rel_intercept h e.name.text
      dsimp only
      generalize is.find? _ = i at found ⊢
      generalize is'.find? _ = i' at found ⊢
      cases found with
      | some hi => exact c.replacement hi _
      | none => exact c.enclosed _ _ (c.inScope (c.same _) below)
    | text data => exact c.characters data
    | cdata data => exact c.cdata data
    | _ => exact c.skip
termination_by structural tree => tree

theorem copyTrees (c : Congruence N U s t R) {is : List (Intercept σ)}
    {is' : List (Intercept τ)}
    (h : List.Forall₂ (InterceptAlike N fun _ => R) is is')
    (origin : Origin) (trail : List Tree) :
    ∀ ts, R (copyTrees s is origin trail ts) (copyTrees t is' origin trail ts)
  | [] => c.skip
  | tree :: ts =>
    c.seq (copyTree c h origin trail tree) (copyTrees c h origin trail ts)
termination_by structural ts => ts

end

/-- What a copy does in its own scope. -/
theorem copying [Likeness N] (c : Congruence N U s t R) (h : N n n')
    (text : String) {cs : List (Node × Run σ Unit)}
    {cs' : List (Node × Run τ Unit)}
    (hc : List.Forall₂ (ContentsAlike s.uri N R) cs cs') :
    R (do
        let source ← read (copySource n text)
        let whole ← read (copiesWhole n)
        let is ← read (intercepts s.uri n cs)
        copyFrom s is whole source)
      (do
        let source ← read (copySource n' text)
        let whole ← read (copiesWhole n')
        let is ← read (intercepts t.uri n' cs')
        copyFrom t is whole source) := by
  refine c.reads (alike_copySource h text) fun source => ?_
  refine c.reads (alike_copiesWhole h) fun whole => ?_
  rw [← c.uri]
  refine c.reading (agree_intercepts s.uri h hc) fun is is' his => ?_
  unfold copyFrom
  split
  · exact c.copyTree his _ _ _
  · exact c.inScope (c.same source) (c.copyTrees his _ _ _)

theorem copy [Likeness N] (c : Congruence N U s t R) (h : N n n')
    {cs : List (Node × Run σ Unit)} {cs' : List (Node × Run τ Unit)}
    (hc : List.Forall₂ (ContentsAlike s.uri N R) cs cs') :
    R (copy s n cs) (copy t n' cs') := by
  refine c.reads (alike_substituted h "element") fun text => ?_
  cases text with
  | none => exact c.fault (Diagnostic.matches_on h "element" nofun)
  | some text => exact c.inScope h (c.copying h text hc)

-- --------------------------------------------------------------- elements

theorem condition [Likeness N] (c : Congruence N U s t R) (h : N n n')
    (hx : R x x') : R (condition n x) (condition n' x') := by
  refine c.reads (alike_substituted h "test") fun test => ?_
  cases test with
  | none => exact c.fault (Diagnostic.matches_on h "test" nofun)
  | some test =>
    refine c.reads (alike_truth h test) fun b => ?_
    split
    · exact c.inScope h hx
    · exact c.skip

theorem literal [Likeness N] (c : Congruence N U s t R) (h : N n n')
    (hx : R x x') : R (literal s n x) (literal t n' x') := by
  unfold Template.literal
  rw [Likeness.element? h, ← c.uri]
  cases n'.element? with
  | none => exact c.skip
  | some e =>
    refine c.reads (alike_literalAttributes h _ _) fun attributes => ?_
    exact c.enclosed _ attributes hx

theorem obey [Likeness N] (c : Congruence N U s t R)
    (hi : Option.Rel (InnerAlike N R) inner inner') (h : N n n') {d : Directive}
    (hd : Directive.ofNode? s.uri n = some d) {below : Below σ}
    {below' : Below τ}
    (hb : BelowAlike s.uri N R (Directed s.uri n) below below') :
    R (obey s inner n below d) (obey t inner' n' below' d) := by
  cases d with
  | failure => exact c.explicitFailure h
  | doctype => exact c.doctypes h
  | inclusion => exact c.inclusion hi h
  | assignment => exact c.assignment h
  | condition => exact c.condition h (hb.trimmed ⟨_, hd, nofun⟩)
  | switch => exact hb.cases ⟨_, hd, nofun⟩
  | loop => exact c.loop h (hb.trimmed ⟨_, hd, nofun⟩)
  | call => exact c.call hi (c.descends.wholly h ⟨_, hd, nofun⟩)
  | comment => exact c.skip
  | copy => exact c.copy h (hb.replacements ⟨_, hd, nofun⟩)
  | definition => exact c.skip
  | template => exact c.fault (Diagnostic.matches_about h nofun)
  | case => exact c.fault (Diagnostic.matches_about h nofun)
  | param => exact c.fault (Diagnostic.matches_about h nofun)
  | intercept => exact c.fault (Diagnostic.matches_about h nofun)

theorem perform [Likeness N] (c : Congruence N U s t R)
    (hi : Option.Rel (InnerAlike N R) inner inner') (h : N n n')
    {below : Below σ} {below' : Below τ}
    (hb : BelowAlike s.uri N R (Directed s.uri n) below below') :
    R (perform s inner n below) (perform t inner' n' below') := by
  unfold Template.perform
  rw [← c.uri, ← Likeness.ofNode? h]
  refine c.reads (alike_included h _) fun b => ?_
  split
  · cases hd : Directive.ofNode? s.uri n with
    | some d => exact c.obey hi h hd hb
    | none => exact c.literal h hb.contents
  · exact c.skip

-- ------------------------------------------------------------------ trees

/-- Wherever a tree stands, it runs like the trees that are like it there; so do
its contents, trimmed, if all that is in it is alike one by one. -/
structure TreeAlike (N : Node → Node → Prop)
    (R : Run σ Unit → Run τ Unit → Prop) (s : Settings σ) (t : Settings τ)
    (inner : Option (Inner σ)) (inner' : Option (Inner τ)) (tree : Tree) :
    Prop where
  element {origin : Origin} {trail : List Tree} {n' : Node} :
    N ⟨origin, tree, trail⟩ n' →
    R (Template.element s inner origin trail tree)
      (Template.element t inner' n'.origin n'.trail n'.tree)
  body {origin : Origin} {trail : List Tree} {n' : Node} :
    Wholly N ⟨origin, tree, trail⟩ n' →
    R (Template.body s inner origin trail tree)
      (Template.body t inner' n'.origin n'.trail n'.tree)

section

variable {origin origin' : Origin} {trail trail' : List Tree}
  {ts ts' : List Tree}

theorem items [Likeness N] (c : Congruence N U s t R)
    (ih : ∀ tree ∈ ts, TreeAlike N R s t inner inner' tree)
    (h : Abreast N origin origin' trail trail' ts ts') (trim front : Bool) :
    R (Template.items s inner origin trail trim front ts)
      (Template.items t inner' origin' trail' trim front ts') := by
  induction h generalizing front with
  | nil => exact c.skip
  | @cons tree tree' ts ts' hn hrest ih' =>
    obtain ⟨here, below⟩ := List.forall_mem_cons.1 ih
    have rest := ih' below
    have same : tree.isInsignificant = tree'.isInsignificant :=
      Likeness.isInsignificant hn
    unfold Template.items
    dsimp only
    rw [same, all_insignificant hrest]
    split
    · exact rest true
    · split
      · exact c.skip
      · exact c.seq (c.item hn _ _ (here.element hn)) (rest false)

/-- What is not trimmed has to correspond without its macros only. -/
theorem untrimmed [Likeness N] (c : Congruence N U s t R)
    {label label' : Markup.Label}
    (ih : ∀ tree ∈ ts, TreeAlike N R s t inner inner' tree)
    (others : List.Forall₂ N
      ((Node.children ⟨origin, .node label ts, trail⟩).filter
        fun child => !isMacro s.uri child)
      ((Node.children ⟨origin', .node label' ts', trail'⟩).filter
        fun child => !isMacro s.uri child)) :
    R (Template.items s inner origin (.node label ts :: trail) false false ts)
      (Template.items t inner' origin' (.node label' ts' :: trail') false false
        ts') := by
  unfold Node.children at others
  rw [List.filter_map, List.filter_map, List.forall₂_map_left_iff,
    List.forall₂_map_right_iff] at others
  rw [items_eq_others, items_eq_others t, ← c.uri]
  exact c.items (fun tree hmem => ih tree (List.mem_of_mem_filter hmem)) others
    false false

theorem cases [Likeness N] (c : Congruence N U s t R) (hn : N n n')
    (ih : ∀ tree ∈ ts, TreeAlike N R s t inner inner' tree)
    (h : Abreast N origin origin' trail trail' ts ts') :
    R (Template.cases s inner origin trail n ts)
      (Template.cases t inner' origin' trail' n' ts') := by
  have same : ∀ child, caseApplies t n' child = caseApplies s n' child := by
    intro child
    unfold caseApplies
    rw [c.uri]
  induction h with
  | nil => exact c.skip
  | @cons tree tree' ts ts' hchild hrest ih' =>
    obtain ⟨here, below⟩ := List.forall_mem_cons.1 ih
    unfold Template.cases
    dsimp only
    rw [same]
    have halike := (alike_caseApplies s hn hchild).known
      (P := fun b => b = true →
        Directive.ofNode? s.uri ⟨origin, tree, trail⟩ = some .case)
      fun env b hb htrue => ofNode?_caseApplies (htrue ▸ hb)
    refine c.reading halike ?_
    rintro b _ ⟨rfl, hkind⟩
    split
    · next htrue =>
      -- a case that applies is a directive, so it is alike down to its leaves
      have whole := c.descends.wholly hchild ⟨.case, hkind htrue, nofun⟩
      exact c.inScope hchild (here.body whole)
    · exact ih' below

theorem replacements (c : Congruence N U s t R)
    (ih : ∀ tree ∈ ts, TreeAlike N R s t inner inner' tree)
    (h : Abreast N origin origin' trail trail' ts ts') :
    List.Forall₂ (ContentsAlike s.uri N R)
      (Template.replacements s inner origin trail ts)
      (Template.replacements t inner' origin' trail' ts') := by
  induction h with
  | nil => exact .nil
  | cons hchild _ ih' =>
    obtain ⟨here, below⟩ := List.forall_mem_cons.1 ih
    refine .cons ⟨hchild, fun directed => ?_⟩ (ih' below)
    exact here.body (c.descends.wholly hchild directed)

end

mutual

theorem treeAlike [Likeness N] (c : Congruence N U s t R)
    (hi : Option.Rel (InnerAlike N R) inner inner') :
    ∀ tree, TreeAlike N R s t inner inner' tree
  | .node label ts => by
    have ih := treesAlike c hi ts
    constructor
    · rintro origin trail ⟨origin', ⟨label', ts'⟩, trail'⟩ h
      have abreast := fun directed =>
        abreast_of_children (c.descends.wholly h directed).children
      unfold Template.element
      refine c.perform hi h ⟨?_, fun d => ?_, fun d => ?_, fun d => ?_⟩
      · exact c.seq (c.definitions (c.descends.macros h))
          (c.untrimmed ih (c.descends.others h))
      · exact c.seq (c.definitions (c.descends.macros h))
          (c.items ih (abreast d) true true)
      · exact c.cases h ih (abreast d)
      · exact c.replacements ih (abreast d)
    · rintro origin trail ⟨origin', ⟨label', ts'⟩, trail'⟩ h
      exact c.seq (c.definitions (c.descends.macros h.node))
        (c.items ih (abreast_of_children h.children) true true)
termination_by structural tree => tree

theorem treesAlike [Likeness N] (c : Congruence N U s t R)
    (hi : Option.Rel (InnerAlike N R) inner inner') :
    ∀ ts : List Tree, ∀ tree ∈ ts, TreeAlike N R s t inner inner' tree
  | [] => nofun
  | tree :: ts =>
    List.forall_mem_cons.2 ⟨treeAlike c hi tree, treesAlike c hi ts⟩
termination_by structural ts => ts

end

-- ------------------------------------------------------------- whole runs

/-- Contents that are not trimmed, if the macros in them correspond and so do
their other parts. -/
theorem contents [Likeness N] (c : Congruence N U s t R)
    (hi : Option.Rel (InnerAlike N R) inner inner')
    (macros : List.Forall₂ N (n.children.filter (isMacro s.uri))
      (n'.children.filter (isMacro s.uri)))
    (others : List.Forall₂ N
      (n.children.filter fun child => !isMacro s.uri child)
      (n'.children.filter fun child => !isMacro s.uri child)) :
    R (contents s inner false n) (contents t inner' false n') := by
  obtain ⟨origin, ⟨label, ts⟩, trail⟩ := n
  obtain ⟨origin', ⟨label', ts'⟩, trail'⟩ := n'
  exact c.seq (c.definitions macros) (c.untrimmed (treesAlike c hi ts) others)

/-- Trimmed contents, of nodes that are alike with all that is in them. -/
theorem trimmed [Likeness N] (c : Congruence N U s t R)
    (hi : Option.Rel (InnerAlike N R) inner inner') (h : Wholly N n n') :
    R (Template.contents s inner true n)
      (Template.contents t inner' true n') := by
  obtain ⟨origin, ⟨label, ts⟩, trail⟩ := n
  obtain ⟨origin', ⟨label', ts'⟩, trail'⟩ := n'
  exact (treeAlike c hi (.node label ts)).body h

theorem element [Likeness N] (c : Congruence N U s t R)
    (hi : Option.Rel (InnerAlike N R) inner inner') (h : N n n') :
    R (Template.element s inner n.origin n.trail n.tree)
      (Template.element t inner' n'.origin n'.trail n'.tree) :=
  (treeAlike c hi n.tree).element h

theorem execute [Likeness N] (c : Congruence N U s t R)
    (hi : Option.Rel (InnerAlike N R) inner inner') (h : N n n') :
    R (execute s inner n) (execute t inner' n') := by
  unfold Template.execute
  rw [← c.uri, Likeness.ofNode? h]
  split
  · exact c.contents hi (c.descends.macros h) (c.descends.others h)
  · exact c.element hi h

end

/-- What may still be opened runs alike, to any depth. -/
theorem inner [Likeness N] (c : Congruence N U s t R) (room : Nat) :
    Option.Rel (InnerAlike N R) (inner? s room) (inner? t room) := by
  induction room with
  | zero => exact .none
  | succ room ih => exact .some ⟨execute c ih, trimmed c ih⟩

end Congruence

end

end Matching

end Stencil.Template
