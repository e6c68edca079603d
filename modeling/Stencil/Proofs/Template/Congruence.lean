/-
Relations between runs that the interpreter keeps.

Two runs of the same templates, perhaps with different outputs, are compared by
a relation. If the relation holds of the single steps (reading, sending,
binding, loading) and survives the ways in which steps are put together (one
after another, in a scope, inside an inclusion or a call, between the two ends
of an element), it holds of whole templates: `Congruence.execute`. This is the
case of matching nodes that are the same nodes; a property of single runs is a
relation that looks at one side only.

Which readings a step makes is the same on both sides. Only the intercepts of
a copy carry runs, so they are compared one by one.
-/
import Stencil.Proofs.Template.Correspondence

namespace Stencil.Template

open Stencil.Expr (Value)
open Markup (Node Origin Tree)

variable {σ τ : Type}

-- =============================================================== readings

/-- Two readings come out alike: with related values, or with the same
located diagnostic. -/
inductive Alike {α β : Type} (Q : α → β → Prop) :
    Except Diagnostic α → Except Diagnostic β → Prop
  | ok {a : α} {b : β} (h : Q a b) : Alike Q (.ok a) (.ok b)
  | error {d : Diagnostic} (h : d.Located) : Alike Q (.error d) (.error d)

/-- Diagnostics that match about the same nodes are the same. -/
theorem Agree.alike {α β : Type} {Q : α → β → Prop}
    {x : Except Diagnostic α} {y : Except Diagnostic β}
    (h : Agree (· = ·) Q x y) : Alike Q x y := by
  cases h with
  | ok h => exact .ok h
  | error h =>
    obtain ⟨rfl, hlocated⟩ := Diagnostic.matches_eq_iff.1 h
    exact .error hlocated

/-- A value on one side has its like on the other. -/
theorem Alike.exists_of_ok {α β : Type} {Q : α → β → Prop}
    {x : Except Diagnostic α} {y : Except Diagnostic β} (h : Alike Q x y)
    {a : α} (hx : x = .ok a) : ∃ b, Q a b := by
  cases h with
  | ok h =>
    cases hx
    exact ⟨_, h⟩
  | error => cases hx

theorem Alike.located_of_error {α β : Type} {Q : α → β → Prop}
    {x : Except Diagnostic α} {y : Except Diagnostic β} (h : Alike Q x y)
    {d : Diagnostic} (hx : x = .error d) : d.Located := by
  cases h with
  | ok => cases hx
  | error h =>
    cases hx
    exact h

-- ============================================================== relations

/-- A relation that survives sequencing and holds of bindings. -/
structure Sequential (R : Run σ Unit → Run τ Unit → Prop) : Prop where
  skip : R (pure ()) (pure ())
  seq {x y : Run σ Unit} {x' y' : Run τ Unit} : R x x' → R y y' →
    R (x >>= fun _ => y) (x' >>= fun _ => y')
  binding (n : Node) (name : String) (v : Value) :
    R (bindVariable n name v) (bindVariable n name v)

/-- A relation that single steps keep, between runs by two settings. -/
structure Stepwise (s : Settings σ) (t : Settings τ)
    (R : Run σ Unit → Run τ Unit → Prop) : Prop extends Sequential R where
  uri : s.uri = t.uri
  fault {d : Diagnostic} : d.Located → R (fail d) (fail d)
  reading {α β : Type} {Q : α → β → Prop} {r : Reading α} {r' : Reading β}
    {f : α → Run σ Unit} {f' : β → Run τ Unit} :
    (∀ env, Alike Q (r env) (r' env)) → (∀ a b, Q a b → R (f a) (f' b)) →
    R (read r >>= f) (read r' >>= f')
  state {f : Machine σ → Run σ Unit} {f' : Machine τ → Run τ Unit} :
    (∀ m m', m.scopes = m'.scopes → R (f m) (f' m')) →
    R (get >>= f) (get >>= f')
  loading {f : Except Loading.Error Markup.Document → Run σ Unit}
    {f' : Except Loading.Error Markup.Document → Run τ Unit} (url : Url) :
    (∀ d, R (f d) (f' d)) → R (load s url >>= f) (load t url >>= f')
  definition (n : Node) (name : String) :
    R (onScope n (·.define name n)) (onScope n (·.define name n))
  characters (data : String) :
    R (send s (.characters data)) (send t (.characters data))
  cdata (data : String) :
    R (sendAll s (Template.cdata data)) (sendAll t (Template.cdata data))
  doctype (name : String) (publicId systemId : Option String) :
    R (sendAll s [.startDoctype name publicId systemId, .endDoctype])
      (sendAll t [.startDoctype name publicId systemId, .endDoctype])

/-- A relation that also survives the ways in which steps are put together. -/
structure Congruence (s : Settings σ) (t : Settings τ)
    (R : Run σ Unit → Run τ Unit → Prop) : Prop extends Stepwise s t R where
  enclosed {x : Run σ Unit} {x' : Run τ Unit} (name : Output.ElementName)
    (attributes : List (String × String)) : R x x' →
    R (do send s (.start name attributes); x; send s (.stop name))
      (do send t (.start name attributes); x'; send t (.stop name))
  inScope {x : Run σ Unit} {x' : Run τ Unit} (anchor : Node) : R x x' →
    R (Template.inScope anchor x) (Template.inScope anchor x')
  nested {x : Run σ Unit} {x' : Run τ Unit} : R x x' →
    R (Template.nested x) (Template.nested x')
  rebased {x : Run σ Unit} {x' : Run τ Unit} (root : Node) (url : Url) :
    R x x' →
    R (Template.inScope root do setBase (some url); x)
      (Template.inScope root do setBase (some url); x')
  floating {x : Run σ Unit} {x' : Run τ Unit} (n : Node)
    (name : Option String) (r : Range Float) : R x x' →
    R (runFloat s n name r x) (runFloat t n name r x')

/-- What is open on both sides runs alike. -/
structure InnerAlike (R : Run σ Unit → Run τ Unit → Prop) (inner : Inner σ)
    (inner' : Inner τ) : Prop where
  execute (n : Node) : R (inner.execute n) (inner'.execute n)
  expand (n : Node) : R (inner.expand n) (inner'.expand n)

/-- A node with a run on each side. -/
abbrev PairAlike (R : Node → Run σ Unit → Run τ Unit → Prop) :
    Node × Run σ Unit → Node × Run τ Unit → Prop :=
  Matching.PairAlike (· = ·) R

/-- Intercepts that say the same, with replacements that run alike. -/
abbrev InterceptAlike (R : Node → Run σ Unit → Run τ Unit → Prop) :
    Intercept σ → Intercept τ → Prop :=
  Matching.InterceptAlike (· = ·) R

/-- What lies in an element runs alike on both sides. -/
structure BelowAlike (R : Run σ Unit → Run τ Unit → Prop) (below : Below σ)
    (below' : Below τ) : Prop where
  contents (trim : Bool) : R (below.contents trim) (below'.contents trim)
  cases : R below.cases below'.cases
  replacements :
    List.Forall₂ (PairAlike fun _ => R) below.replacements below'.replacements

/-- A property of single runs, as a relation that looks at the left side
only. -/
def Alone (P : Run σ Unit → Prop) (x _ : Run σ Unit) : Prop := P x

-- ========================================================== the same nodes

/-- What is below a node is like itself. -/
theorem forall₂_self (ns : List Node) : List.Forall₂ (· = ·) ns ns :=
  List.forall₂_same.2 fun _ _ => rfl

theorem abreast_self (origin : Origin) (trail ts : List Tree) :
    Abreast (· = ·) origin origin trail trail ts ts :=
  List.forall₂_same.2 fun _ _ => rfl

theorem wholly_self (n : Node) : Wholly (· = ·) n n := ⟨rfl, forall₂_self _⟩

theorem Wholly.eq {n n' : Node} (h : Wholly (· = ·) n n') : n = n' := h.node

theorem descends_self (uri : String) : Descends uri (· = ·) :=
  .of_children uri fun _ _ h => h ▸ forall₂_self _

/-- Scopes are seen as they are. -/
theorem seenAlike_self (scopes : Scopes) :
    SeenAlike (· = ·) (fun _ => True) scopes scopes := by
  refine ⟨rfl, fun _ _ => trivial, fun name => ?_⟩
  cases scopes.defined? name with
  | none => exact .none
  | some n => exact .some (wholly_self n)

section

variable {s : Settings σ} {t : Settings τ} {R : Run σ Unit → Run τ Unit → Prop}

theorem Sequential.matching (c : Sequential R) :
    Matching.Sequential (· = ·) R where
  skip := c.skip
  seq := c.seq
  binding h name v := h ▸ c.binding _ name v

theorem Stepwise.matching (c : Stepwise s t R) :
    Matching.Stepwise (· = ·) (fun _ => True) s t R where
  toSequential := c.toSequential.matching
  uri := c.uri
  same _ := rfl
  descends := descends_self s.uri
  fault h := by
    obtain ⟨rfl, hlocated⟩ := Diagnostic.matches_eq_iff.1 h
    exact c.fault hlocated
  reading hr hf := c.reading (fun env => (hr env).alike) hf
  state hf := c.state fun m m' h => hf m m' (h ▸ seenAlike_self m.scopes)
  resolved _ _ := trivial
  loading _ hf := c.loading _ fun d => hf d d (loadedAlike_same (fun _ => rfl) d)
  definition h name := h.eq ▸ c.definition _ name
  characters := c.characters
  cdata := c.cdata
  doctype := c.doctype

theorem Congruence.matching (c : Congruence s t R) :
    Matching.Congruence (· = ·) (fun _ => True) s t R where
  toStepwise := c.toStepwise.matching
  enclosed := c.enclosed
  inScope h hx := h ▸ c.inScope _ hx
  nested := c.nested
  rebased h _ hx := h ▸ c.rebased _ _ hx
  floating h name r hx := h ▸ c.floating _ name r hx

theorem InnerAlike.matching {inner : Inner σ} {inner' : Inner τ}
    (h : InnerAlike R inner inner') :
    Matching.InnerAlike (· = ·) R inner inner' where
  execute hn := hn ▸ h.execute _
  expand hn := hn.eq ▸ h.expand _

theorem matching_inner {inner : Option (Inner σ)} {inner' : Option (Inner τ)}
    (h : Option.Rel (InnerAlike R) inner inner') :
    Option.Rel (Matching.InnerAlike (· = ·) R) inner inner' := by
  cases h with
  | none => exact .none
  | some h => exact .some h.matching

end

-- ============================================================== intercepts

theorem alike_intercepts {R : Node → Run σ Unit → Run τ Unit → Prop}
    (uri : String) (n : Node) {cs : List (Node × Run σ Unit)}
    {cs' : List (Node × Run τ Unit)} (h : List.Forall₂ (PairAlike R) cs cs')
    (env : Expr.Environment) :
    Alike (List.Forall₂ (InterceptAlike R)) (intercepts uri n cs env)
      (intercepts uri n cs' env) :=
  (Matching.agree_intercepts uri (rfl : n = n)
    (h.imp fun _ _ hp => ⟨hp.1, fun _ => hp.2⟩) env).alike

/-- The first intercept for a tag is the same on both sides, if there is
one. -/
theorem alike_find {R : Node → Run σ Unit → Run τ Unit → Prop}
    {is : List (Intercept σ)} {is' : List (Intercept τ)}
    (h : List.Forall₂ (InterceptAlike R) is is') (tag : String) :
    Option.Rel (InterceptAlike R) (is.find? fun i => i.tag == tag)
      (is'.find? fun i => i.tag == tag) :=
  rel_find? h fun i i' hi => by rw [hi.tag]

-- =================================================================== steps

section

variable {s : Settings σ} {t : Settings τ} {R : Run σ Unit → Run τ Unit → Prop}
  {x : Run σ Unit} {x' : Run τ Unit}

namespace Sequential

theorem optional (c : Sequential R) (n : Node) (name : Option String)
    (v : Value) : R (bindOptional n name v) (bindOptional n name v) :=
  c.matching.optional (rfl : n = n) name v

theorem itemPasses (c : Sequential R) (n : Node) (spec : LoopSpec) (h : R x x')
    (i : Nat) (vs : List Value) :
    R (Template.itemPasses n spec x i vs)
      (Template.itemPasses n spec x' i vs) :=
  c.matching.itemPasses (rfl : n = n) spec h i vs

theorem wholePasses (c : Sequential R) (n : Node) (name : Option String)
    (h : R x x') (step : Int) (k : Nat) (i : Int) :
    R (wholePasses n name x step k i) (wholePasses n name x' step k i) :=
  c.matching.wholePasses (rfl : n = n) name h step k i

theorem runFloat (c : Sequential R)
    (hu : R (throw .unfinished) (throw .unfinished))
    (hp : s.passes = t.passes) (n : Node)
    (name : Option String) (r : Range Float) (h : R x x') :
    R (Template.runFloat s n name r x) (Template.runFloat t n name r x') :=
  c.matching.runFloat hu hp (rfl : n = n) name r h

end Sequential

namespace Stepwise

theorem explicitFailure (c : Stepwise s t R) (n : Node) :
    R (explicitFailure n) (explicitFailure n) :=
  c.matching.explicitFailure (rfl : n = n)

theorem doctypes (c : Stepwise s t R) (n : Node) :
    R (Template.doctype s n) (Template.doctype t n) :=
  c.matching.doctypes (rfl : n = n)

theorem assignment (c : Stepwise s t R) (n : Node) :
    R (assignment n) (assignment n) :=
  c.matching.assignment (rfl : n = n)

theorem defineAll (c : Stepwise s t R) (ns : List Node) :
    R (defineAll s ns) (defineAll t ns) :=
  c.matching.defineAll (forall₂_self ns)

theorem bindParams (c : Stepwise s t R) (n : Node) (children : List Node) :
    R (bindParams s n children) (bindParams t n children) :=
  c.matching.bindParams (rfl : n = n) (forall₂_self children)

theorem item (c : Stepwise s t R) (n : Node) (front back : Bool) (h : R x x') :
    R (item s n front back x) (item t n front back x') :=
  c.matching.item (rfl : n = n) front back h

end Stepwise

-- ============================================================ compositions

namespace Congruence

/-- What a copy does in its own scope. -/
theorem copying (c : Congruence s t R) (n : Node) (text : String)
    {cs : List (Node × Run σ Unit)} {cs' : List (Node × Run τ Unit)}
    (h : List.Forall₂ (PairAlike fun _ => R) cs cs') :
    R (do
        let source ← read (copySource n text)
        let whole ← read (copiesWhole n)
        let is ← read (intercepts s.uri n cs)
        copyFrom s is whole source)
      (do
        let source ← read (copySource n text)
        let whole ← read (copiesWhole n)
        let is ← read (intercepts t.uri n cs')
        copyFrom t is whole source) :=
  c.matching.copying (rfl : n = n) text
    (h.imp fun _ _ hp => ⟨hp.1, fun _ => hp.2⟩)

theorem includeDocument (c : Congruence s t R) {inner : Inner σ}
    {inner' : Inner τ} (hi : InnerAlike R inner inner') (n : Node)
    (href : String) :
    R (includeDocument s inner n href) (includeDocument t inner' n href) :=
  c.matching.includeDocument hi.matching (rfl : n = n) href

section

variable {inner : Option (Inner σ)} {inner' : Option (Inner τ)}

theorem element (c : Congruence s t R)
    (hi : Option.Rel (InnerAlike R) inner inner') (origin : Origin)
    (trail : List Tree) (tree : Tree) :
    R (Template.element s inner origin trail tree)
      (Template.element t inner' origin trail tree) :=
  c.matching.element (matching_inner hi)
    (rfl : (⟨origin, tree, trail⟩ : Node) = ⟨origin, tree, trail⟩)

theorem items (c : Congruence s t R)
    (hi : Option.Rel (InnerAlike R) inner inner') (origin : Origin)
    (trail : List Tree) (trim front : Bool) (ts : List Tree) :
    R (Template.items s inner origin trail trim front ts)
      (Template.items t inner' origin trail trim front ts) :=
  c.matching.items (c.matching.treesAlike (matching_inner hi) ts)
    (abreast_self origin trail ts) trim front

theorem body (c : Congruence s t R)
    (hi : Option.Rel (InnerAlike R) inner inner') (origin : Origin)
    (trail : List Tree) (tree : Tree) :
    R (body s inner origin trail tree) (body t inner' origin trail tree) :=
  (c.matching.treeAlike (matching_inner hi) tree).body
    (wholly_self ⟨origin, tree, trail⟩)

theorem cases (c : Congruence s t R)
    (hi : Option.Rel (InnerAlike R) inner inner') (origin : Origin)
    (trail : List Tree) (n : Node) (ts : List Tree) :
    R (Template.cases s inner origin trail n ts)
      (Template.cases t inner' origin trail n ts) :=
  c.matching.cases (rfl : n = n) (c.matching.treesAlike (matching_inner hi) ts)
    (abreast_self origin trail ts)

theorem replacements (c : Congruence s t R)
    (hi : Option.Rel (InnerAlike R) inner inner') (origin : Origin)
    (trail : List Tree) (ts : List Tree) :
    List.Forall₂ (PairAlike fun _ => R) (replacements s inner origin trail ts)
      (replacements t inner' origin trail ts) := by
  induction ts with
  | nil => exact .nil
  | cons tree ts ih => exact .cons ⟨rfl, c.body hi origin trail tree⟩ ih

theorem contents (c : Congruence s t R)
    (hi : Option.Rel (InnerAlike R) inner inner') (trim : Bool) (n : Node) :
    R (contents s inner trim n) (contents t inner' trim n) :=
  c.seq (c.defineAll n.children) (c.items hi n.origin _ trim trim _)

theorem execute (c : Congruence s t R)
    (hi : Option.Rel (InnerAlike R) inner inner') (n : Node) :
    R (execute s inner n) (execute t inner' n) :=
  c.matching.execute (matching_inner hi) (rfl : n = n)

end

/-- What may still be opened runs alike, to any depth. -/
theorem inner (c : Congruence s t R) (room : Nat) :
    Option.Rel (InnerAlike R) (inner? s room) (inner? t room) := by
  induction room with
  | zero => exact .none
  | succ room ih => exact .some ⟨execute c ih, contents c ih true⟩

end Congruence

end

end Stencil.Template
