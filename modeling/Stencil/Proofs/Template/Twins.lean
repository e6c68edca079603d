/-
What is read from twins.

A reading looks at the elements and texts of a node and not at its number, its
place or the comments in it, and at values through expressions only. So at
twins, where names mean twins, the same texts are read and twins as values; or
both readings stop for the same reason, at the same attribute of twins
(`ReadTwin`).
-/
import Stencil.Proofs.Expr.Twins
import Stencil.Template.Interpreter

namespace Stencil.Template

open Stencil.Expr (Value Environment Outcome isValidName)
open Markup (Node Attribute Renumbering)

variable {r : Renumbering} {n n' : Node}

-- ============================================================= diagnostics

/-- The same reason, at the same attribute of twins. -/
structure Diagnostic.Twin (r : Renumbering) (d d' : Diagnostic) : Prop where
  reason : d.reason = d'.reason
  attr : d.attr = d'.attr
  node : Option.Rel (Node.Twin r) d.node d'.node

theorem Diagnostic.twin_about (h : n.Twin r n') (reason : Reason) :
    (Diagnostic.about n reason).Twin r (.about n' reason) :=
  ⟨rfl, rfl, .some h⟩

theorem Diagnostic.twin_on (h : n.Twin r n') (attr : String)
    (reason : Reason) :
    (Diagnostic.on n attr reason).Twin r (.on n' attr reason) :=
  ⟨rfl, rfl, .some h⟩

-- ================================================================ readings

section

variable {α β γ δ : Type} {Q : α → β → Prop}

/-- Where names mean twins, both readings come out alike. -/
def ReadTwin (r : Renumbering) (Q : α → β → Prop) (x : Reading α)
    (x' : Reading β) : Prop :=
  ∀ env env' : Environment, env.Twin r env' →
    Paired (Diagnostic.Twin r) Q (x env) (x' env')

/-- What is read is the same. -/
abbrev ReadSame (r : Renumbering) (x x' : Reading α) : Prop :=
  ReadTwin r (· = ·) x x'

theorem twin_pure {a : α} {b : β} (h : Q a b) :
    ReadTwin r Q (pure a) (pure b) :=
  fun _ _ _ => .ok h

theorem same_pure (a : α) : ReadSame r (pure a) (pure a) := twin_pure rfl

theorem twin_throw {d d' : Diagnostic} (h : d.Twin r d') :
    ReadTwin r Q (throw d : Reading α) (throw d' : Reading β) :=
  fun _ _ _ => .error h

theorem ReadTwin.bind {Q' : γ → δ → Prop} {x : Reading α} {x' : Reading β}
    {f : α → Reading γ} {f' : β → Reading δ} (hx : ReadTwin r Q x x')
    (hf : ∀ a b, Q a b → ReadTwin r Q' (f a) (f' b)) :
    ReadTwin r Q' (x >>= f) (x' >>= f') :=
  fun env env' henv =>
    (hx env env' henv).bind fun a b hab => hf a b hab env env' henv

/-- The same is read first. -/
theorem ReadTwin.same_bind {Q' : γ → δ → Prop} {x x' : Reading α}
    {f : α → Reading γ} {f' : α → Reading δ} (hx : ReadSame r x x')
    (hf : ∀ a, ReadTwin r Q' (f a) (f' a)) :
    ReadTwin r Q' (x >>= f) (x' >>= f') :=
  hx.bind fun a _ hab => hab ▸ hf a

theorem twin_evaluating (h : n.Twin r n') (attr : Option String)
    (subject : Subject) {f : Environment → Except Expr.Error α}
    {f' : Environment → Except Expr.Error β}
    (hf : ∀ env env', env.Twin r env' → Outcome Q (f env) (f' env')) :
    ReadTwin r Q (evaluating n attr subject f)
      (evaluating n' attr subject f') := by
  intro env env' henv
  have hmap {α : Type} (m : Node) (f : Environment → Except Expr.Error α)
      (env : Environment) : evaluating m attr subject f env
        = (f env).mapError fun e => ⟨.expression subject e, some m, attr⟩ := rfl
  rw [hmap, hmap]
  have outcome := hf env env' henv
  generalize f env = x at outcome ⊢
  generalize f' env' = x' at outcome ⊢
  cases outcome with
  | ok hab => exact .ok hab
  | error he => exact .error ⟨congrArg (Reason.expression subject) he, rfl, .some h⟩

end

-- ============================================================== attributes

section

variable (h : n.Twin r n')
include h

theorem same_text (attr : Option String) (subject : Subject) (text : String) :
    ReadSame r (evaluating n attr subject (Expr.substitute · text))
      (evaluating n' attr subject (Expr.substitute · text)) :=
  twin_evaluating h attr subject fun _ _ henv =>
    Expr.substitute_twin henv text ▸ Paired.refl _

theorem same_substituted (name : String) :
    ReadSame r (substituted n name) (substituted n' name) := by
  unfold substituted
  rw [h.attribute?]
  cases n'.attribute? name with
  | none => exact same_pure _
  | some raw => exact (same_text h _ _ _).same_bind fun _ => same_pure _

theorem same_identifier (name : String) (reason : Reason) :
    ReadSame r (identifier n name reason) (identifier n' name reason) := by
  refine (same_substituted h name).same_bind fun text => ?_
  cases text with
  | none => exact same_pure _
  | some text =>
    dsimp only
    split
    · exact same_pure _
    · exact twin_throw (Diagnostic.twin_on h name reason)

theorem same_requiredName : ReadSame r (requiredName n) (requiredName n') := by
  refine (same_substituted h "name").same_bind fun text => ?_
  cases text with
  | none => exact twin_throw (Diagnostic.twin_on h _ _)
  | some text =>
    dsimp only
    split
    · exact same_pure _
    · exact twin_throw (Diagnostic.twin_on h _ _)

theorem twin_valueOf (name text : String) :
    ReadTwin r (Value.Twin r) (valueOf n name text) (valueOf n' name text) :=
  twin_evaluating h _ _ fun _ _ henv => Expr.twin_evaluate henv text

theorem twin_requiredValue :
    ReadTwin r (Value.Twin r) (requiredValue n) (requiredValue n') := by
  refine (same_substituted h "value").same_bind fun text => ?_
  cases text with
  | none => exact twin_throw (Diagnostic.twin_on h _ _)
  | some text => exact twin_valueOf h "value" text

theorem same_truth (text : String) :
    ReadSame r (truth n text) (truth n' text) :=
  (twin_valueOf h "test" text).bind fun _ _ hv =>
    twin_evaluating h _ _ fun _ _ _ => hv.asBool ▸ Paired.refl _

-- ================================================================== guards

theorem same_included (uri : String) :
    ReadSame r (included uri n) (included uri n') := by
  unfold included
  rw [h.attributeIn?]
  cases n'.attributeIn? uri "if" with
  | none => exact same_pure _
  | some a =>
    refine twin_evaluating h _ _ fun env env' henv => ?_
    unfold guardHolds
    rw [Expr.substitute_twin henv]
    refine (Paired.refl _).bind fun text _ htext => ?_
    subst htext
    split
    · exact .ok rfl
    · exact (Expr.twin_evaluate henv text).bind fun v v' hv =>
        hv.asBool ▸ Paired.refl _

theorem same_ofNode? (uri : String) :
    Directive.ofNode? uri n = Directive.ofNode? uri n' := by
  unfold Directive.ofNode?
  rw [h.element?]

theorem same_admitted (uri : String) (within kind : Directive)
    {child child' : Node} (hc : child.Twin r child') :
    ReadSame r (admitted uri n within kind child)
      (admitted uri n' within kind child') := by
  unfold admitted
  rw [hc.isElement, hc.isInsignificant, same_ofNode? hc]
  split
  · split
    · exact same_pure _
    · exact twin_throw (Diagnostic.twin_about h _)
  · refine (same_included hc uri).same_bind fun b => ?_
    split
    · exact same_pure _
    · split
      · exact same_pure _
      · exact twin_throw (Diagnostic.twin_about hc _)

theorem same_caseApplies {σ τ : Type} {s : Settings σ} {t : Settings τ}
    (huri : s.uri = t.uri) {child child' : Node} (hc : child.Twin r child') :
    ReadSame r (caseApplies s n child) (caseApplies t n' child') := by
  unfold caseApplies
  rw [huri]
  refine (same_admitted h _ _ _ hc).same_bind fun b => ?_
  split
  · refine (same_substituted hc "test").same_bind fun test => ?_
    cases test with
    | none => exact same_pure _
    | some test => exact same_truth hc test
  · exact same_pure _

-- ================================================================ literals

theorem same_literalAttributes (uri : String) (as : List Attribute) :
    ReadSame r (literalAttributes uri n as) (literalAttributes uri n' as) := by
  induction as with
  | nil => exact same_pure _
  | cons a rest ih =>
    unfold literalAttributes
    split
    · exact ih
    · refine (same_text h _ _ _).same_bind fun value => ?_
      exact ih.same_bind fun others => same_pure _

-- =================================================================== loops

theorem same_loopSpec : ReadSame r (loopSpec n) (loopSpec n') := by
  refine (same_identifier h "name" _).same_bind fun _ => ?_
  refine (same_substituted h "collection").same_bind fun _ => ?_
  refine (same_substituted h "from").same_bind fun _ => ?_
  refine (same_substituted h "to").same_bind fun _ => ?_
  refine (same_substituted h "by").same_bind fun _ => ?_
  refine (same_identifier h "index" _).same_bind fun _ => ?_
  exact same_pure _

end

/-- Bounds that are given on both sides, by twins. -/
structure Bounds.Twin (r : Renumbering) (b b' : Bounds) : Prop where
  first : Option.Rel (Value.Twin r) b.first b'.first
  last : Option.Rel (Value.Twin r) b.last b'.last
  step : Option.Rel (Value.Twin r) b.step b'.step

theorem Bounds.Twin.isFloating {b b' : Bounds} (h : b.Twin r b') :
    b.isFloating = b'.isFloating := by
  have any {v v' : Option Value} (hv : Option.Rel (Value.Twin r) v v') :
      v.any (·.isFloating) = v'.any (·.isFloating) := by
    cases hv with
    | none => rfl
    | some hv => exact hv.isFloating
  unfold Bounds.isFloating
  rw [any h.first, any h.last, any h.step]

/-- Loops over twins, or over ranges with twins as bounds. -/
inductive LoopKind.Twin (r : Renumbering) : LoopKind → LoopKind → Prop
  | items {vs vs' : List Value} (h : List.Forall₂ (Value.Twin r) vs vs') :
    Twin r (.items vs) (.items vs')
  | range {b b' : Bounds} (h : b.Twin r b') : Twin r (.range b) (.range b')

section

variable (h : n.Twin r n')
include h

theorem twin_bound (name : String) (text : Option String) :
    ReadTwin r (Option.Rel (Value.Twin r)) (bound n name text)
      (bound n' name text) := by
  cases text with
  | none => exact twin_pure .none
  | some text =>
    exact (twin_valueOf h name text).bind fun _ _ hv => twin_pure (.some hv)

theorem twin_bounds (spec : LoopSpec) :
    ReadTwin r (Bounds.Twin r) (bounds n spec) (bounds n' spec) := by
  refine (twin_bound h "from" spec.first).bind fun _ _ hfirst => ?_
  refine (twin_bound h "to" spec.last).bind fun _ _ hlast => ?_
  refine (twin_bound h "by" spec.step).bind fun _ _ hstep => ?_
  exact twin_pure ⟨hfirst, hlast, hstep⟩

theorem twin_collectionItems (text : String) :
    ReadTwin r (List.Forall₂ (Value.Twin r)) (collectionItems n text)
      (collectionItems n' text) := by
  refine (twin_valueOf h "collection" text).bind fun v v' hv => ?_
  have items := hv.items?
  rw [hv.kind]
  generalize v.items? = vs at items ⊢
  generalize v'.items? = vs' at items ⊢
  cases items with
  | none => exact twin_throw (Diagnostic.twin_on h _ _)
  | some items => exact twin_pure items

theorem twin_loopKind (spec : LoopSpec) :
    ReadTwin r (LoopKind.Twin r) (loopKind n spec) (loopKind n' spec) := by
  unfold loopKind
  cases spec.collection with
  | some text =>
    dsimp only
    split
    · exact twin_throw (Diagnostic.twin_about h _)
    · exact (twin_collectionItems h text).bind fun _ _ hvs =>
        twin_pure (.items hvs)
  | none =>
    dsimp only
    split
    · exact twin_throw (Diagnostic.twin_about h _)
    · split
      · exact twin_throw (Diagnostic.twin_about h _)
      · exact (twin_bounds h spec).bind fun _ _ hb => twin_pure (.range hb)

theorem same_wholeBound (name : String) (default : Int64)
    {v v' : Option Value} (hv : Option.Rel (Value.Twin r) v v') :
    ReadSame r (wholeBound n name default v)
      (wholeBound n' name default v') := by
  cases hv with
  | none => exact same_pure _
  | @some v v' hv =>
    unfold wholeBound
    dsimp only
    rw [hv.asInt]
    cases v'.asInt with
    | ok i => exact same_pure _
    | error e => exact twin_throw (Diagnostic.twin_on h _ _)

theorem same_floatBound (name : String) (default : Float)
    {v v' : Option Value} (hv : Option.Rel (Value.Twin r) v v') :
    ReadSame r (floatBound n name default v)
      (floatBound n' name default v') := by
  cases hv with
  | none => exact same_pure _
  | @some v v' hv =>
    unfold floatBound
    dsimp only
    rw [hv.asFloat]
    cases v'.asFloat with
    | ok f => exact same_pure _
    | error e => exact twin_throw (Diagnostic.twin_on h _ _)

theorem same_wholeRange {b b' : Bounds} (hb : b.Twin r b') :
    ReadSame r (wholeRange n b) (wholeRange n' b') := by
  refine (same_wholeBound h "from" 0 hb.first).same_bind fun _ => ?_
  refine (same_wholeBound h "to" 0 hb.last).same_bind fun _ => ?_
  refine (same_wholeBound h "by" 1 hb.step).same_bind fun step => ?_
  split
  · exact twin_throw (Diagnostic.twin_on h _ _)
  · exact same_pure _

theorem same_floatRange {b b' : Bounds} (hb : b.Twin r b') :
    ReadSame r (floatRange n b) (floatRange n' b') := by
  refine (same_floatBound h "from" _ hb.first).same_bind fun _ => ?_
  refine (same_floatBound h "to" _ hb.last).same_bind fun _ => ?_
  refine (same_floatBound h "by" _ hb.step).same_bind fun step => ?_
  split
  · exact same_pure _
  · exact twin_throw (Diagnostic.twin_on h _ _)

-- ================================================================== copies

theorem same_interceptSpec :
    ReadSame r (interceptSpec n) (interceptSpec n') := by
  refine (same_substituted h "element").same_bind fun tag => ?_
  cases tag with
  | none => exact twin_throw (Diagnostic.twin_on h _ _)
  | some tag =>
    exact (same_identifier h "name" _).same_bind fun _ => same_pure _

theorem twin_copySource (text : String) :
    ReadTwin r (Node.Twin r) (copySource n text) (copySource n' text) := by
  refine (twin_valueOf h "element" text).bind fun v v' hv => ?_
  cases hv with
  | element hsource =>
    dsimp only
    rw [hsource.isElement]
    split
    · exact twin_pure hsource
    · exact twin_throw (Diagnostic.twin_on h _ _)
  | _ => exact twin_throw (Diagnostic.twin_on h _ _)

theorem same_copiesWhole : ReadSame r (copiesWhole n) (copiesWhole n') := by
  refine (same_substituted h "option").same_bind fun option => ?_
  split
  · exact same_pure _
  · exact same_pure _
  · exact twin_throw (Diagnostic.twin_on h _ _)

end

end Stencil.Template
