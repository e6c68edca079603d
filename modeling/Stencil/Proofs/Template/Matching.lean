/-
Readings at nodes that are like each other.

A reading looks at what a node and the nodes around it hold: at its content, at
whether there is anything inside, and at what qualifiers stand for there. It
does not look at the place of a node or the document that it is of. A relation
between nodes that hold the same in this sense is a `Likeness`. At nodes that
are alike, with the same names in scope, the same is read; or both readings stop
for the same reason, at the same attribute of nodes that are alike.

Whatever a reading stops with names a node and is no fault of the output:
such diagnostics are `Located`. Any other comes from the output alone.
-/
import Stencil.Proofs.Template.Outcome
import Stencil.Template.Interpreter

namespace Stencil.Template

open Stencil.Expr (Value Environment isValidName)
open Markup (Node Attribute Document Origin Tree)

-- ============================================================= diagnostics

/-- A diagnostic that names a node of a template and does not blame the
output. -/
structure Diagnostic.Located (d : Diagnostic) : Prop where
  node : d.node.isSome
  kind : d.kind ≠ .output

theorem Diagnostic.located_about (n : Node) {reason : Reason}
    (h : reason.kind ≠ .output) : (Diagnostic.about n reason).Located :=
  ⟨rfl, h⟩

theorem Diagnostic.located_on (n : Node) (attr : String) {reason : Reason}
    (h : reason.kind ≠ .output) : (Diagnostic.on n attr reason).Located :=
  ⟨rfl, h⟩

/-- Every diagnostic that a reading stops with is located. -/
def Reading.Located {α : Type} (r : Reading α) : Prop :=
  ∀ env d, r env = .error d → d.Located

-- =================================================================== nodes

/-- A relation between nodes that hold the same. -/
class Likeness (N : Node → Node → Prop) : Prop where
  content {n n' : Node} (h : N n n') : n.content = n'.content
  isContentEmpty {n n' : Node} (h : N n n') :
    n.isContentEmpty = n'.isContentEmpty
  resolve? {n n' : Node} (h : N n n') (q : Option String) :
    n.resolve? q = n'.resolve? q

/-- A node is like itself only. -/
instance : Likeness (· = ·) where
  content h := h ▸ rfl
  isContentEmpty h := h ▸ rfl
  resolve? h _ := h ▸ rfl

namespace Likeness

variable {N : Node → Node → Prop} [Likeness N] {n n' : Node}

theorem element? (h : N n n') : n.element? = n'.element? :=
  congrArg Markup.Content.element? (content h)

theorem attribute? (h : N n n') (name : String) :
    n.attribute? name = n'.attribute? name := by
  unfold Node.attribute?
  rw [element? h]

theorem attributeIn? (h : N n n') (uri localPart : String) :
    n.attributeIn? uri localPart = n'.attributeIn? uri localPart := by
  unfold Node.attributeIn?
  rw [element? h]

theorem isElement (h : N n n') : n.isElement = n'.isElement :=
  congrArg Option.isSome (element? h)

theorem isInsignificant (h : N n n') :
    n.isInsignificant = n'.isInsignificant :=
  congrArg Markup.Content.isInsignificant (content h)

theorem ofNode? (h : N n n') (uri : String) :
    Directive.ofNode? uri n = Directive.ofNode? uri n' := by
  unfold Directive.ofNode?
  rw [element? h]

theorem tag? (h : N n n') : n.tag? = n'.tag? := by
  unfold Node.tag?
  rw [element? h]

end Likeness

open Likeness

section

variable {N : Node → Node → Prop} {n n' : Node}

-- =============================================================== outcomes

/-- Located diagnostics of the same reason, at the same attribute of nodes that
are alike. -/
structure Diagnostic.Matches (N : Node → Node → Prop) (d d' : Diagnostic) :
    Prop where
  reason : d.reason = d'.reason
  attr : d.attr = d'.attr
  node : Option.Rel N d.node d'.node
  located : d.Located

theorem Diagnostic.matches_about (h : N n n') {reason : Reason}
    (hkind : reason.kind ≠ .output) :
    (Diagnostic.about n reason).Matches N (.about n' reason) :=
  ⟨rfl, rfl, .some h, located_about n hkind⟩

theorem Diagnostic.matches_on (h : N n n') (attr : String)
    {reason : Reason} (hkind : reason.kind ≠ .output) :
    (Diagnostic.on n attr reason).Matches N (.on n' attr reason) :=
  ⟨rfl, rfl, .some h, located_on n attr hkind⟩

/-- Diagnostics about the same nodes match if they are the same. -/
theorem Diagnostic.matches_eq_iff {d d' : Diagnostic} :
    d.Matches (· = ·) d' ↔ d = d' ∧ d.Located := by
  constructor
  · intro h
    refine ⟨?_, h.located⟩
    obtain ⟨reason, node, attr⟩ := d
    obtain ⟨reason', node', attr'⟩ := d'
    obtain ⟨rfl, rfl, hnode, -⟩ := h
    cases hnode with
    | none => rfl
    | some hn =>
      cases hn
      rfl
  · rintro ⟨rfl, hlocated⟩
    refine ⟨rfl, rfl, ?_, hlocated⟩
    cases d.node with
    | none => exact .none
    | some n => exact .some rfl

/-- Diagnostics of the same reason, at the same attribute of nodes that are
alike, or of none. -/
structure Diagnostic.Alike (N : Node → Node → Prop) (d d' : Diagnostic) :
    Prop where
  reason : d.reason = d'.reason
  attr : d.attr = d'.attr
  node : Option.Rel N d.node d'.node

theorem Diagnostic.Matches.alike {d d' : Diagnostic} (h : d.Matches N d') :
    d.Alike N d' :=
  ⟨h.reason, h.attr, h.node⟩

theorem Diagnostic.alike_general (N : Node → Node → Prop) (reason : Reason) :
    (Diagnostic.general reason).Alike N (.general reason) :=
  ⟨rfl, rfl, .none⟩

variable {α β γ δ : Type}

/-- What is read comes out alike: with related values, or with matching
diagnostics. -/
inductive Agree (N : Node → Node → Prop) (Q : α → β → Prop) :
    Except Diagnostic α → Except Diagnostic β → Prop
  | ok {a : α} {b : β} (h : Q a b) : Agree N Q (.ok a) (.ok b)
  | error {d d' : Diagnostic} (h : d.Matches N d') :
    Agree N Q (.error d) (.error d')

/-- With the same names in scope two readings come out alike. -/
def ReadAlike (N : Node → Node → Prop) (Q : α → β → Prop) (r : Reading α)
    (r' : Reading β) : Prop :=
  ∀ env, Agree N Q (r env) (r' env)

theorem alike_pure (a : α) : ReadAlike N (· = ·) (pure a) (pure a) :=
  fun _ => .ok rfl

theorem alike_throw {Q : α → β → Prop} {d d' : Diagnostic}
    (h : d.Matches N d') :
    ReadAlike N Q (throw d : Reading α) (throw d' : Reading β) :=
  fun _ => .error h

theorem agree_bind {Q : α → β → Prop} {Q' : γ → δ → Prop} {r : Reading α}
    {r' : Reading β} {f : α → Reading γ} {f' : β → Reading δ}
    {env : Environment} (hr : Agree N Q (r env) (r' env))
    (hf : ∀ a b, Q a b → Agree N Q' (f a env) (f' b env)) :
    Agree N Q' ((r >>= f) env) ((r' >>= f') env) := by
  have hbind : (r >>= f) env = (r env >>= fun a => f a env) := rfl
  have hbind' : (r' >>= f') env = (r' env >>= fun b => f' b env) := rfl
  rw [hbind, hbind']
  generalize r env = x at hr ⊢
  generalize r' env = x' at hr ⊢
  cases hr with
  | ok h => exact hf _ _ h
  | error h => exact .error h

/-- The same is read first, and then what comes of it alike. -/
theorem alike_bind {Q : γ → δ → Prop} {r r' : Reading α} {f : α → Reading γ}
    {f' : α → Reading δ} (hr : ReadAlike N (· = ·) r r')
    (hf : ∀ a, ReadAlike N Q (f a) (f' a)) :
    ReadAlike N Q (r >>= f) (r' >>= f') := by
  intro env
  refine agree_bind (hr env) ?_
  rintro a _ rfl
  exact hf a env

/-- The same is read, and it is known what that can be. -/
theorem ReadAlike.known {r r' : Reading α} {P : α → Prop}
    (h : ReadAlike N (· = ·) r r') (hP : ∀ env a, r env = .ok a → P a) :
    ReadAlike N (fun a b => a = b ∧ P a) r r' := by
  intro env
  have hagree := h env
  cases hr : r env with
  | ok a =>
    rw [hr] at hagree
    generalize r' env = y at hagree ⊢
    cases hagree with
    | ok hab => exact .ok ⟨hab, hP env a hr⟩
  | error d =>
    rw [hr] at hagree
    generalize r' env = y at hagree ⊢
    cases hagree with
    | error hd => exact .error hd

theorem alike_evaluating (h : N n n') (attr : Option String)
    (subject : Subject) (f : Environment → Except Expr.Error α) :
    ReadAlike N (· = ·) (evaluating n attr subject f)
      (evaluating n' attr subject f) := by
  intro env
  have hmap (m : Node) : evaluating m attr subject f env
      = (f env).mapError fun e => ⟨.expression subject e, some m, attr⟩ := rfl
  rw [hmap, hmap]
  cases f env with
  | ok a => exact .ok rfl
  | error e => exact .error ⟨rfl, rfl, .some h, rfl, nofun⟩

-- ================================================================== values

theorem alike_valueOf (h : N n n') (name text : String) :
    ReadAlike N (· = ·) (valueOf n name text) (valueOf n' name text) :=
  alike_evaluating h _ _ _

theorem alike_truth (h : N n n') (text : String) :
    ReadAlike N (· = ·) (truth n text) (truth n' text) :=
  alike_bind (alike_valueOf h "test" text) fun _ => alike_evaluating h _ _ _

theorem alike_copySource (h : N n n') (text : String) :
    ReadAlike N (· = ·) (copySource n text) (copySource n' text) := by
  refine alike_bind (alike_valueOf h "element" text) fun v => ?_
  split
  · split
    · exact alike_pure _
    · exact alike_throw (Diagnostic.matches_on h "element" nofun)
  · exact alike_throw (Diagnostic.matches_on h "element" nofun)

-- ================================================================ literals

theorem alike_literalAttributes (h : N n n') (uri : String)
    (as : List Attribute) :
    ReadAlike N (· = ·) (literalAttributes uri n as)
      (literalAttributes uri n' as) := by
  induction as with
  | nil => exact alike_pure _
  | cons a rest ih =>
    unfold literalAttributes
    split
    · exact ih
    · refine alike_bind (alike_evaluating h _ _ _) fun value => ?_
      exact alike_bind ih fun others => alike_pure _

theorem alike_literalText (h : N n n') (data : String) :
    ReadAlike N (· = ·) (literalText n data) (literalText n' data) :=
  alike_evaluating h _ _ _

-- =================================================== what a loop goes over

theorem alike_bound (h : N n n') (name : String)
    (text : Option String) :
    ReadAlike N (· = ·) (bound n name text) (bound n' name text) := by
  cases text with
  | none => exact alike_pure _
  | some text =>
    exact alike_bind (alike_valueOf h name text) fun _ => alike_pure _

theorem alike_bounds (h : N n n') (spec : LoopSpec) :
    ReadAlike N (· = ·) (bounds n spec) (bounds n' spec) := by
  refine alike_bind (alike_bound h "from" spec.first) fun _ => ?_
  refine alike_bind (alike_bound h "to" spec.last) fun _ => ?_
  refine alike_bind (alike_bound h "by" spec.step) fun _ => ?_
  exact alike_pure _

theorem alike_collectionItems (h : N n n') (text : String) :
    ReadAlike N (· = ·) (collectionItems n text) (collectionItems n' text) := by
  refine alike_bind (alike_valueOf h "collection" text) fun v => ?_
  cases v.items? with
  | none => exact alike_throw (Diagnostic.matches_on h "collection" nofun)
  | some items => exact alike_pure _

theorem alike_loopKind (h : N n n') (spec : LoopSpec) :
    ReadAlike N (· = ·) (loopKind n spec) (loopKind n' spec) := by
  unfold loopKind
  cases spec.collection with
  | some text =>
    dsimp only
    split
    · exact alike_throw (Diagnostic.matches_about h nofun)
    · exact alike_bind (alike_collectionItems h text) fun _ => alike_pure _
  | none =>
    dsimp only
    split
    · exact alike_throw (Diagnostic.matches_about h nofun)
    · split
      · exact alike_throw (Diagnostic.matches_about h nofun)
      · exact alike_bind (alike_bounds h spec) fun _ => alike_pure _

theorem alike_wholeBound (h : N n n') (name : String) (default : Int64)
    (v : Option Value) :
    ReadAlike N (· = ·) (wholeBound n name default v)
      (wholeBound n' name default v) := by
  cases v with
  | none => exact alike_pure _
  | some v =>
    unfold wholeBound
    dsimp only
    cases v.asInt with
    | ok i => exact alike_pure _
    | error e => exact alike_throw (Diagnostic.matches_on h name nofun)

theorem alike_floatBound (h : N n n') (name : String) (default : Float)
    (v : Option Value) :
    ReadAlike N (· = ·) (floatBound n name default v)
      (floatBound n' name default v) := by
  cases v with
  | none => exact alike_pure _
  | some v =>
    unfold floatBound
    dsimp only
    cases v.asFloat with
    | ok f => exact alike_pure _
    | error e => exact alike_throw (Diagnostic.matches_on h name nofun)

theorem alike_wholeRange (h : N n n') (b : Bounds) :
    ReadAlike N (· = ·) (wholeRange n b) (wholeRange n' b) := by
  refine alike_bind (alike_wholeBound h "from" 0 b.first) fun _ => ?_
  refine alike_bind (alike_wholeBound h "to" 0 b.last) fun _ => ?_
  refine alike_bind (alike_wholeBound h "by" 1 b.step) fun step => ?_
  split
  · exact alike_throw (Diagnostic.matches_on h "by" nofun)
  · exact alike_pure _

theorem alike_floatRange (h : N n n') (b : Bounds) :
    ReadAlike N (· = ·) (floatRange n b) (floatRange n' b) := by
  refine alike_bind (alike_floatBound h "from" _ b.first) fun _ => ?_
  refine alike_bind (alike_floatBound h "to" _ b.last) fun _ => ?_
  refine alike_bind (alike_floatBound h "by" _ b.step) fun step => ?_
  split
  · exact alike_pure _
  · exact alike_throw (Diagnostic.matches_on h "by" nofun)

variable [Likeness N]

-- ============================================================== attributes

theorem alike_substituted (h : N n n') (name : String) :
    ReadAlike N (· = ·) (substituted n name) (substituted n' name) := by
  unfold substituted
  rw [attribute? h]
  cases n'.attribute? name with
  | none => exact alike_pure _
  | some raw =>
    exact alike_bind (alike_evaluating h _ _ _) fun _ => alike_pure _

theorem alike_identifier (h : N n n') (name : String) {reason : Reason}
    (hkind : reason.kind ≠ .output) :
    ReadAlike N (· = ·) (identifier n name reason)
      (identifier n' name reason) := by
  refine alike_bind (alike_substituted h name) fun text => ?_
  cases text with
  | none => exact alike_pure _
  | some text =>
    dsimp only
    split
    · exact alike_pure _
    · exact alike_throw (Diagnostic.matches_on h name hkind)

theorem alike_requiredName (h : N n n') :
    ReadAlike N (· = ·) (requiredName n) (requiredName n') := by
  refine alike_bind (alike_substituted h "name") fun text => ?_
  cases text with
  | none => exact alike_throw (Diagnostic.matches_on h "name" nofun)
  | some text =>
    dsimp only
    split
    · exact alike_pure _
    · exact alike_throw (Diagnostic.matches_on h "name" nofun)

theorem alike_requiredValue (h : N n n') :
    ReadAlike N (· = ·) (requiredValue n) (requiredValue n') := by
  refine alike_bind (alike_substituted h "value") fun text => ?_
  cases text with
  | none => exact alike_throw (Diagnostic.matches_on h "value" nofun)
  | some text => exact alike_valueOf h "value" text

-- ================================================================== guards

/-- What is admitted is of the kind that is looked for. -/
theorem ofNode?_admitted {uri : String} {n child : Node}
    {within kind : Directive} {env : Environment}
    (h : admitted uri n within kind child env = .ok true) :
    Directive.ofNode? uri child = some kind := by
  unfold admitted at h
  split at h
  · split at h <;> cases h
  · obtain ⟨b, -, h⟩ := exists_of_reading_ok h
    split at h
    · cases h
    · split at h
      · next hkind => exact hkind
      · cases h

theorem ofNode?_caseApplies {σ : Type} {s : Settings σ} {n child : Node}
    {env : Environment}
    (h : caseApplies s n child env = .ok true) :
    Directive.ofNode? s.uri child = some .case := by
  obtain ⟨b, hb, h⟩ := exists_of_reading_ok h
  cases b with
  | true => exact ofNode?_admitted hb
  | false => cases h

theorem alike_included (h : N n n') (uri : String) :
    ReadAlike N (· = ·) (included uri n) (included uri n') := by
  unfold included
  rw [attributeIn? h]
  cases n'.attributeIn? uri "if" with
  | none => exact alike_pure _
  | some a => exact alike_evaluating h _ _ _

theorem alike_admitted (h : N n n') (uri : String)
    (within kind : Directive) {child child' : Node}
    (hc : N child child') :
    ReadAlike N (· = ·) (admitted uri n within kind child)
      (admitted uri n' within kind child') := by
  unfold admitted
  rw [isElement hc, isInsignificant hc, ofNode? hc]
  split
  · split
    · exact alike_pure _
    · exact alike_throw (Diagnostic.matches_about h nofun)
  · refine alike_bind (alike_included hc uri) fun b => ?_
    split
    · exact alike_pure _
    · split
      · exact alike_pure _
      · exact alike_throw (Diagnostic.matches_about hc nofun)

theorem alike_caseApplies {σ : Type} (s : Settings σ) (h : N n n')
    {child child' : Node} (hc : N child child') :
    ReadAlike N (· = ·) (caseApplies s n child) (caseApplies s n' child') := by
  refine alike_bind (alike_admitted h _ _ _ hc) fun b => ?_
  split
  · refine alike_bind (alike_substituted hc "test") fun test => ?_
    cases test with
    | none => exact alike_pure _
    | some test => exact alike_truth hc test
  · exact alike_pure _

-- =================================================================== loops

theorem alike_loopSpec (h : N n n') :
    ReadAlike N (· = ·) (loopSpec n) (loopSpec n') := by
  refine alike_bind (alike_identifier h "name" nofun) fun _ => ?_
  refine alike_bind (alike_substituted h "collection") fun _ => ?_
  refine alike_bind (alike_substituted h "from") fun _ => ?_
  refine alike_bind (alike_substituted h "to") fun _ => ?_
  refine alike_bind (alike_substituted h "by") fun _ => ?_
  refine alike_bind (alike_identifier h "index" nofun) fun _ => ?_
  exact alike_pure _

-- ================================================================== copies

theorem alike_interceptSpec (h : N n n') :
    ReadAlike N (· = ·) (interceptSpec n) (interceptSpec n') := by
  refine alike_bind (alike_substituted h "element") fun tag => ?_
  cases tag with
  | none => exact alike_throw (Diagnostic.matches_on h "element" nofun)
  | some tag =>
    exact alike_bind (alike_identifier h "name" nofun) fun _ => alike_pure _

theorem alike_copiesWhole (h : N n n') :
    ReadAlike N (· = ·) (copiesWhole n) (copiesWhole n') := by
  refine alike_bind (alike_substituted h "option") fun option => ?_
  split
  · exact alike_pure _
  · exact alike_pure _
  · exact alike_throw (Diagnostic.matches_on h "option" nofun)

end

end Stencil.Template
