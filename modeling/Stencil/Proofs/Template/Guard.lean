/-
Guards. An element whose guard does not hold contributes nothing: wherever it
is met, the machine stays as it is and what comes next is processed as if the
element were not there. That is so for an element by itself, for one among
contents, and for a child of a switch, of a call and of a copy.

There are two places where guards are not looked at. Macros are defined before
the contents around them are processed, by `defineAll`, and the contents of a
template element that is a root are processed as they are.
-/
import Stencil.Proofs.Template.Frame

namespace Stencil.Template

open Stencil.Expr (isValidName)
open Markup (Attribute Node Tree)

variable {σ : Type}

/-- The guard of an element does not hold with the names in scope. -/
def Excluded (s : Settings σ) (m : Machine σ) (n : Node) : Prop :=
  included s.uri n m.scopes.environment = .ok false

section

variable {s : Settings σ} {inner : Option (Inner σ)} {m : Machine σ} {n : Node}

-- ================================================================= readings

/-- A guard that does not hold excludes the element. -/
theorem excluded_of_guard {a : Attribute}
    (ha : n.attributeIn? s.uri "if" = some a)
    (hfalse : guardHolds a.value m.scopes.environment = .ok false) :
    Excluded s m n := by
  unfold Excluded included evaluating
  rw [ha]
  dsimp only
  rw [hfalse]
  rfl

/-- Only elements have guards. -/
theorem Excluded.isElement (h : Excluded s m n) : n.isElement = true := by
  unfold Excluded included at h
  unfold Node.isElement
  cases he : n.element? with
  | some e => rfl
  | none =>
    rw [Node.attributeIn?, he] at h
    cases h

theorem Excluded.significant (h : Excluded s m n) :
    n.isInsignificant = false := by
  have he := h.isElement
  unfold Node.isElement Node.element? at he
  unfold Node.isInsignificant
  cases hc : n.content with
  | element e => rfl
  | _ =>
    rw [hc] at he
    cases he

/-- What an excluded element is not counted among what a directive holds,
whatever kind of element it is. -/
theorem Excluded.admitted (h : Excluded s m n) (parent : Node)
    (within kind : Directive) :
    admitted s.uri parent within kind n m.scopes.environment = .ok false := by
  unfold Template.admitted
  rw [h.isElement]
  show (included s.uri n m.scopes.environment >>= _) = _
  rw [show included s.uri n m.scopes.environment = .ok false from h]
  rfl

-- ================================================================ positions

theorem Excluded.perform (h : Excluded s m n) (below : Below σ) :
    perform s inner n below m = .ok () m := by
  unfold Template.perform
  rw [bind_ok (read_ok h)]
  rfl

theorem Excluded.element (h : Excluded s m n) :
    element s inner n.origin n.trail n.tree m = .ok () m := by
  obtain ⟨origin, ⟨label, ts⟩, trail⟩ := n
  unfold Template.element
  exact h.perform _

/-- A root, unless its contents alone are processed. -/
theorem Excluded.execute (h : Excluded s m n)
    (ht : Directive.ofNode? s.uri n ≠ some .template) :
    execute s inner n m = .ok () m := by
  unfold Template.execute
  rw [if_neg ht]
  exact h.element

/-- Among contents. -/
theorem Excluded.items (h : Excluded s m n) (trim front : Bool)
    (ts : List Tree) :
    items s inner n.origin n.trail trim front (n.tree :: ts) m
      = items s inner n.origin n.trail trim false ts m := by
  have hs : n.tree.isInsignificant = false := h.significant
  have hitem (back : Bool) :
      item s n front back (Template.element s inner n.origin n.trail n.tree) m
        = .ok () m := by
    have he := h.isElement
    unfold Node.isElement Node.element? at he
    unfold item
    cases hc : n.content with
    | element e =>
      dsimp only
      split
      · rfl
      · exact h.element
    | _ =>
      rw [hc] at he
      cases he
  -- an element is significant, so the text behind it is not at the front
  have hstep : Template.items s inner n.origin n.trail trim front (n.tree :: ts)
      = (do
          item s n front (trim && ts.all Tree.isInsignificant)
            (Template.element s inner n.origin n.trail n.tree)
          Template.items s inner n.origin n.trail trim false ts) := by
    rw [Template.items]
    simp only [hs, Bool.and_false, Bool.false_eq_true, if_false]
  rw [hstep]
  exact bind_ok (hitem _)

/-- Among the cases of a switch. -/
theorem Excluded.cases (h : Excluded s m n) (switch : Node) (ts : List Tree) :
    cases s inner n.origin n.trail switch (n.tree :: ts) m
      = cases s inner n.origin n.trail switch ts m := by
  have happlies : caseApplies s switch n m.scopes.environment = .ok false := by
    unfold caseApplies
    show (Template.admitted s.uri switch .switch .case n m.scopes.environment
      >>= _) = _
    rw [h.admitted]
    rfl
  rw [Template.cases]
  exact bind_ok (read_ok happlies)

/-- Among the parameters of a call. -/
theorem Excluded.bindParams (h : Excluded s m n) (call : Node)
    (rest : List Node) :
    bindParams s call (n :: rest) m = bindParams s call rest m := by
  rw [Template.bindParams]
  exact bind_ok (read_ok (h.admitted call .call .param))

/-- Among the intercepts of a copy. -/
theorem Excluded.intercepts (h : Excluded s m n) (copy : Node)
    (replacement : Run σ Unit) (rest : List (Node × Run σ Unit)) :
    intercepts s.uri copy ((n, replacement) :: rest) m.scopes.environment
      = intercepts s.uri copy rest m.scopes.environment := by
  rw [Template.intercepts]
  show (Template.admitted s.uri copy .copy .intercept n m.scopes.environment
    >>= _) = _
  rw [h.admitted]
  rfl

-- =================================================================== macros

/-- A name that no macro of the innermost scope has is defined there. -/
theorem define_new (scopes : Scopes) {name : String}
    (hnew : scopes.current.macros.lookup name = none) (n : Node) :
    ∃ scopes', scopes.define name n = .ok scopes'
      ∧ scopes'.defined? name = some n := by
  let current : Scope :=
    { scopes.current with macros := (name, n) :: scopes.current.macros }
  have hcurrent : scopes.current.define name n = .ok current := by
    rw [Scope.define, hnew]
  have hscopes : scopes.define name n
      = (scopes.current.define name n).map
          fun t => { scopes with current := t } := rfl
  refine ⟨{ scopes with current := current }, ?_, ?_⟩
  · rw [hscopes, hcurrent]
    rfl
  · have hlookup : current.macros.lookup name = some n :=
      List.lookup_cons_self
    unfold Scopes.defined? Scopes.all
    rw [List.findSome?_cons, hlookup]

/-- A macro among contents is defined whatever its guard says. -/
theorem defineAll_definition {name : String} {rest : List Node}
    (hd : Directive.ofNode? s.uri n = some .definition)
    (hn : (n.attribute? "name").getD "" = name)
    (hname : isValidName name = true)
    (hnew : m.scopes.current.macros.lookup name = none) :
    ∃ m', defineAll s (n :: rest) m = defineAll s rest m'
      ∧ m'.scopes.defined? name = some n := by
  obtain ⟨scopes, hscopes, hdefined⟩ := define_new m.scopes hnew n
  have hrun : define n m = .ok () { m with scopes := scopes } := by
    unfold define
    rw [hn, if_pos hname, onScope, hscopes]
  refine ⟨{ m with scopes := scopes }, ?_, hdefined⟩
  rw [defineAll, if_pos hd]
  exact bind_ok hrun

end

-- ============================================================= main results

/-- An element whose guard does not hold contributes nothing: processed by
itself, as a root that is no template, or among contents, cases, parameters or
intercepts. -/
theorem excluded_contributes_nothing (s : Settings σ)
    (inner : Option (Inner σ)) (m : Machine σ) (n : Node)
    (h : Excluded s m n) :
    element s inner n.origin n.trail n.tree m = .ok () m
    ∧ (Directive.ofNode? s.uri n ≠ some .template →
        execute s inner n m = .ok () m)
    ∧ (∀ trim front ts,
        items s inner n.origin n.trail trim front (n.tree :: ts) m
          = items s inner n.origin n.trail trim false ts m)
    ∧ (∀ switch ts,
        cases s inner n.origin n.trail switch (n.tree :: ts) m
          = cases s inner n.origin n.trail switch ts m)
    ∧ (∀ call rest,
        bindParams s call (n :: rest) m = bindParams s call rest m)
    ∧ ∀ copy (replacement : Run σ Unit) rest,
        intercepts s.uri copy ((n, replacement) :: rest)
            m.scopes.environment
          = intercepts s.uri copy rest m.scopes.environment :=
  ⟨h.element, h.execute, h.items, h.cases, h.bindParams, h.intercepts⟩

/-- The attribute of the namespace `x` that guards an element. -/
def guarded (text : String) : Attribute := ⟨.ofText "x:if", some "x", text⟩

/-- A template that is guarded by `false`, and holds a macro that is so too
and has no name. -/
def muted : Node :=
  ⟨.given 0,
    directive 1 "template" [guarded "false"]
      [directive 2 "macro" [guarded "false"] []], []⟩

/-- What a template holds is processed, and a macro in it is looked at, though
neither is included. -/
theorem guards_passed_over :
    let s : Settings Unit := ⟨"x", ⟨fun _ _ => ((), none)⟩, .memory [], 0⟩
    let m : Machine Unit := ⟨.single (.fresh muted none), 0, .empty, ()⟩
    Excluded s m muted
    ∧ ∀ n ∈ muted.children, Excluded s m n
      ∧ execute s (inner? s 1) muted m
        = .error (.failed (.on n "name" .macroName)) m := by
  intro s m
  have hfalse : guardHolds "false" m.scopes.environment = .ok false := by
    decide +kernel
  refine ⟨excluded_of_guard (a := guarded "false") rfl hfalse, ?_⟩
  intro n hn
  cases List.mem_singleton.1 hn
  exact ⟨excluded_of_guard (a := guarded "false") rfl hfalse, rfl⟩

/-- A case that is guarded by `false` is no case of a switch, whatever else is
wrong with it. -/
theorem excluded_case :
    let s : Settings Unit := ⟨"x", ⟨fun _ _ => ((), none)⟩, .memory [], 0⟩
    let m : Machine Unit := ⟨.single (.fresh muted none), 0, .empty, ()⟩
    let n : Node :=
      ⟨.given 0, directive 3 "copy" [guarded "false"] [], [muted.tree]⟩
    Excluded s m n
    ∧ cases s none n.origin n.trail muted [n.tree] m = .ok () m := by
  intro s m n
  have hfalse : guardHolds "false" m.scopes.environment = .ok false := by
    decide +kernel
  have h : Excluded s m n :=
    excluded_of_guard (a := guarded "false") rfl hfalse
  refine ⟨h, ?_⟩
  rw [(excluded_contributes_nothing s none m n h).2.2.2.1 muted []]
  rfl

end Stencil.Template
