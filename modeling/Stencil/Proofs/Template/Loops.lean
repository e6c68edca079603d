/-
Loops, and their passes.

A pass binds the variable of the loop and then processes the body. The passes of
a loop follow each other in one scope. What a pass makes of the variable is no
matter to the next one, which binds it again; that it can be bound is for
`Steady` to say, as no run makes a constant in the scope that it starts in. So
there are two things that can happen to so many passes: all go well
(`Passes`), or the body fails in one of them (`Interrupted`).

A loop over a range has its bounds read first (`RangeLoop`), and then it depends
on them what it is.
-/
import Stencil.Proofs.Expr.Reading
import Stencil.Proofs.Template.Frame

namespace Stencil.Template

open Stencil.Expr (Value)
open Markup (Node)

variable {σ : Type} {m m' : Machine σ} {name : Option String}
  {value : Nat → Value} {body : Run σ Unit} {k : Nat}

-- ================================================================ constants

theorem setVariable_ok {s : Scope} {x : String} (h : s.isConstant x = false)
    (v : Value) :
    s.setVariable x v
      = .ok { s with names := Expr.enter s.names x ⟨v, false⟩ } := by
  unfold Scope.setVariable Scope.bind
  rw [h]
  rfl

section

variable {s t : Scope} {x : String} {v : Value}

theorem value?_setVariable (h : s.setVariable x v = .ok t) (y : String) :
    t.value? y = if y = x then some v else s.value? y := by
  obtain ⟨-, rfl⟩ := Scope.bind_eq_ok h
  unfold Scope.value?
  rw [Expr.lookup_enter]
  split <;> rfl

theorem isConstant_setVariable (h : s.setVariable x v = .ok t) :
    t.isConstant = s.isConstant := by
  obtain ⟨free, rfl⟩ := Scope.bind_eq_ok h
  funext y
  unfold Scope.isConstant at free ⊢
  rw [Expr.lookup_enter]
  split
  · next hy =>
    rw [hy, free]
    rfl
  · rfl

end

/-- The frame is kept, and the innermost scope has the same constants. -/
structure Steady (before after : Machine σ) : Prop where
  framed : Framed before after
  constants : after.scopes.current.isConstant
    = before.scopes.current.isConstant

theorem steady_onScope (n : Node) {f : Scope → Except ScopeError Scope}
    (hf : ∀ s t, f s = .ok t → s.Extended t)
    (hconstant : ∀ s t, f s = .ok t → t.isConstant = s.isConstant) :
    Within Steady (onScope n (·.onCurrent f) : Run σ Unit) := by
  refine within_onScope (fun m => ⟨.refl m, rfl⟩) n fun m scopes h => ?_
  obtain ⟨t, ht, rfl⟩ := onCurrent_ok h
  exact ⟨⟨rfl, rfl, rfl, hf _ t ht⟩, hconstant _ t ht⟩

/-- No run makes a constant where it starts. -/
theorem lasting_steady : Lasting (@Steady σ) where
  trans hab hbc := ⟨hab.framed.trans hbc.framed,
    hbc.constants.trans hab.constants⟩
  untouched h := ⟨h.framed, by rw [h.scopes]⟩
  framed := Steady.framed
  binding n name v := steady_onScope n
    (fun s t h => extended_bind s t name ⟨v, false⟩ h)
    fun _ _ h => isConstant_setVariable h
  definition n name := by
    refine steady_onScope n (fun s t h => extended_define s t name n h) ?_
    intro s t h
    obtain ⟨-, rfl⟩ := Scope.define_eq_ok h
    rfl
  nested hx m :=
    ⟨framed_nested (fun m => (hx m).framed) m, by
      unfold nested
      rw [after_between]
      exact (hx _).constants⟩

/-- The innermost scope has no constants. -/
def Bindable (m : Machine σ) : Prop :=
  ∀ x, m.scopes.current.isConstant x = false

theorem Steady.bindable (h : Steady m m') (hm : Bindable m) : Bindable m' := by
  intro x
  rw [h.constants]
  exact hm x

-- ==================================================================== passes

/-- The variable holds a value, if there is a variable, and nothing else is
different. -/
structure Assigned (name : Option String) (v : Value)
    (before after : Machine σ) : Prop where
  value : ∀ x ∈ name, after.scopes.value? x = some v
  others : ∀ x ∉ name, after.scopes.value? x = before.scopes.value? x
  rest : after = { before with scopes := { before.scopes with
    current := { before.scopes.current with
      names := after.scopes.current.names } } }

/-- So many passes in a row that go well, counted from zero. Each binds the
variable to the value that is due, and then the body runs. -/
inductive Passes (name : Option String) (value : Nat → Value)
    (body : Run σ Unit) : Nat → Machine σ → Machine σ → Prop
  | none (m : Machine σ) : Passes name value body 0 m m
  | more {k : Nat} {m m' start m'' : Machine σ}
    (before : Passes name value body k m m')
    (assigned : Assigned name (value k) m' start)
    (run : body start = .ok () m'') : Passes name value body (k + 1) m m''

/-- The body fails, in one of so many passes. Those before it go well. -/
def Interrupted (name : Option String) (value : Nat → Value)
    (body : Run σ Unit) (count : Nat) (before : Machine σ) (e : Stop)
    (after : Machine σ) : Prop :=
  ∃ k < count, ∃ m start, Passes name value body k before m
    ∧ Assigned name (value k) m start ∧ body start = .error e after

/-- Where there are no constants, the variable of a loop can be bound. -/
theorem bindOptional_ok (n : Node) (name : Option String) (v : Value)
    (hm : Bindable m) :
    ∃ start, bindOptional n name v m = .ok () start
      ∧ Assigned name v m start := by
  cases name with
  | none => exact ⟨m, rfl, nofun, fun _ _ => rfl, rfl⟩
  | some x =>
    obtain ⟨t, ht⟩ : ∃ t, m.scopes.current.setVariable x v = .ok t :=
      ⟨_, setVariable_ok (hm x) _⟩
    let start : Machine σ :=
      { m with scopes := { m.scopes with current := t } }
    -- the new value hides what is bound outside, other names are as before
    have holds (y : String) : start.scopes.value? y
        = if y = x then some v else m.scopes.value? y := by
      show (_ :: _).findSome? _ = if _ then _ else (_ :: _).findSome? _
      rw [List.findSome?_cons, List.findSome?_cons, value?_setVariable ht]
      by_cases hy : y = x
      · rw [if_pos hy, if_pos hy]
      · rw [if_neg hy, if_neg hy]
    refine ⟨start, ?_, ?_, ?_, ?_⟩
    · show bindVariable n x v m = _
      unfold bindVariable onScope
      dsimp only [Scopes.setVariable, Scopes.onCurrent]
      rw [ht]
      rfl
    · rintro y ⟨⟩
      rw [holds, if_pos rfl]
    · intro y hy
      rw [holds, if_neg fun h : y = x => hy (congrArg some h.symm)]
    · obtain ⟨-, rfl⟩ := Scope.bind_eq_ok ht
      rfl

/-- One more pass goes well, or the body fails in it. -/
theorem Passes.next {start : Machine σ} (n : Node)
    (hsteady : Within Steady body) (hm : Bindable m)
    (made : Passes name value body k start m) :
    ∃ bound, bindOptional n name (value k) m = .ok () bound
      ∧ ((∃ m', body bound = .ok () m'
          ∧ Passes name value body (k + 1) start m' ∧ Bindable m')
        ∨ ∃ e m', body bound = .error e m'
          ∧ ∀ count, k < count →
            Interrupted name value body count start e m') := by
  obtain ⟨bound, hbound, assigned⟩ := bindOptional_ok n name (value k) hm
  refine ⟨bound, hbound, ?_⟩
  have kept : Steady m bound := by
    have kept := lasting_steady.sequential.optional n name (value k) m
    rwa [after_ok hbound] at kept
  have lasts := hsteady bound
  cases hbody : body bound with
  | ok u m' =>
    rw [after_ok hbody] at lasts
    exact .inl ⟨m', rfl, made.more assigned hbody,
      (lasting_steady.trans kept lasts).bindable hm⟩
  | error e m' =>
    exact .inr ⟨e, m', rfl, fun count hk =>
      ⟨k, hk, m, bound, made, assigned, hbody⟩⟩

/-- Passes that are made in a scope stay in it. -/
theorem Passes.outer (hbody : Within Framed body)
    (h : Passes name value body k m m') :
    m'.scopes.outer = m.scopes.outer := by
  induction h with
  | none m => rfl
  | @more _ _ _ start _ before assigned hrun ih =>
    have framed := hbody start
    rw [after_ok hrun] at framed
    rw [framed.outer, assigned.rest]
    exact ih

-- ==================================================================== ranges

/-- A loop that goes over a range, with the values of its bounds. -/
structure RangeLoop (s : Settings σ) (env : Expr.Environment) (n : Node)
    (name : Option String) (b : Bounds) : Prop where
  isLoop : Directive.ofNode? s.uri n = some .loop
  included : included s.uri n env = .ok true
  reads : ∃ spec, loopSpec n env = .ok spec ∧ spec.name = name
    ∧ loopKind n spec env = .ok (.range b)

section

variable {s : Settings σ} {env : Expr.Environment} {n : Node} {b : Bounds}

/-- The loop is what there is to do. -/
theorem RangeLoop.element (inner : Option (Inner σ))
    (h : RangeLoop s m.scopes.environment n name b) :
    element s inner n.origin n.trail n.tree m
      = loop s n (contents s inner true n) m := by
  obtain ⟨origin, ⟨label, ts⟩, trail⟩ := n
  unfold Template.element perform
  rw [bind_ok (read_ok h.included), if_pos rfl, h.isLoop]
  rfl

/-- Once the bounds are read, their kinds tell which range it is. -/
theorem RangeLoop.entered (h : RangeLoop s m.scopes.environment n name b) :
    loop s n body m = (if b.isFloating then
        read (floatRange n b) >>= fun r =>
          if r.first == r.last then pure ()
          else inScope n (runFloat s n name r body)
      else
        read (wholeRange n b) >>= fun r =>
          if r.first = r.last then pure ()
          else inScope n (runWhole n name r body)) m := by
  obtain ⟨spec, hspec, rfl, hkind⟩ := h.reads
  unfold loop
  rw [bind_ok (read_ok hspec), bind_ok (read_ok hkind)]

theorem RangeLoop.whole (h : RangeLoop s m.scopes.environment n name b)
    (hb : b.isFloating = false) :
    loop s n body m = (read (wholeRange n b) >>= fun r =>
      if r.first = r.last then pure ()
      else inScope n (runWhole n name r body)) m := by
  rw [h.entered, hb]
  rfl

theorem RangeLoop.floating (h : RangeLoop s m.scopes.environment n name b)
    (hb : b.isFloating = true) :
    loop s n body m = (read (floatRange n b) >>= fun r =>
      if r.first == r.last then pure ()
      else inScope n (runFloat s n name r body)) m := by
  rw [h.entered, hb]
  rfl

/-- An attribute that has a value. -/
def HasValue (env : Expr.Environment) (n : Node) (attr : String) (v : Value) :
    Prop :=
  ∃ text, substituted n attr env = .ok (some text)
    ∧ Expr.evaluate env text = .ok v

/-- A value that is written without an expression. -/
theorem hasValue_of_raw {α : Type} {attr raw : String} {f : Value → α} {a : α}
    (hraw : n.attribute? attr = some raw) (hne : raw.isEmpty = false)
    (hs : Expr.substitute env raw = .ok raw)
    (hv : (Expr.evaluate env raw).map f = .ok a) :
    ∃ v, HasValue env n attr v ∧ f v = a := by
  cases heval : Expr.evaluate env raw with
  | error e =>
    rw [heval] at hv
    cases hv
  | ok v =>
    rw [heval] at hv
    refine ⟨v, ⟨raw, ?_, heval⟩, Except.ok.inj hv⟩
    rw [substituted_ok hraw hs, hne]
    rfl

theorem HasValue.bound {attr : String} {v : Value} (h : HasValue env n attr v) :
    ∃ text, substituted n attr env = .ok (some text)
      ∧ bound n attr (some text) env = .ok (some v) := by
  obtain ⟨text, htext, hv⟩ := h
  have value : valueOf n attr text env = .ok v := evaluating_ok n _ _ hv
  exact ⟨text, htext, reading_bind value⟩

/-- A loop that is given all bounds of its range. -/
theorem rangeLoop_of_values {v v' v'' : Value}
    (hloop : Directive.ofNode? s.uri n = some .loop)
    (hincluded : Template.included s.uri n env = .ok true)
    (hname : identifier n "name" .loopName env = .ok name)
    (hcollection : n.attribute? "collection" = none)
    (hindex : n.attribute? "index" = none) (hfrom : HasValue env n "from" v)
    (hto : HasValue env n "to" v') (hby : HasValue env n "by" v'') :
    RangeLoop s env n name ⟨some v, some v', some v''⟩ := by
  obtain ⟨from', hfrom, hv⟩ := hfrom.bound
  obtain ⟨to', hto, hv'⟩ := hto.bound
  obtain ⟨by', hby, hv''⟩ := hby.bound
  let spec : LoopSpec := ⟨name, none, some from', some to', some by', none⟩
  -- what is not written is read as nothing
  have absent {attr : String} (h : n.attribute? attr = none) :
      substituted n attr env = .ok none := by
    unfold substituted
    rw [h]
    rfl
  have hspec : loopSpec n env = .ok spec := by
    refine (reading_bind hname).trans ?_
    refine (reading_bind (absent hcollection)).trans ?_
    refine (reading_bind hfrom).trans ?_
    refine (reading_bind hto).trans ?_
    refine (reading_bind hby).trans ?_
    exact reading_bind (reading_bind (absent hindex))
  have hbounds : bounds n spec env = .ok ⟨some v, some v', some v''⟩ := by
    refine (reading_bind hv).trans ?_
    refine (reading_bind hv').trans ?_
    exact reading_bind hv''
  exact ⟨hloop, hincluded, spec, hspec, rfl, reading_bind hbounds⟩

end

end Stencil.Template
