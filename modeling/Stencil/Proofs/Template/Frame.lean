/-
Scopes are left as they were found.

However a run ends, by itself or early, the scopes below the innermost are the
same as before, and as many inclusions and calls are open. The innermost scope
keeps its anchor, its base and its libraries; it may bind other variables, and
macros are added to it. That is `Framed`. Where a directive opens a scope of
its own nothing at all is left behind: that is `Untouched`.

Both are preorders on machines, and a run stays `Within` a preorder if its
parts do.
-/
import Stencil.Proofs.Template.Congruence
import Stencil.Proofs.Template.Outcome

namespace Stencil.Template

open Markup (Attribute Node Origin Tree)

variable {σ α β : Type}

-- ============================================================ the relations

/-- Nothing but macros of new names is added to a scope, and its variables
may change. -/
structure Scope.Extended (before after : Scope) : Prop where
  anchor : after.anchor = before.anchor
  base : after.base = before.base
  libraries : after.libraries = before.libraries
  macros : ∃ added, after.macros = added ++ before.macros
    ∧ ∀ e ∈ added, before.macros.lookup e.1 = none

/-- As many inclusions and calls are open, and the scopes are the same but
for what the innermost binds. -/
structure Framed (before after : Machine σ) : Prop where
  nesting : after.nesting = before.nesting
  depth : after.scopes.depth = before.scopes.depth
  outer : after.scopes.outer = before.scopes.outer
  current : before.scopes.current.Extended after.scopes.current

/-- As many inclusions and calls are open, in the same scopes. -/
structure Untouched (before after : Machine σ) : Prop where
  nesting : after.nesting = before.nesting
  scopes : after.scopes = before.scopes

theorem Scope.Extended.refl (s : Scope) : s.Extended s :=
  ⟨rfl, rfl, rfl, [], rfl, nofun⟩

theorem Scope.Extended.trans {a b c : Scope} (hab : a.Extended b)
    (hbc : b.Extended c) : a.Extended c := by
  obtain ⟨added, hadded, hnew⟩ := hab.macros
  obtain ⟨added', hadded', hnew'⟩ := hbc.macros
  refine ⟨hbc.anchor.trans hab.anchor, hbc.base.trans hab.base,
    hbc.libraries.trans hab.libraries, added' ++ added, ?_, ?_⟩
  · rw [hadded', hadded, List.append_assoc]
  · intro e he
    rcases List.mem_append.1 he with he | he
    · have := hnew' e he
      rw [hadded, List.lookup_append, Option.or_eq_none_iff] at this
      exact this.2
    · exact hnew e he

theorem Framed.refl (m : Machine σ) : Framed m m :=
  ⟨rfl, rfl, rfl, .refl _⟩

theorem Framed.trans {a b c : Machine σ} (hab : Framed a b)
    (hbc : Framed b c) : Framed a c :=
  ⟨hbc.nesting.trans hab.nesting, hbc.depth.trans hab.depth,
    hbc.outer.trans hab.outer, hab.current.trans hbc.current⟩

theorem Untouched.refl (m : Machine σ) : Untouched m m := ⟨rfl, rfl⟩

theorem Untouched.trans {a b c : Machine σ} (hab : Untouched a b)
    (hbc : Untouched b c) : Untouched a c :=
  ⟨hbc.nesting.trans hab.nesting, hbc.scopes.trans hab.scopes⟩

theorem Untouched.framed {a b : Machine σ} (h : Untouched a b) :
    Framed a b := by
  refine ⟨h.nesting, ?_, ?_, ?_⟩
  · rw [h.scopes]
  · rw [h.scopes]
  · rw [h.scopes]
    exact .refl _

theorem Within.framed {x : Run σ α} (h : Within Untouched x) :
    Within Framed x :=
  fun m => (h m).framed

-- ================================================================== steps

theorem untouched_skip : Within Untouched (pure () : Run σ Unit) := .refl

theorem untouched_throw (e : Stop) :
    Within Untouched (throw e : Run σ Unit) := .refl

theorem untouched_fail (d : Diagnostic) :
    Within Untouched (fail d : Run σ Unit) := untouched_throw (.failed d)

theorem untouched_bind {x : Run σ α} {f : α → Run σ β}
    (hx : Within Untouched x) (hf : ∀ a, Within Untouched (f a)) :
    Within Untouched (x >>= f) :=
  within_bind .trans hx hf

theorem untouched_read {r : Reading α} {f : α → Run σ β}
    (hf : ∀ a, Within Untouched (f a)) : Within Untouched (read r >>= f) :=
  within_read .refl fun _ a _ => hf a

theorem untouched_send (s : Settings σ) (e : Output.Event) :
    Within Untouched (send s e) := by
  intro m
  unfold after send
  cases s.sink.send m.output e with
  | mk o refusal => cases refusal <;> exact ⟨rfl, rfl⟩

theorem untouched_sendAll (s : Settings σ) (es : List Output.Event) :
    Within Untouched (sendAll s es) := by
  induction es with
  | nil => exact untouched_skip
  | cons e es ih => exact untouched_bind (untouched_send s e) fun _ => ih

theorem untouched_load (s : Settings σ) (url : Url) :
    Within Untouched (load s url) :=
  fun _ => ⟨rfl, rfl⟩

/-- A change of the innermost scope that extends it. -/
theorem framed_onScope (n : Node) {f : Scope → Except ScopeError Scope}
    (hf : ∀ s t, f s = .ok t → s.Extended t) :
    Within Framed (onScope n (·.onCurrent f) : Run σ Unit) := by
  refine within_onScope .refl n fun m scopes h => ?_
  obtain ⟨t, ht, rfl⟩ := onCurrent_ok h
  exact ⟨rfl, rfl, rfl, hf _ t ht⟩

theorem extended_bind (s t : Scope) (name : String) (b : Binding)
    (h : s.bind name b = .ok t) : s.Extended t := by
  obtain ⟨-, rfl⟩ := Scope.bind_eq_ok h
  exact ⟨rfl, rfl, rfl, [], rfl, nofun⟩

theorem extended_define (s t : Scope) (name : String) (element : Node)
    (h : s.define name element = .ok t) : s.Extended t := by
  obtain ⟨hnone, rfl⟩ := Scope.define_eq_ok h
  refine ⟨rfl, rfl, rfl, [(name, element)], rfl, ?_⟩
  intro e he
  cases List.mem_singleton.1 he
  exact hnone

/-- Leaving a scope restores the ones around it, whatever happened in it. -/
theorem untouched_between_scopes (enter : Machine σ → Machine σ) {x : Run σ α}
    (hnest : ∀ m, (enter m).nesting = m.nesting)
    (houter : ∀ m, (enter m).scopes.outer = m.scopes.all)
    (hx : Within Framed x) :
    Within Untouched
      (between enter (fun m => { m with scopes := m.scopes.pop }) x) := by
  intro m
  have framed := hx (enter m)
  rw [after_between]
  refine ⟨framed.nesting.trans (hnest m), ?_⟩
  have outer := framed.outer.trans (houter m)
  show (after x (enter m)).scopes.pop = m.scopes
  unfold Scopes.pop
  rw [outer]
  rfl

theorem untouched_inScope (anchor : Node) {x : Run σ α}
    (hx : Within Framed x) : Within Untouched (inScope anchor x) :=
  untouched_between_scopes _ (fun _ => rfl) (fun _ => rfl) hx

/-- A new scope may be given another base. -/
theorem untouched_rebased (root : Node) (base : Option Url) {x : Run σ α}
    (hx : Within Framed x) :
    Within Untouched (inScope root do setBase base; x) :=
  untouched_between_scopes
    (fun m => { m with scopes := (m.scopes.push root).setBase base })
    (fun _ => rfl) (fun _ => rfl) hx

theorem framed_nested {x : Run σ α} (hx : Within Framed x) :
    Within Framed (nested x) := by
  intro m
  have framed := hx { m with nesting := m.nesting + 1 }
  unfold nested
  rw [after_between]
  refine ⟨?_, framed.depth, framed.outer, framed.current⟩
  show (after x { m with nesting := m.nesting + 1 }).nesting - 1 = m.nesting
  rw [framed.nesting]
  rfl

-- ================================================================== frames

theorem framed_bind {x : Run σ α} {f : α → Run σ β} (hx : Within Framed x)
    (hf : ∀ a, Within Framed (f a)) : Within Framed (x >>= f) :=
  within_bind .trans hx hf

/-- Relations that say no less than `Framed`, as steps in sequence do. What
leaves the scopes untouched is in them, and so is what binds or defines. -/
structure Lasting (K : Machine σ → Machine σ → Prop) : Prop where
  trans {a b c : Machine σ} : K a b → K b c → K a c
  untouched {a b : Machine σ} : Untouched a b → K a b
  framed {a b : Machine σ} : K a b → Framed a b
  binding (n : Node) (name : String) (v : Expr.Value) :
    Within K (bindVariable n name v)
  definition (n : Node) (name : String) :
    Within K (onScope n (·.define name n) : Run σ Unit)
  nested {x : Run σ Unit} : Within K x → Within K (nested x)

namespace Lasting

variable {K : Machine σ → Machine σ → Prop}

theorem within (l : Lasting K) {x : Run σ α} (h : Within Untouched x) :
    Within K x :=
  fun m => l.untouched (h m)

theorem bind (l : Lasting K) {x : Run σ α} {f : α → Run σ β}
    (hx : Within K x) (hf : ∀ a, Within K (f a)) : Within K (x >>= f) :=
  within_bind l.trans hx hf

theorem sequential (l : Lasting K) :
    Sequential (Alone fun x : Run σ Unit => Within K x) where
  skip := l.within untouched_skip
  seq hx hy := l.bind hx fun _ => hy
  binding := l.binding

/-- The interpreter keeps what lasts: every step does. -/
theorem congruence (l : Lasting K) (s : Settings σ) :
    Congruence s s (Alone fun x => Within K x) where
  toSequential := l.sequential
  uri := rfl
  fault _ := l.within (untouched_fail _)
  reading hr hf := within_read (fun m => l.untouched (.refl m)) fun env a ha =>
    let ⟨b, hab⟩ := (hr env).exists_of_ok ha
    hf a b hab
  state hf := within_state fun m => hf m m rfl
  loading url hf := l.bind (l.within (untouched_load s url)) hf
  definition := l.definition
  characters _ := l.within (untouched_send s _)
  cdata _ := l.within (untouched_sendAll s _)
  doctype _ _ _ := l.within (untouched_sendAll s _)
  enclosed _ _ hx :=
    l.bind (l.within (untouched_send s _)) fun _ =>
      l.bind hx fun _ => l.within (untouched_send s _)
  inScope anchor hx :=
    l.within (untouched_inScope anchor fun m => l.framed (hx m))
  nested hx := l.nested hx
  rebased root url hx :=
    l.within (untouched_rebased root (some url) fun m => l.framed (hx m))
  floating n name r hx := l.sequential.runFloat
    (l.within (untouched_throw .unfinished)) rfl n name r hx

end Lasting

theorem lasting_framed : Lasting (@Framed σ) where
  trans := .trans
  untouched := Untouched.framed
  framed h := h
  binding n name v :=
    framed_onScope n fun s t h => extended_bind s t name ⟨v, false⟩ h
  definition n name := framed_onScope n fun s t h =>
    extended_define s t name n h
  nested := framed_nested

/-- Keeping the frame, as a relation that looks at the left side only. -/
abbrev KeepsFrame : Run σ Unit → Run σ Unit → Prop :=
  Alone fun x => Within Framed x

/-- The interpreter keeps the frame. -/
theorem framed_congruence (s : Settings σ) : Congruence s s KeepsFrame :=
  lasting_framed.congruence s

-- ============================================================== directives

/-- Directives that open a scope of their own, or do nothing to scopes. -/
def selfContained : List Directive :=
  [.condition, .switch, .loop, .call, .copy, .inclusion, .doctype, .comment,
   .failure]

section

variable {s : Settings σ} {inner : Option (Inner σ)}

/-- What may be opened keeps the frame. -/
abbrev InnerFramed (inner : Option (Inner σ)) : Prop :=
  Option.Rel (InnerAlike KeepsFrame) inner inner

theorem untouched_doctype (n : Node) : Within Untouched (doctype s n) := by
  refine untouched_read fun name => ?_
  cases name with
  | none => exact untouched_fail _
  | some name =>
    exact untouched_read fun _ => untouched_read fun _ => untouched_sendAll s _

theorem untouched_inclusion (hi : InnerFramed inner) (n : Node) :
    Within Untouched (inclusion s inner n) := by
  refine untouched_read fun href => ?_
  cases href with
  | none => exact untouched_fail _
  | some href =>
    cases inner with
    | none => exact untouched_fail _
    | some inner =>
      obtain ⟨hi⟩ := hi
      refine within_state fun m => ?_
      split
      · exact untouched_fail _
      · refine untouched_bind (untouched_load s _) fun d => ?_
        split
        · exact untouched_fail _
        · split
          · exact untouched_fail _
          · exact untouched_rebased _ _ (framed_nested (hi.execute _))

theorem untouched_call (hi : InnerFramed inner) (n : Node) :
    Within Untouched (call s inner n) := by
  refine untouched_read fun name => ?_
  refine within_state fun m => ?_
  cases m.scopes.defined? (name.getD "") with
  | none => exact untouched_fail _
  | some body =>
    cases inner with
    | none => exact untouched_fail _
    | some inner =>
      obtain ⟨hi⟩ := hi
      have params := (framed_congruence s).bindParams n n.children
      exact untouched_inScope n
        (framed_bind params fun _ => framed_nested (hi.expand body))

theorem untouched_condition (n : Node) {x : Run σ Unit}
    (hx : KeepsFrame x x) : Within Untouched (condition n x) := by
  refine untouched_read fun test => ?_
  cases test with
  | none => exact untouched_fail _
  | some test =>
    refine untouched_read fun b => ?_
    split
    · exact untouched_inScope n hx
    · exact untouched_skip

theorem untouched_loop (n : Node) {x : Run σ Unit} (hx : KeepsFrame x x) :
    Within Untouched (loop s n x) := by
  have c := framed_congruence s
  refine untouched_read fun spec => untouched_read fun kind => ?_
  cases kind with
  | items values => exact untouched_inScope n (c.itemPasses n spec hx 0 values)
  | range b =>
    dsimp only
    split
    · refine untouched_read fun r => ?_
      split
      · exact untouched_skip
      · exact untouched_inScope n (c.floating n spec.name r hx)
    · refine untouched_read fun r => ?_
      split
      · exact untouched_skip
      · next hne =>
        rw [runWhole_eq n _ r x hne]
        exact untouched_inScope n (c.wholePasses n spec.name hx _ _ _)

theorem untouched_copy (n : Node) {children : List (Node × Run σ Unit)}
    (h : List.Forall₂ (PairAlike fun _ => KeepsFrame) children children) :
    Within Untouched (copy s n children) := by
  refine untouched_read fun text => ?_
  cases text with
  | none => exact untouched_fail _
  | some text =>
    exact untouched_inScope n ((framed_congruence s).copying n text h)

theorem untouched_cases (hi : InnerFramed inner) (origin : Origin)
    (trail : List Tree) (n : Node) (ts : List Tree) :
    Within Untouched (cases s inner origin trail n ts) := by
  have c := framed_congruence s
  induction ts with
  | nil => exact untouched_skip
  | cons t ts ih =>
    unfold cases
    refine untouched_read fun b => ?_
    split
    · exact untouched_inScope _ (c.body hi origin trail t)
    · exact ih

theorem untouched_obey (hi : InnerFramed inner) (n : Node) {below : Below σ}
    (hb : BelowAlike KeepsFrame below below)
    (hcases : Within Untouched below.cases) {d : Directive}
    (hd : d ∈ selfContained) : Within Untouched (obey s inner n below d) := by
  cases d with
  | condition => exact untouched_condition n (hb.contents true)
  | switch => exact hcases
  | loop => exact untouched_loop n (hb.contents true)
  | call => exact untouched_call hi n
  | copy => exact untouched_copy n hb.replacements
  | inclusion => exact untouched_inclusion hi n
  | doctype => exact untouched_doctype n
  | comment => exact untouched_skip
  | failure => exact untouched_read fun _ => untouched_fail _
  | _ => exact absurd hd (by decide)

end

/-- However processing ends, as many inclusions and calls are open as before
and every scope is the same, but for variables and added macros of the
innermost. Directives with a scope of their own leave nothing at all. -/
theorem scopes_restored (s : Settings σ) (room : Nat) (n : Node)
    (m : Machine σ) :
    Framed m (after (element s (inner? s room) n.origin n.trail n.tree) m)
    ∧ (∀ trim, Framed m (after (contents s (inner? s room) trim n) m))
    ∧ Framed m (after (execute s (inner? s room) n) m)
    ∧ ∀ d ∈ selfContained, Directive.ofNode? s.uri n = some d →
        (after (element s (inner? s room) n.origin n.trail n.tree) m).scopes
          = m.scopes := by
  have c := framed_congruence s
  have hi := c.inner room
  refine ⟨c.element hi _ _ _ m, fun trim => c.contents hi trim n m,
    c.execute hi n m, fun d hd hn => ?_⟩
  -- of what is self-contained, more is true than that scopes end as deep as
  -- they began
  suffices h : Within Untouched
      (element s (inner? s room) n.origin n.trail n.tree) from (h m).scopes
  obtain ⟨origin, ⟨label, ts⟩, trail⟩ := n
  unfold element
  refine untouched_read fun b => ?_
  split
  · rw [hn]
    refine untouched_obey hi _ ⟨fun trim => ?_, ?_, ?_⟩ ?_ hd
    · exact c.seq (c.defineAll _) (c.items hi origin _ trim trim ts)
    · exact c.cases hi origin _ _ ts
    · exact c.replacements hi origin _ ts
    · exact untouched_cases hi origin _ _ ts
  · exact untouched_skip

/-- A directive of the namespace `x`, in a line of its own. -/
def directive (id : Nat) (name : String) (attributes : List Attribute)
    (ts : List Tree) : Tree :=
  .node ⟨id, ⟨id, 1⟩, .element ⟨.ofText name, some "x", attributes, []⟩⟩ ts

/-- A switch whose only case defines a macro and then fails. -/
def failing : Node :=
  let name : Attribute := ⟨.ofText "name", none, "m"⟩
  let case := directive 2 "case" []
    [directive 3 "macro" [name] [], directive 4 "error" [] []]
  ⟨.given 0, directive 1 "switch" [] [case], []⟩

/-- A switch is left for a fault in it, and so is its scope. -/
theorem scopes_restored_failing :
    let s : Settings Unit := ⟨"x", ⟨fun _ _ => ((), none)⟩, .memory [], 0⟩
    let m : Machine Unit := ⟨.single (.fresh failing none), 0, .empty, ()⟩
    let x := element s (inner? s 1) failing.origin failing.trail failing.tree
    .switch ∈ selfContained
    ∧ Directive.ofNode? s.uri failing = some .switch
    ∧ (∃ d m', x m = .error (.failed d) m')
    ∧ (after x m).scopes = m.scopes := by
  refine ⟨by decide, by decide, ⟨_, _, rfl⟩, ?_⟩
  exact (scopes_restored _ 1 failing _).2.2.2 .switch (by decide) (by decide)

end Stencil.Template
