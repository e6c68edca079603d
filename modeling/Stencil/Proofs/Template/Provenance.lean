/-
Everything that a template writes stems from what the run may come to.

Each directive renders if the runs in it do, and a literal element renders
what stems from itself. The induction over the interpreter goes with the trees,
as the interpreter does; what is run inside an inclusion or a call is at a tree
of a document or of a macro, which is known.
-/
import Stencil.Proofs.Template.Emission
import Stencil.Proofs.Template.Passes

namespace Stencil.Template

open Stencil.Expr (Value)
open Markup (Content Document Element Node Origin Tree)

variable {σ : Type} {s : Settings σ} {P : Content → Prop} {x : Run σ Unit}

-- ================================================================= loading

/-- A document that is loaded is known, since it is in the cache then. -/
theorem finds_load (url : Url) :
    Finds P (load s url) fun r => ∀ d, r = .ok d → d.root.Throughout P := by
  refine ⟨loads_load s url, fun m r m' hm hc h => ?_⟩
  cases h
  refine ⟨hm, rfl, fun d hd => ?_⟩
  obtain ⟨entry, hentry, hroot⟩ := (load_cases s.source m.cache url).1 d hd
  exact hroot ▸ hc entry hentry

theorem rootElement?_known {d : Document} (hd : d.root.Throughout P)
    {root : Node} (h : d.rootElement? = some root) :
    root.tree.Throughout P := by
  obtain ⟨t, ht, rfl⟩ := List.mem_map.1 (List.mem_of_find?_eq_some h)
  exact hd.child ht

theorem defined?_known {m : Machine σ} (hm : Knows P m) {name : String}
    {body : Node} (h : m.scopes.defined? name = some body) :
    body.tree.Throughout P := by
  obtain ⟨scope, hscope, hlookup⟩ := List.exists_of_findSome?_eq_some h
  exact hm scope hscope _ (mem_of_lookup hlookup)

theorem children_known {n : Node} (hn : n.tree.Throughout P) :
    ∀ child ∈ n.children, child.tree.Throughout P := by
  intro child hchild
  obtain ⟨t, ht, rfl⟩ := List.mem_map.1 hchild
  exact hn.child ht

-- ==================================================== inclusions and calls

/-- What runs inside an inclusion or a call renders. -/
structure InnerRenders (s : Settings σ) (P : Content → Prop)
    (inner : Inner σ) : Prop where
  loads : InnerAlike KeepsLoaded inner inner
  execute (n : Node) (hn : n.tree.Throughout P) :
    Renders s P (inner.execute n)
  expand (n : Node) (hn : n.tree.Throughout P) : Renders s P (inner.expand n)

theorem renders_inclusion {inner : Option (Inner σ)}
    (hi : ∀ i ∈ inner, InnerRenders s P i) (n : Node) :
    Renders s P (inclusion s inner n) := by
  have c := loads_congruence s
  refine renders_read fun _ href _ => ?_
  cases href with
  | none => exact renders_fail
  | some href =>
    cases inner with
    | none => exact renders_fail
    | some i =>
      have hi := hi i rfl
      refine renders_get (c.includeDocument hi.loads n href) fun m _ => ?_
      split
      · exact renders_fail
      · next url _ =>
        refine renders_found (finds_load url) (fun r => ?_) fun r hr => ?_
        · cases r with
          | error e => exact loads_nothing fun _ => rfl
          | ok d =>
            dsimp only
            cases d.rootElement? with
            | none => exact loads_nothing fun _ => rfl
            | some root =>
              exact c.rebased root url (c.nested (hi.loads.execute root))
        · split
          · exact renders_fail
          · split
            · exact renders_fail
            · next d root hroot =>
              -- the root belongs to a document that was loaded, so it is known
              -- too
              have hknown := rootElement?_known (hr _ rfl) hroot
              exact renders_inScope _ (renders_seq (renders_setBase _)
                (renders_nested (hi.execute root hknown)))

theorem renders_bindParam (n : Node) : Renders s P (bindParam n) :=
  renders_read fun _ _ _ => renders_read fun _ _ _ =>
    renders_bindVariable n _ _

theorem renders_bindParams (n : Node) (children : List Node) :
    Renders s P (bindParams s n children) := by
  induction children with
  | nil => exact renders_skip
  | cons child rest ih =>
    refine renders_read fun _ b _ => ?_
    split
    · exact renders_seq (renders_bindParam child) ih
    · exact renders_seq renders_skip ih

theorem renders_call {inner : Option (Inner σ)}
    (hi : ∀ i ∈ inner, InnerRenders s P i) (n : Node) :
    Renders s P (call s inner n) := by
  have c := loads_congruence s
  refine renders_read fun _ name _ => ?_
  cases inner with
  | none =>
    refine renders_get (within_state fun m => ?_) fun m _ => ?_
    · cases m.scopes.defined? (name.getD "") <;>
        exact loads_nothing fun _ => rfl
    · cases m.scopes.defined? (name.getD "") <;> exact renders_fail
  | some i =>
    have hi := hi i rfl
    have params := c.bindParams n n.children
    refine renders_get (within_state fun m => ?_) fun m hm => ?_
    · cases m.scopes.defined? (name.getD "") with
      | none => exact loads_nothing fun _ => rfl
      | some body =>
        exact c.inScope n (c.seq params (c.nested (hi.loads.expand body)))
    · cases hbody : m.scopes.defined? (name.getD "") with
      | none => exact renders_fail
      | some body =>
        -- a macro that is found is known, so what it sends is
        have hinside := hi.expand body (defined?_known hm hbody)
        exact renders_inScope n (renders_seq (renders_bindParams n n.children)
          (renders_nested hinside))

-- =================================================================== loops

theorem renders_itemPasses (n : Node) (spec : LoopSpec) (hx : Renders s P x)
    (i : Nat) (vs : List Value) : Renders s P (itemPasses n spec x i vs) := by
  induction vs generalizing i with
  | nil => exact renders_skip
  | cons v vs ih =>
    exact renders_seq (renders_optional n spec.name v)
      (renders_seq (renders_optional n spec.index _)
        (renders_seq hx (ih (i + 1))))

theorem renders_wholePasses (n : Node) (name : Option String)
    (hx : Renders s P x) (step : Int) (k : Nat) (i : Int) :
    Renders s P (wholePasses n name x step k i) := by
  induction k generalizing i with
  | zero => exact renders_skip
  | succ k ih =>
    exact renders_seq (renders_optional n name _)
      (renders_seq hx (ih (i + step)))

theorem renders_floatPasses (n : Node) (name : Option String) (r : Range Float)
    (up : Bool) (hx : Renders s P x) (fuel : Nat) (v : Float) :
    Renders s P (floatPasses n name r up x fuel v) := by
  induction fuel generalizing v with
  | zero => exact renders_stop
  | succ fuel ih =>
    refine renders_seq (renders_optional n name _) (renders_seq hx ?_)
    dsimp only
    split
    · exact ih (r.next up v)
    · exact renders_skip

theorem renders_loop (n : Node) (hx : Renders s P x) :
    Renders s P (loop s n x) := by
  refine renders_read fun _ spec _ => renders_read fun _ kind _ => ?_
  cases kind with
  | items values =>
    exact renders_inScope n (renders_itemPasses n spec hx 0 values)
  | range b =>
    dsimp only
    split
    · refine renders_read fun _ r _ => ?_
      split
      · exact renders_skip
      · exact renders_inScope n (renders_floatPasses n spec.name r _ hx _ _)
    · refine renders_read fun _ r _ => ?_
      split
      · exact renders_skip
      · next hne =>
        rw [runWhole_eq n _ r x hne]
        exact renders_inScope n (renders_wholePasses n spec.name hx _ _ _)

-- ================================================================ elements

theorem renders_explicitFailure (n : Node) :
    Renders s P (explicitFailure n) :=
  renders_read fun _ _ _ => renders_fail

theorem renders_doctype (n : Node) : Renders s P (doctype s n) := by
  refine renders_read fun _ name _ => ?_
  cases name with
  | none => exact renders_fail
  | some name =>
    exact renders_read fun _ systemId _ => renders_read fun _ publicId _ =>
      renders_leaf (.doctype name publicId systemId) rfl rfl

theorem renders_assignment (n : Node) : Renders s P (assignment n) := by
  refine renders_read fun _ name _ => ?_
  split
  · exact renders_fail
  · split
    · exact renders_fail
    · exact renders_read fun _ v _ => renders_bindVariable n name v

theorem renders_condition (n : Node) (hx : Renders s P x) :
    Renders s P (condition n x) := by
  refine renders_read fun _ test _ => ?_
  cases test with
  | none => exact renders_fail
  | some test =>
    refine renders_read fun _ b _ => ?_
    split
    · exact renders_inScope n hx
    · exact renders_skip

/-- What a directive of a kind says. -/
theorem ofNode?_eq_some {uri : String} {n : Node} {d : Directive}
    (h : Directive.ofNode? uri n = some d) :
    ∃ e, n.content = .element e ∧ e.uri = some uri
      ∧ Directive.ofName? e.name.localPart = some d := by
  unfold Directive.ofNode? Node.element? at h
  obtain ⟨e, he, hd⟩ := Option.bind_eq_some_iff.1 h
  split at hd
  · next huri =>
    refine ⟨e, ?_, huri, hd⟩
    cases hc : n.content with
    | element e' =>
      rw [hc] at he
      cases he
      rfl
    | _ =>
      rw [hc] at he
      cases he
  · cases hd

theorem renders_literal {n : Node} (hn : n.tree.Throughout P)
    (hd : Directive.ofNode? s.uri n = none) (hx : Renders s P x) :
    Renders s P (literal s n x) := by
  have hself : P n.content := hn.self
  unfold literal
  unfold Directive.ofNode? at hd
  unfold Node.element? at hd ⊢
  cases hc : n.content with
  | element e =>
    rw [hc] at hself hd
    refine renders_read fun env raw hraw => ?_
    have hstems : Emitted.Stems P s.uri
        ⟨e, keptAttributes s.uri env e.attributes⟩ :=
      ⟨hself, fun huri => (if_pos huri).symm.trans hd, env, rfl⟩
    have henclosed := renders_enclosed hstems hx
    rw [show Emitted.attributes ⟨e, keptAttributes s.uri env e.attributes⟩
      = raw from (literalAttributes_kept hraw).symm] at henclosed
    exact henclosed
  | _ => exact renders_skip

theorem renders_text (n : Node) (data : String) :
    Renders s P (text s n data) := by
  unfold text
  split
  · exact renders_skip
  · exact renders_read fun _ text _ => renders_characters text

theorem renders_item (n : Node) (front back : Bool)
    (hx : n.isElement = true → Renders s P x) :
    Renders s P (item s n front back x) := by
  unfold item
  cases hc : n.content with
  | element e =>
    dsimp only
    split
    · exact renders_skip
    · exact hx (by unfold Node.isElement Node.element?; rw [hc]; rfl)
  | text data => exact renders_text n _
  | cdata data => exact renders_leaf (.cdata data) rfl rfl
  | _ => exact renders_skip

section

variable {inner : Option (Inner σ)}

theorem renders_perform (hcopy : Copyless s.uri P)
    (hi : ∀ i ∈ inner, InnerRenders s P i) {n : Node}
    (hn : n.tree.Throughout P) {below : Below σ}
    (hcontents : ∀ trim, Renders s P (below.contents trim))
    (hcases : Renders s P below.cases) :
    Renders s P (perform s inner n below) := by
  refine renders_read fun _ b _ => ?_
  split
  · cases hd : Directive.ofNode? s.uri n with
    | none => exact renders_literal hn hd (hcontents false)
    | some d =>
      cases d with
      | failure => exact renders_explicitFailure n
      | doctype => exact renders_doctype n
      | inclusion => exact renders_inclusion hi n
      | assignment => exact renders_assignment n
      | condition => exact renders_condition n (hcontents true)
      | switch => exact hcases
      | loop => exact renders_loop n (hcontents true)
      | call => exact renders_call hi n
      | comment => exact renders_skip
      | copy =>
        -- a copy sends elements with all their attributes: none may be known
        obtain ⟨e, he, huri, hname⟩ := ofNode?_eq_some hd
        have hself : P n.content := hn.self
        rw [he] at hself
        exact absurd hname (hcopy e hself huri)
      | definition => exact renders_skip
      | template => exact renders_fail
      | case => exact renders_fail
      | param => exact renders_fail
      | intercept => exact renders_fail
  · exact renders_skip

-- By induction on the tree, one theorem for each function of the interpreter
-- that goes down it; what else a step opens is `inner`'s.
mutual

theorem renders_element (hcopy : Copyless s.uri P)
    (hi : ∀ i ∈ inner, InnerRenders s P i) (origin : Origin)
    (trail : List Tree) : ∀ t : Tree, t.Throughout P →
      Renders s P (element s inner origin trail t)
  | .node label ts, ht => by
    have hbelow := (Tree.throughout_node.1 ht).2
    have hitems := fun trim =>
      renders_items hcopy hi origin (.node label ts :: trail) trim trim ts hbelow
    have hcases := renders_cases hcopy hi origin (.node label ts :: trail)
      ⟨origin, .node label ts, trail⟩ ts hbelow
    unfold element
    refine renders_perform hcopy hi ht (fun trim => ?_) hcases
    exact renders_seq
      (renders_defineAll (children_known (n := ⟨origin, _, trail⟩) ht))
      (hitems trim)
termination_by structural t => t

theorem renders_items (hcopy : Copyless s.uri P)
    (hi : ∀ i ∈ inner, InnerRenders s P i) (origin : Origin)
    (trail : List Tree) (trim front : Bool) :
    ∀ ts : List Tree, (∀ t ∈ ts, t.Throughout P) →
      Renders s P (items s inner origin trail trim front ts)
  | [], _ => renders_skip
  | t :: ts, hts => by
    obtain ⟨ht, hts⟩ := List.forall_mem_cons.1 hts
    have hhere := renders_element hcopy hi origin trail t ht
    have hrest := fun front => renders_items hcopy hi origin trail trim front ts hts
    unfold items
    dsimp only
    split
    · exact hrest true
    · split
      · exact renders_skip
      · exact renders_seq (renders_item _ _ _ fun _ => hhere) (hrest false)
termination_by structural ts => ts

theorem renders_body (hcopy : Copyless s.uri P)
    (hi : ∀ i ∈ inner, InnerRenders s P i) (origin : Origin)
    (trail : List Tree) :
    ∀ t : Tree, t.Throughout P → Renders s P (body s inner origin trail t)
  | .node label ts, ht =>
    renders_seq
      (renders_defineAll
        (children_known (n := ⟨origin, .node label ts, trail⟩) ht))
      (renders_items hcopy hi origin (.node label ts :: trail) true true ts
        (Tree.throughout_node.1 ht).2)
termination_by structural t => t

theorem renders_cases (hcopy : Copyless s.uri P)
    (hi : ∀ i ∈ inner, InnerRenders s P i) (origin : Origin)
    (trail : List Tree) (n : Node) :
    ∀ ts : List Tree, (∀ t ∈ ts, t.Throughout P) →
      Renders s P (cases s inner origin trail n ts)
  | [], _ => renders_skip
  | t :: ts, hts => by
    obtain ⟨ht, hts⟩ := List.forall_mem_cons.1 hts
    have hhere := renders_body hcopy hi origin trail t ht
    have hrest := renders_cases hcopy hi origin trail n ts hts
    unfold cases
    refine renders_read fun _ b _ => ?_
    split
    · exact renders_inScope _ hhere
    · exact hrest
termination_by structural ts => ts

end

-- ============================================================== whole runs

theorem renders_contents (hcopy : Copyless s.uri P)
    (hi : ∀ i ∈ inner, InnerRenders s P i) (trim : Bool) {n : Node}
    (hn : n.tree.Throughout P) : Renders s P (contents s inner trim n) :=
  renders_seq (renders_defineAll (children_known hn))
    (renders_items hcopy hi _ _ trim trim _ fun _ ht => hn.child ht)

/-- What a run at a root sends stems from what is known. -/
theorem renders_execute (hcopy : Copyless s.uri P)
    (hi : ∀ i ∈ inner, InnerRenders s P i) {n : Node}
    (hn : n.tree.Throughout P) :
    Renders s P (execute s inner n) := by
  unfold execute
  split
  · exact renders_contents hcopy hi false hn
  · exact renders_element hcopy hi _ _ _ hn

end

/-- What may still be opened renders, to any depth. -/
theorem renders_inner (hcopy : Copyless s.uri P) (room : Nat) :
    ∀ i ∈ inner? s room, InnerRenders s P i := by
  induction room with
  | zero => exact nofun
  | succ room ih =>
    intro i hi
    cases hi
    have c := loads_congruence s
    refine ⟨⟨c.execute (c.inner room), c.contents (c.inner room) true⟩, ?_, ?_⟩
    · exact fun _ hn => renders_execute hcopy ih hn
    · exact fun _ hn => renders_contents hcopy ih true hn

end Stencil.Template
