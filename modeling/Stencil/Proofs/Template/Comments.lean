/-
Comments are transparent to the interpreter.

A directive reads its elements, texts and attributes, which twins have alike,
and goes on with contents. So every directive takes twin steps if the contents
that it goes on with do: there is one lemma for each, with that as its premise.
What is in a row is the only place where a comment may be missing on one side,
and two texts may be one there; `twin_items` goes through both rows together. A
document that is included and a macro that is called do the same by the room
that is left for them (`twin_inner`).
-/
import Stencil.Proofs.Template.Editions
import Stencil.Proofs.Template.Merging
import Stencil.Proofs.Template.Passes

namespace Stencil.Template

open Stencil.Expr (Value)
open Markup (Content Document Label Node Origin Renumbering Sifts Tree
  Uncommented Verbatim passable_insignificant)

variable {σ : Type} {r : Renumbering} {epoch : Nat} {s s' : Settings σ}
  {n n' : Node} {x x' : Run σ Unit}

-- ================================================================== passes

section

variable (hn : n.Twin r n') (hx : RunTwin r epoch x x')
include hn hx

theorem twin_itemPasses (spec : LoopSpec) (i : Nat) {vs vs' : List Value}
    (hvs : List.Forall₂ (Value.Twin r) vs vs') :
    RunTwin r epoch (itemPasses n spec x i vs)
      (itemPasses n' spec x' i vs') := by
  induction hvs generalizing i with
  | nil => exact twin_skip
  | cons hv _ ih =>
    refine (twin_bindOptional hn spec.name hv).seq ?_
    refine (twin_bindOptional hn spec.index (.int _)).seq ?_
    exact hx.seq (ih (i + 1))

theorem twin_wholePasses (name : Option String) (step : Int) (k : Nat)
    (i : Int) :
    RunTwin r epoch (wholePasses n name x step k i)
      (wholePasses n' name x' step k i) := by
  induction k generalizing i with
  | zero => exact twin_skip
  | succ k ih =>
    refine (twin_bindOptional hn name (.int _)).seq ?_
    exact hx.seq (ih (i + step))

theorem twin_floatPasses (name : Option String) (range : Range Float)
    (up : Bool) (fuel : Nat) (v : Float) :
    RunTwin r epoch (floatPasses n name range up x fuel v)
      (floatPasses n' name range up x' fuel v) := by
  induction fuel generalizing v with
  | zero => exact twin_stop .unfinished
  | succ fuel ih =>
    refine (twin_bindOptional hn name (.float _)).seq (hx.seq ?_)
    dsimp only
    split
    · exact ih (range.next up v)
    · exact twin_skip

theorem twin_loop (hs : s.Twin r epoch s') :
    RunTwin r epoch (loop s n x) (loop s' n' x') := by
  refine same_read (same_loopSpec hn) fun spec => ?_
  refine twin_read (twin_loopKind hn spec) fun kind kind' hkind => ?_
  cases hkind with
  | items hvs => exact (twin_itemPasses hn hx spec 0 hvs).inScope hn
  | range hb =>
    dsimp only
    -- the bounds decide which kind of range it is, and they are twins
    rw [hb.isFloating]
    split
    · refine same_read (same_floatRange hn hb) fun range => ?_
      split
      · exact twin_skip
      · unfold runFloat
        rw [hs.passes]
        exact (twin_floatPasses hn hx spec.name range _ _ _).inScope hn
    · refine same_read (same_wholeRange hn hb) fun range => ?_
      split
      · exact twin_skip
      · next hne =>
        rw [runWhole_eq n _ range x hne, runWhole_eq n' _ range x' hne]
        exact (twin_wholePasses hn hx spec.name _ _ _).inScope hn

end

-- ======================================================= simple directives

section

variable (hn : n.Twin r n')
include hn

theorem twin_explicitFailure :
    RunTwin r epoch (explicitFailure n : Run σ Unit) (explicitFailure n') :=
  same_read (same_substituted hn "text") fun _ =>
    twin_fail (Diagnostic.twin_about hn _)

theorem twin_doctype (hs : s.Twin r epoch s') :
    RunTwin r epoch (doctype s n) (doctype s' n') := by
  refine same_read (same_substituted hn "name") fun name => ?_
  cases name with
  | none => exact twin_fail (Diagnostic.twin_on hn _ _)
  | some name =>
    refine same_read (same_substituted hn "system") fun systemId => ?_
    refine same_read (same_substituted hn "public") fun publicId => ?_
    exact twin_sendAll hs _

theorem twin_assignment :
    RunTwin r epoch (assignment n : Run σ Unit) (assignment n') := by
  refine same_read (same_requiredName hn) fun name => ?_
  rw [hn.attribute?, hn.isContentEmpty]
  split
  · exact twin_fail (Diagnostic.twin_on hn _ _)
  · split
    · exact twin_fail (Diagnostic.twin_about hn _)
    · exact twin_read (twin_requiredValue hn) fun _ _ hv =>
        twin_bindVariable hn name hv

theorem twin_define :
    RunTwin r epoch (define n : Run σ Unit) (define n') := by
  unfold define
  rw [hn.attribute?]
  dsimp only
  split
  · exact twin_onScope hn fun _ _ hs =>
      hs.onCurrent fun _ _ hscope => hscope.define _ hn
  · exact twin_fail (Diagnostic.twin_on hn _ _)

theorem twin_bindParam :
    RunTwin r epoch (bindParam n : Run σ Unit) (bindParam n') := by
  refine same_read (same_requiredName hn) fun name => ?_
  exact twin_read (twin_requiredValue hn) fun _ _ hv =>
    twin_bindVariable hn name hv

theorem twin_condition (hx : RunTwin r epoch x x') :
    RunTwin r epoch (condition n x) (condition n' x') := by
  refine same_read (same_substituted hn "test") fun test => ?_
  cases test with
  | none => exact twin_fail (Diagnostic.twin_on hn _ _)
  | some test =>
    refine same_read (same_truth hn test) fun b => ?_
    split
    · exact hx.inScope hn
    · exact twin_skip

theorem twin_literal (hs : s.Twin r epoch s') (hx : RunTwin r epoch x x') :
    RunTwin r epoch (literal s n x) (literal s' n' x') := by
  unfold literal
  rw [hn.element?, hs.uri]
  cases n'.element? with
  | none => exact twin_skip
  | some e =>
    refine same_read (same_literalAttributes hn _ _) fun attributes => ?_
    exact (twin_send hs _).seq (hx.seq (twin_send hs _))

end

-- ========================================================= among children

section

variable {uri : String} {within kind : Directive} {origin : Origin}
  {trail : List Tree} {t : Tree} {α : Type}

/-- White space and comments are passed over. -/
theorem admitted_blank (h : t.isElement = false)
    (hblank : t.content.isInsignificant = true) :
    admitted uri n within kind ⟨origin, t, trail⟩ = pure false := by
  have other : (⟨origin, t, trail⟩ : Node).isElement = false := h
  have blank : (⟨origin, t, trail⟩ : Node).isInsignificant = true := hblank
  unfold admitted
  rw [other, blank]
  rfl

theorem admitted_filled (h : t.isElement = false)
    (hfilled : t.content.isInsignificant = false) :
    admitted uri n within kind ⟨origin, t, trail⟩
      = throw (.about n (.illegalContent within)) := by
  have other : (⟨origin, t, trail⟩ : Node).isElement = false := h
  have filled : (⟨origin, t, trail⟩ : Node).isInsignificant = false := hfilled
  unfold admitted
  rw [other, filled]
  rfl

theorem read_pure (a : α) (f : α → Run σ Unit) :
    read (pure a : Reading α) >>= f = f a := by
  funext m
  exact bind_ok (read_ok rfl)

theorem read_throw (d : Diagnostic) (f : α → Run σ Unit) :
    read (throw d : Reading α) >>= f = fail d := by
  funext m
  exact bind_error (read_error rfl)

/-- Macros are elements. -/
theorem sifts_defineAll (s : Settings σ) (n : Node) (z : Run σ Unit) :
    Sifts (fun _ => true) z fun ts => defineAll s (ts.map n.below) where
  pass {t} ts h _ := by
    have other : Directive.ofNode? s.uri (n.below t) = none := by
      unfold Directive.ofNode?
      have none : (n.below t).element? = none :=
        Option.isSome_eq_false_iff.1 h |> Option.isNone_iff_eq_none.1
      rw [none]
      rfl
    rw [List.map_cons, defineAll, other]
    rfl
  settle _ _ h := Bool.noConfusion h

theorem sifts_bindParams (s : Settings σ) (n : Node) :
    Sifts Content.isInsignificant (fail (.about n (.illegalContent .call)))
      fun ts => bindParams s n (ts.map n.below) where
  pass {t} ts h hblank := by
    have passed : admitted s.uri n .call .param (n.below t) = pure false :=
      admitted_blank h hblank
    rw [List.map_cons, bindParams, passed, read_pure]
    rfl
  settle {t} ts h hfilled := by
    have refused : admitted s.uri n .call .param (n.below t)
        = throw (.about n (.illegalContent .call)) := admitted_filled h hfilled
    rw [List.map_cons, bindParams, refused, read_throw]

theorem sifts_cases (s : Settings σ) (inner : Option (Inner σ))
    (origin : Origin) (trail : List Tree) (n : Node) :
    Sifts Content.isInsignificant (fail (.about n (.illegalContent .switch)))
      (cases s inner origin trail n) where
  pass {t} ts h hblank := by
    have passed : caseApplies s n ⟨origin, t, trail⟩ = pure false := by
      unfold caseApplies
      rw [admitted_blank h hblank]
      rfl
    rw [cases, passed, read_pure]
    rfl
  settle {t} ts h hfilled := by
    have refused : caseApplies s n ⟨origin, t, trail⟩
        = throw (.about n (.illegalContent .switch)) := by
      unfold caseApplies
      rw [admitted_filled h hfilled]
      rfl
    rw [cases, refused, read_throw]

theorem sifts_intercepts (s : Settings σ) (inner : Option (Inner σ))
    (origin : Origin) (trail : List Tree) (n : Node) :
    Sifts Content.isInsignificant
      (throw (.about n (.illegalContent .copy)) : Reading _) fun ts =>
        intercepts s.uri n (replacements s inner origin trail ts) where
  pass {t} ts h hblank := by
    rw [replacements, intercepts, admitted_blank h hblank]
    rfl
  settle {t} ts h hfilled := by
    rw [replacements, intercepts, admitted_filled h hfilled]
    rfl

end

section

variable (hs : s.Twin r epoch s') (hn : n.Twin r n')
include hs hn

theorem twin_defineAll :
    RunTwin r epoch (defineAll s n.children) (defineAll s' n'.children) := by
  refine hn.tree.below.sift (G := fun _ => True) ⟨fun _ => rfl, fun _ _ => rfl⟩
    (sifts_defineAll s n (pure ())) (sifts_defineAll s' n' (pure ())) twin_skip
    twin_skip (fun t t' us us' _ _ ht rest => ?_) (fun _ _ => trivial)
  have under := hn.under ht
  rw [List.map_cons, List.map_cons, defineAll, defineAll, hs.uri,
    same_ofNode? under]
  split
  · exact (twin_define under).seq rest
  · exact twin_skip.seq rest

theorem twin_bindParams :
    RunTwin r epoch (bindParams s n n.children)
      (bindParams s' n' n'.children) := by
  refine hn.tree.below.sift (G := fun _ => True) passable_insignificant
    (sifts_bindParams s n) (sifts_bindParams s' n')
    (twin_fail (Diagnostic.twin_about hn _)) twin_skip
    (fun t t' us us' _ _ ht rest => ?_) (fun _ _ => trivial)
  have under := hn.under ht
  rw [List.map_cons, List.map_cons, bindParams, bindParams, hs.uri]
  refine same_read (same_admitted hn _ _ _ under) fun b => ?_
  split
  · exact (twin_bindParam under).seq rest
  · exact twin_skip.seq rest

end

-- ==================================================== inclusions and calls

/-- What is open on both sides does the same at twins. -/
structure InnerTwin (r : Renumbering) (epoch : Nat) (inner inner' : Inner σ) :
    Prop where
  execute {n n' : Node} : n.Twin r n' →
    RunTwin r epoch (inner.execute n) (inner'.execute n')
  expand {n n' : Node} : n.Twin r n' →
    RunTwin r epoch (inner.expand n) (inner'.expand n')

section

variable {inner inner' : Option (Inner σ)} (hs : s.Twin r epoch s')
  (hi : Option.Rel (InnerTwin r epoch) inner inner') (hn : n.Twin r n')
include hs hn

theorem twin_includeDocument {inner inner' : Inner σ}
    (hi : InnerTwin r epoch inner inner') (href : String) :
    RunTwin r epoch (includeDocument s inner n href)
      (includeDocument s' inner' n' href) := by
  refine twin_state fun m m' hm => ?_
  have base : m.scopes.base = m'.scopes.base := hm.current.base
  rw [base]
  cases Loading.resolveHref m'.scopes.base href with
  | error e => exact twin_fail (Diagnostic.twin_on hn _ _)
  | ok url =>
    refine twin_load hs url fun d d' hd => ?_
    cases hd with
    | error he =>
      subst he
      exact twin_fail (Diagnostic.twin_on hn _ _)
    | @ok d d' hd =>
      have hroot := hd.rootElement?
      dsimp only
      generalize d.rootElement? = root at hroot ⊢
      generalize d'.rootElement? = root' at hroot ⊢
      cases hroot with
      | none => exact twin_fail (Diagnostic.twin_about hn _)
      | some hroot =>
        exact ((twin_setBase _).seq (hi.execute hroot).nested).inScope hroot

include hi

theorem twin_inclusion :
    RunTwin r epoch (inclusion s inner n) (inclusion s' inner' n') := by
  refine same_read (same_substituted hn "href") fun href => ?_
  cases href with
  | none => exact twin_fail (Diagnostic.twin_on hn _ _)
  | some href =>
    cases hi with
    | none => exact twin_fail (Diagnostic.twin_on hn _ _)
    | some hi => exact twin_includeDocument hs hn hi href

theorem twin_call :
    RunTwin r epoch (call s inner n) (call s' inner' n') := by
  refine same_read (same_substituted hn "name") fun name => ?_
  refine twin_state fun m m' hm => ?_
  have hbody := hm.defined? (name.getD "")
  generalize m.scopes.defined? (name.getD "") = body at hbody ⊢
  generalize m'.scopes.defined? (name.getD "") = body' at hbody ⊢
  cases hbody with
  | none => exact twin_fail (Diagnostic.twin_on hn _ _)
  | some hbody =>
    cases hi with
    | none => exact twin_fail (Diagnostic.twin_on hn _ _)
    | some hi =>
      exact ((twin_bindParams hs hn).seq (hi.expand hbody).nested).inScope hn

end

-- ================================================================== copies

/-- Intercepts that say the same, with replacements that do the same. -/
structure InterceptTwin (r : Renumbering) (epoch : Nat) (i i' : Intercept σ) :
    Prop where
  tag : i.tag = i'.tag
  node : i.node.Twin r i'.node
  capture : i.capture = i'.capture
  replacement : RunTwin r epoch i.replacement i'.replacement

theorem InterceptTwin.run {i i' : Intercept σ} (hi : InterceptTwin r epoch i i')
    (hn : n.Twin r n') : RunTwin r epoch (i.run n) (i'.run n') := by
  unfold Intercept.run
  rw [hi.capture]
  exact ((twin_bindOptional hi.node _ (.element hn)).seq
    hi.replacement).inScope hi.node

section

variable {is is' : List (Intercept σ)} {origin : Origin}

/-- What is copied of a tree is the same for its twin, wherever they stand. -/
def Copied (r : Renumbering) (epoch : Nat) (s s' : Settings σ)
    (is is' : List (Intercept σ)) (origin : Origin) (t : Tree) : Prop :=
  ∀ {trail trail' : List Tree} {t' : Tree},
    List.Forall₂ (Tree.Twin (r.takes origin)) trail trail' →
      t.Twin (r.takes origin) t' →
        RunTwin r epoch (copyTree s is origin trail t)
          (copyTree s' is' origin trail' t')

theorem twin_copyTrees (hs : s.Twin r epoch s') {trail trail' : List Tree}
    (htrail : List.Forall₂ (Tree.Twin (r.takes origin)) trail trail')
    {ts ts' : List Tree} (h : Uncommented (r.takes origin) ts ts')
    (hts : ∀ t ∈ ts, Copied r epoch s s' is is' origin t) :
    RunTwin r epoch (copyTrees s is origin trail ts)
      (copyTrees s' is' origin trail' ts') := by
  induction h with
  | nil => exact twin_skip
  | @keep l l' ts ts' us us' content number below _ _ rest =>
    obtain ⟨hfirst, hrest⟩ := List.forall_mem_cons.1 hts
    have twins : (Markup.Tree.node l ts).Twin (r.takes origin) (.node l' ts') :=
      ⟨content, number, below⟩
    exact (hfirst htrail twins).seq (rest hrest)
  | drop comment _ rest =>
    rw [copyTrees_comment comment]
    exact rest (List.forall_mem_cons.1 hts).2
  | join first comment second joined _ _ _ rest =>
    have behind := rest fun t ht => hts t (by simp [ht])
    rw [copyTrees, copyTrees_comment comment, ← copyTrees,
      copyTrees_join hs.joins first second, copyTrees, copyTree_text joined]
    exact (twin_send hs _).seq behind

theorem twin_copyTree (hs : s.Twin r epoch s')
    (his : List.Forall₂ (InterceptTwin r epoch) is is') :
    ∀ t, Copied r epoch s s' is is' origin t := by
  refine Tree.induction fun l ts ih => ?_
  intro trail trail' t' htrail ht
  obtain ⟨l', ts'⟩ := t'
  have hn : Node.Twin r ⟨origin, .node l ts, trail⟩
      ⟨origin, .node l' ts', trail'⟩ := ⟨rfl, ht, htrail⟩
  have inside := twin_copyTrees hs (.cons ht htrail) ht.below ih
  have content : l.content = l'.content := ht.content
  rw [copyTree, copyTree, content, hs.uri]
  cases l'.content with
  | element e =>
    -- tags have the same names, so both copies are intercepted or neither is
    have found : Option.Rel (InterceptTwin r epoch)
        (is.find? fun i => i.tag == e.name.text)
        (is'.find? fun i => i.tag == e.name.text) :=
      rel_find? his fun i i' hi => by rw [hi.tag]
    dsimp only
    generalize is.find? _ = i at found ⊢
    generalize is'.find? _ = i' at found ⊢
    cases found with
    | some hi => exact hi.run hn
    | none =>
      exact (twin_send hs _).seq ((inside.inScope hn).seq (twin_send hs _))
  | text data => exact twin_send hs _
  | cdata data => exact twin_sendAll hs _
  | _ => exact twin_skip

theorem twin_copyFrom (hs : s.Twin r epoch s')
    (his : List.Forall₂ (InterceptTwin r epoch) is is') (whole : Bool)
    (hn : n.Twin r n') :
    RunTwin r epoch (copyFrom s is whole n) (copyFrom s' is' whole n') := by
  have tree : ∀ t, Copied r epoch s s' is is' n.origin t :=
    twin_copyTree hs his
  unfold copyFrom
  rw [← hn.origin]
  split
  · exact tree _ hn.trail hn.tree
  · exact (twin_copyTrees hs (.cons hn.tree hn.trail) hn.tree.below
      fun t _ => tree t).inScope hn

theorem twin_copy (hs : s.Twin r epoch s') (hn : n.Twin r n')
    {children children' : List (Node × Run σ Unit)}
    (his : ReadTwin r (List.Forall₂ (InterceptTwin r epoch))
      (intercepts s.uri n children) (intercepts s'.uri n' children')) :
    RunTwin r epoch (copy s n children) (copy s' n' children') := by
  refine same_read (same_substituted hn "element") fun text => ?_
  cases text with
  | none => exact twin_fail (Diagnostic.twin_on hn _ _)
  | some text =>
    refine RunTwin.inScope ?_ hn
    refine twin_read (twin_copySource hn text) fun source source' hsource => ?_
    refine same_read (same_copiesWhole hn) fun whole => ?_
    exact twin_read his fun is is' his => twin_copyFrom hs his whole hsource

end

-- ================================================================ elements

/-- What lies in an element does the same as what lies in its twin. -/
structure BelowTwin (r : Renumbering) (epoch : Nat) (s s' : Settings σ)
    (n n' : Node) (below below' : Below σ) : Prop where
  contents (trim : Bool) :
    RunTwin r epoch (below.contents trim) (below'.contents trim)
  cases : RunTwin r epoch below.cases below'.cases
  intercepts : ReadTwin r (List.Forall₂ (InterceptTwin r epoch))
    (intercepts s.uri n below.replacements)
    (intercepts s'.uri n' below'.replacements)

section

variable {inner inner' : Option (Inner σ)} (hs : s.Twin r epoch s')
  (hi : Option.Rel (InnerTwin r epoch) inner inner')
include hs hi

theorem twin_perform (hn : n.Twin r n') {below below' : Below σ}
    (hb : BelowTwin r epoch s s' n n' below below') :
    RunTwin r epoch (perform s inner n below)
      (perform s' inner' n' below') := by
  have directive (d : Directive) :
      RunTwin r epoch (obey s inner n below d)
        (obey s' inner' n' below' d) := by
    cases d with
    | failure => exact twin_explicitFailure hn
    | doctype => exact twin_doctype hn hs
    | inclusion => exact twin_inclusion hs hi hn
    | assignment => exact twin_assignment hn
    | condition => exact twin_condition hn (hb.contents true)
    | switch => exact hb.cases
    | loop => exact twin_loop hn (hb.contents true) hs
    | call => exact twin_call hs hi hn
    | comment => exact twin_skip
    | copy => exact twin_copy hs hn hb.intercepts
    | definition => exact twin_skip
    | _ => exact twin_fail (Diagnostic.twin_about hn _)
  unfold perform
  rw [hs.uri, same_ofNode? hn]
  refine same_read (same_included hn _) fun b => ?_
  split
  · cases Directive.ofNode? s'.uri n' with
    | some d => exact directive d
    | none => exact twin_literal hn hs (hb.contents false)
  · exact twin_skip

end

/-- A tree is processed as its twin is, wherever they stand: the tree itself if
it is an element, and its trimmed contents. -/
structure Processed (r : Renumbering) (epoch : Nat) (s s' : Settings σ)
    (inner inner' : Option (Inner σ)) (origin : Origin) (t : Tree) : Prop where
  element {trail trail' : List Tree} {t' : Tree} :
    List.Forall₂ (Tree.Twin (r.takes origin)) trail trail' →
      t.Twin (r.takes origin) t' →
        RunTwin r epoch (element s inner origin trail t)
          (element s' inner' origin trail' t')
  body {trail trail' : List Tree} {t' : Tree} :
    List.Forall₂ (Tree.Twin (r.takes origin)) trail trail' →
      t.Twin (r.takes origin) t' →
        RunTwin r epoch (body s inner origin trail t)
          (body s' inner' origin trail' t')

section

variable {inner inner' : Option (Inner σ)} {origin : Origin}
  {trail trail' ts ts' : List Tree}

theorem twin_item (hs : s.Twin r epoch s') (hn : n.Twin r n')
    (front back : Bool) (hx : RunTwin r epoch x x') :
    RunTwin r epoch (item s n front back x) (item s' n' front back x') := by
  unfold item
  rw [hs.uri, hn.content, same_ofNode? hn]
  cases n'.content with
  | element e =>
    dsimp only
    split
    · exact twin_skip
    · exact hx
  | text data =>
    unfold text
    dsimp only
    split
    · exact twin_skip
    · exact same_read (same_text hn _ _ _) fun text => twin_send hs _
  | cdata data => exact twin_sendAll hs _
  | _ => exact twin_skip

/-- Contents are processed alike if their first children are and the others
are. -/
theorem twin_items_cons {t t' : Tree}
    (hsame : t.isInsignificant = t'.isInsignificant)
    (hall : ts.all Tree.isInsignificant = ts'.all Tree.isInsignificant)
    {trim : Bool}
    (hitem : ∀ front ends, RunTwin r epoch
      (item s ⟨origin, t, trail⟩ front ends (element s inner origin trail t))
      (item s' ⟨origin, t', trail'⟩ front ends
        (element s' inner' origin trail' t')))
    (hrest : ∀ front, RunTwin r epoch
      (items s inner origin trail trim front ts)
      (items s' inner' origin trail' trim front ts')) (front : Bool) :
    RunTwin r epoch (items s inner origin trail trim front (t :: ts))
      (items s' inner' origin trail' trim front (t' :: ts')) := by
  rw [items, items, hsame, hall]
  split
  · exact hrest true
  · split
    · exact twin_skip
    · exact (hitem _ _).seq (hrest false)

theorem twin_items (hs : s.Twin r epoch s')
    (htrail : List.Forall₂ (Tree.Twin (r.takes origin)) trail trail')
    (h : Uncommented (r.takes origin) ts ts')
    (hts : ∀ t ∈ ts, Processed r epoch s s' inner inner' origin t)
    (trim front : Bool) :
    RunTwin r epoch (items s inner origin trail trim front ts)
      (items s' inner' origin trail' trim front ts') := by
  induction h generalizing front with
  | nil => exact twin_skip
  | @keep l l' ts ts' us us' content number below hus _ rest =>
    obtain ⟨hfirst, hrest⟩ := List.forall_mem_cons.1 hts
    have twins : (Markup.Tree.node l ts).Twin (r.takes origin) (.node l' ts') :=
      ⟨content, number, below⟩
    have nodes : Node.Twin r ⟨origin, .node l ts, trail⟩
      ⟨origin, .node l' ts', trail'⟩ := ⟨rfl, twins, htrail⟩
    refine twin_items_cons twins.isInsignificant hus.all_isInsignificant
      (fun front ends => ?_) (fun front => rest hrest front) front
    exact twin_item hs nodes front ends (hfirst.element htrail twins)
  | drop comment _ rest =>
    rw [items_comment comment]
    exact rest (List.forall_mem_cons.1 hts).2 front
  | @join k l m k' a b c ks ls ms ks' us us' first comment second joined ha hb
      hus rest =>
    -- the comment goes, the two texts become one, and that is met on both sides
    have behind := fun front => rest (fun t ht => hts t (by simp [ht])) front
    have text {s : Settings σ} {trail : List Tree}
        (front ends : Bool) (x : Run σ Unit) :
        item s ⟨origin, .node k' ks', trail⟩ front ends x
          = words s (trimEnds front ends (a ++ b)) := by
      have content : (⟨origin, .node k' ks', trail⟩ : Node).content
        = .text (a ++ b) := joined
      unfold item
      rw [content]
      have plain := hasExpression_verbatim (verbatim_append ha hb)
      exact text_plain (hasExpression_trimEnds plain front ends) _
    rw [items_comment_behind comment,
      items_join hs.joins first second joined ks' ha hb]
    refine twin_items_cons rfl hus.all_isInsignificant (fun front ends => ?_)
      behind front
    rw [text, text]
    unfold words
    split
    · exact twin_skip
    · exact twin_send hs _

theorem twin_cases (hs : s.Twin r epoch s') (hn : n.Twin r n')
    (htrail : List.Forall₂ (Tree.Twin (r.takes origin)) trail trail')
    (h : Uncommented (r.takes origin) ts ts')
    (hts : ∀ t ∈ ts, Processed r epoch s s' inner inner' origin t) :
    RunTwin r epoch (cases s inner origin trail n ts)
      (cases s' inner' origin trail' n' ts') := by
  refine h.sift passable_insignificant (sifts_cases s inner origin trail n)
    (sifts_cases s' inner' origin trail' n')
    (twin_fail (Diagnostic.twin_about hn _)) twin_skip
    (fun t t' us us' hbody _ ht rest => ?_) hts
  have child : Node.Twin r ⟨origin, t, trail⟩ ⟨origin, t', trail'⟩ :=
    ⟨rfl, ht, htrail⟩
  rw [cases, cases]
  refine same_read (same_caseApplies hn hs.uri child) fun b => ?_
  split
  · exact (hbody.body htrail ht).inScope child
  · exact rest

theorem twin_intercepts (hs : s.Twin r epoch s') (hn : n.Twin r n')
    (htrail : List.Forall₂ (Tree.Twin (r.takes origin)) trail trail')
    (h : Uncommented (r.takes origin) ts ts')
    (hts : ∀ t ∈ ts, Processed r epoch s s' inner inner' origin t) :
    ReadTwin r (List.Forall₂ (InterceptTwin r epoch))
      (intercepts s.uri n (replacements s inner origin trail ts))
      (intercepts s'.uri n' (replacements s' inner' origin trail' ts')) := by
  refine h.sift passable_insignificant (sifts_intercepts s inner origin trail n)
    (sifts_intercepts s' inner' origin trail' n')
    (twin_throw (Diagnostic.twin_about hn _)) (twin_pure .nil)
    (fun t t' us us' hbody _ ht rest => ?_) hts
  have child : Node.Twin r ⟨origin, t, trail⟩ ⟨origin, t', trail'⟩ :=
    ⟨rfl, ht, htrail⟩
  rw [replacements, replacements, intercepts, intercepts]
  rw [hs.uri] at rest ⊢
  refine (same_admitted hn _ _ _ child).same_bind fun b => ?_
  split
  · refine (same_interceptSpec child).same_bind fun (tag, capture) => ?_
    refine rest.bind fun is is' his => ?_
    exact twin_pure (.cons ⟨rfl, child, rfl, hbody.body htrail ht⟩ his)
  · exact rest

/-- Every tree is processed as its twin is. -/
theorem twin_processed (hs : s.Twin r epoch s')
    (hi : Option.Rel (InnerTwin r epoch) inner inner') :
    ∀ t, Processed r epoch s s' inner inner' origin t := by
  refine Tree.induction fun l ts ih => ?_
  -- the inside of an element, which both claims below are about
  have inside {trail trail' ts' : List Tree} {l' : Label}
      (htrail : List.Forall₂ (Tree.Twin (r.takes origin)) trail trail')
      (ht : (Markup.Tree.node l ts).Twin (r.takes origin) (.node l' ts'))
      (trim : Bool) :
      RunTwin r epoch
        (do
          defineAll s (⟨origin, .node l ts, trail⟩ : Node).children
          items s inner origin (.node l ts :: trail) trim trim ts)
        (do
          defineAll s' (⟨origin, .node l' ts', trail'⟩ : Node).children
          items s' inner' origin (.node l' ts' :: trail') trim trim ts') := by
    have hn : Node.Twin r ⟨origin, .node l ts, trail⟩
      ⟨origin, .node l' ts', trail'⟩ := ⟨rfl, ht, htrail⟩
    exact (twin_defineAll hs hn).seq
      (twin_items hs (.cons ht htrail) ht.below ih trim trim)
  constructor
  · intro trail trail' t' htrail ht
    obtain ⟨l', ts'⟩ := t'
    have hn : Node.Twin r ⟨origin, .node l ts, trail⟩
      ⟨origin, .node l' ts', trail'⟩ := ⟨rfl, ht, htrail⟩
    rw [element, element]
    exact twin_perform hs hi hn
      ⟨inside htrail ht, twin_cases hs hn (.cons ht htrail) ht.below ih,
        twin_intercepts hs hn (.cons ht htrail) ht.below ih⟩
  · intro trail trail' t' htrail ht
    obtain ⟨l', ts'⟩ := t'
    rw [body, body]
    exact inside htrail ht true

end

-- ============================================================== whole runs

section

variable {inner inner' : Option (Inner σ)} (hs : s.Twin r epoch s')
include hs

theorem twin_contents (hi : Option.Rel (InnerTwin r epoch) inner inner')
    (trim : Bool) (hn : n.Twin r n') :
    RunTwin r epoch (contents s inner trim n)
      (contents s' inner' trim n') := by
  have processed : ∀ t, Processed r epoch s s' inner inner' n.origin t :=
    twin_processed hs hi
  unfold contents
  rw [← hn.origin]
  exact (twin_defineAll hs hn).seq (twin_items hs (.cons hn.tree hn.trail)
    hn.tree.below (fun t _ => processed t) trim trim)

theorem twin_execute (hi : Option.Rel (InnerTwin r epoch) inner inner')
    (hn : n.Twin r n') :
    RunTwin r epoch (execute s inner n) (execute s' inner' n') := by
  unfold execute
  rw [hs.uri, same_ofNode? hn]
  split
  · exact twin_contents hs hi false hn
  · rw [← hn.origin]
    exact (twin_processed hs hi n.tree).element hn.trail hn.tree

/-- What may still be opened does the same, to any depth. -/
theorem twin_inner (room : Nat) :
    Option.Rel (InnerTwin r epoch) (inner? s room) (inner? s' room) := by
  induction room with
  | zero => exact .none
  | succ room ih =>
    exact .some ⟨twin_execute hs ih, twin_contents hs ih true⟩

theorem twin_process (hn : n.Twin r n') :
    RunTwin r epoch (process s n) (process s' n') :=
  twin_execute hs (twin_inner hs nestingLimit) hn

end

end Stencil.Template
