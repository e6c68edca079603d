/-
Where qualifiers are looked up.

A qualifier is looked up at the anchor of the innermost scope, so what it means
depends on the way by which an expression is reached. The anchor can be told
from where the expression stands: it is the nearest directive around that opens
a scope, but for the body of a macro, where it is the call, and where there is
none it is the root (`anchorOf`). Going through the tasks, leaving scopes where
they do, each task is come to with the anchor that is told (`Anchored`); this is
what a step keeps, whichever way it leads.
-/
import Stencil.Proofs.Expr.Qualifiers
import Stencil.Proofs.Markup.Resolved
import Stencil.Proofs.Template.Bases
import Stencil.Proofs.Template.Inversion
import Stencil.Proofs.Template.Loaded

namespace Stencil.Template

open Markup (Document Node Origin Tree)

variable {σ : Type}

-- ================================================================= anchors

/-- Directives that have a scope of their own for what lies in them. -/
def Directive.opensScope : Directive → Bool
  | .condition => true
  | .loop => true
  | .case => true
  | .call => true
  | .copy => true
  | .intercept => true
  | _ => false

/-- The anchor for the contents of the first of these trees, each of which lies
in the next: `call` is the call that is open, and outside of everything there
is none. -/
def anchorOf (uri : String) (call : Option Node) (origin : Origin) :
    List Tree → Option Node
  | [] => none
  | t :: ts =>
    if t.isElement then
      let n : Node := ⟨origin, t, ts⟩
      let d := Directive.ofNode? uri n
      if d = some .definition then call
      else if d.any (·.opensScope) then some n
      else (anchorOf uri call origin ts).or (some n)
    else none

/-- The anchor for what lies in a node. -/
def anchorIn (uri : String) (call : Option Node) (n : Node) : Option Node :=
  anchorOf uri call n.origin (n.tree :: n.trail)

/-- The anchor for a node itself: for its attributes if it is an element, and
for its data if it is a text. -/
def anchorAt (uri : String) (call : Option Node) (n : Node) : Node :=
  (anchorOf uri call n.origin n.trail).getD n

/-- The node lies in no element. -/
def IsTop (n : Node) : Prop := ∀ t ∈ n.trail.head?, t.isElement = false

section

variable {uri : String} {call : Option Node} {n a : Node}

/-- Only an element is a directive. -/
theorem isElement_of_ofNode? {d : Directive}
    (h : Directive.ofNode? uri n = some d) : n.tree.isElement = true := by
  obtain ⟨e, he, -⟩ := Option.bind_eq_some_iff.1 h
  exact Option.isSome_of_eq_some he

theorem anchorIn_eq (h : n.tree.isElement = true) :
    anchorIn uri call n
      = if Directive.ofNode? uri n = some .definition then call
        else if (Directive.ofNode? uri n).any (·.opensScope) then some n
        else some (anchorAt uri call n) := by
  unfold anchorIn anchorAt
  rw [anchorOf, if_pos h]
  dsimp only
  rw [Option.or_some]

theorem anchorIn_opener {d : Directive}
    (hn : Directive.ofNode? uri n = some d) (hd : d.opensScope = true) :
    anchorIn uri call n = some n := by
  have hdefinition : d ≠ .definition := by
    rintro rfl
    cases hd
  rw [anchorIn_eq (isElement_of_ofNode? hn), hn,
    if_neg fun h => hdefinition (Option.some.inj h), Option.any_some, if_pos hd]

theorem anchorIn_definition
    (hn : Directive.ofNode? uri n = some .definition) :
    anchorIn uri call n = call := by
  rw [anchorIn_eq (isElement_of_ofNode? hn), if_pos hn]

/-- What opens no scope has its contents looked up where it is itself. -/
theorem anchorIn_literal (he : n.tree.isElement = true)
    (hn : Directive.ofNode? uri n = none) :
    anchorIn uri call n = some (anchorAt uri call n) := by
  rw [anchorIn_eq he, hn, if_neg (Option.some_ne_none _).symm, Option.any_none,
    if_neg Bool.false_ne_true]

theorem anchorIn_transparent {d : Directive}
    (hn : Directive.ofNode? uri n = some d) (hdefinition : d ≠ .definition)
    (hd : d.opensScope = false) :
    anchorIn uri call n = some (anchorAt uri call n) := by
  rw [anchorIn_eq (isElement_of_ofNode? hn), hn,
    if_neg fun h => hdefinition (Option.some.inj h), Option.any_some, hd,
    if_neg Bool.false_ne_true]

theorem anchorAt_below (h : anchorIn uri call n = some a) (t : Tree) :
    anchorAt uri call (n.below t) = a := by
  show (anchorIn uri call n).getD _ = a
  rw [h]
  rfl

theorem anchorAt_top (h : IsTop n) : anchorAt uri call n = n := by
  unfold anchorAt
  cases htrail : n.trail with
  | nil => rfl
  | cons t ts =>
    have ht : t.isElement = false := h t (by rw [htrail]; rfl)
    rw [anchorOf, ht, if_neg Bool.false_ne_true]
    rfl

/-- The root of a document that was parsed lies in no element. -/
theorem isTop_root {source : List Char} {d : Document} {root : Node}
    (hparse : Tree.parse source = .ok d.root) (h : d.rootElement? = some root) :
    IsTop root := by
  obtain ⟨id, place, ts, hroot, -⟩ := Tree.children_of_parse hparse
  obtain ⟨t, -, rfl⟩ := List.mem_map.1 (List.mem_of_find?_eq_some h)
  intro u hu
  cases hu
  show d.root.isElement = false
  rw [hroot]
  rfl

/-- The anchor is the call, or lies around the node. -/
theorem exists_lineage_anchorOf (origin : Origin) (trail : List Tree)
    (h : anchorOf uri call origin trail = some a) :
    some a = call
      ∨ ∃ inner, Node.onTrail origin trail = inner ++ a.lineage := by
  induction trail with
  | nil => cases h
  | cons t ts ih =>
    unfold anchorOf at h
    dsimp only at h
    split at h
    · split at h
      · exact .inl h.symm
      · split at h
        · cases h
          -- the opener itself: nothing of the trail is inside of it
          exact .inr ⟨[], rfl⟩
        · cases hbelow : anchorOf uri call origin ts with
          | none =>
            rw [hbelow] at h
            cases h
            exact .inr ⟨[], rfl⟩
          -- a higher anchor, which only leaves this node below it
          | some b =>
            rw [hbelow] at h
            cases h
            refine (ih hbelow).imp id ?_
            rintro ⟨inner, hinner⟩
            exact ⟨⟨origin, t, ts⟩ :: inner, by rw [Node.onTrail, hinner]; rfl⟩
    · cases h

theorem exists_lineage_anchorAt (uri : String) (call : Option Node) (n : Node) :
    call = some (anchorAt uri call n)
      ∨ ∃ inner, n.lineage = inner ++ (anchorAt uri call n).lineage := by
  unfold anchorAt
  cases h : anchorOf uri call n.origin n.trail with
  | none => exact .inr ⟨[], rfl⟩
  | some a =>
    refine (exists_lineage_anchorOf n.origin n.trail h).imp Eq.symm ?_
    rintro ⟨inner, hinner⟩
    exact ⟨n :: inner, congrArg (n :: ·) hinner⟩

end

-- =================================================================== tasks

/-- The call or inclusion that is innermost when these tasks are left. -/
def openedIn (ts : List Task) : Option Node :=
  (ts.filterMap Task.closed?).head?

/-- A task is come to with the anchor that can be told. -/
def Task.Fits (uri : String) (call : Option Node) (a : Node) : Task → Prop
  | .execute n => IsTop n ∧ n = a
  | .element n => anchorAt uri call n = a
  | .contents _ n => anchorIn uri call n = some a
  | .items _ _ parent _ => anchorIn uri call parent = some a
  | .cases n _ => anchorIn uri call n = some a
  | .each n _ _ _ => Directive.ofNode? uri n = some .loop ∧ n = a
  | .whole n _ _ _ _ => Directive.ofNode? uri n = some .loop ∧ n = a
  | .floating n _ _ _ _ => Directive.ofNode? uri n = some .loop ∧ n = a
  | .fetch _ _ => True
  | .invoke n body => Directive.ofNode? uri n = some .call
    ∧ Directive.ofNode? uri body = some .definition ∧ n = a
  | .copyTree is _ =>
    ∀ i ∈ is, Directive.ofNode? uri i.node = some .intercept
  | .copyTrees is _ _ =>
    ∀ i ∈ is, Directive.ofNode? uri i.node = some .intercept
  | .send _ => True
  | .leave => True
  | .close _ => True

/-- The tasks are all come to with the anchors that can be told, when scopes are
anchored at these nodes: the innermost one, and those around it. -/
def Anchored (uri : String) : List Task → Node → List Node → Prop
  | [], _, _ => True
  | .leave :: ts, a, [] => Anchored uri ts a []
  | .leave :: ts, _, b :: bs => Anchored uri ts b bs
  | t :: ts, a, as => t.Fits uri (openedIn ts) a ∧ Anchored uri ts a as

/-- The anchors of all scopes, innermost first. -/
def Scopes.anchors (scopes : Scopes) : List Node :=
  scopes.sites.map Site.anchor

/-- Of a scope all macros go by the names of elements that define them, and no
function tells of qualifiers or namespaces by itself. -/
structure Site.Proper (uri : String) (site : Site) : Prop where
  definitions : ∀ x ∈ site.macros, Defines uri x.2 x.1
  discreet : ∀ x ∈ site.libraries, x.2.Discreet

section

variable {s : Settings σ} {m m' : Machine σ} {t : Task} {ts rest : List Task}
  {es : List Output.Event} {n : Node} {call : Option Node} {a : Node}

theorem fits_loop (h : t.loop? = some n) :
    t.Fits s.uri call a ↔ Directive.ofNode? s.uri n = some .loop ∧ n = a := by
  cases t with
  | each => cases h; rfl
  | whole => cases h; rfl
  | floating => cases h; rfl
  | _ => cases h

theorem anchored_loop {as : List Node} (h : t.loop? = some n) :
    Anchored s.uri (t :: ts) a as
      ↔ t.Fits s.uri (openedIn ts) a ∧ Anchored s.uri ts a as := by
  cases t with
  | leave => cases h
  | _ => rfl

/-- The anchors stay when macros are defined. -/
theorem anchors_defineAll {ns : List Node}
    (h : defineAll s ns m = .ok () m') :
    m'.scopes.anchors = m.scopes.anchors := by
  have framed := (framed_congruence s).defineAll ns m
  rw [after_ok h] at framed
  show m'.scopes.current.anchor :: (m'.scopes.outer.map Scope.site).map _
    = m.scopes.current.anchor :: (m.scopes.outer.map Scope.site).map _
  rw [framed.outer, framed.current.anchor]

theorem defined_proper {name : String} {body : Node}
    (hsites : ∀ site ∈ m.scopes.sites, site.Proper s.uri)
    (h : m.scopes.defined? name = some body) :
    Directive.ofNode? s.uri body = some .definition := by
  obtain ⟨site, hsite, hbody⟩ := exists_of_defined? h
  exact ((hsites site hsite).definitions (name, body) hbody).definition

/-- Behind the end of a scope the tasks fit the scope around it. The outermost
scope is not left. -/
theorem anchored_leave {as : List Node} (has : m.scopes.anchors = a :: as)
    (h : Anchored s.uri (.leave :: rest) a as)
    (hm : m'.scopes = m.scopes.pop) :
    ∃ b bs, m'.scopes.anchors = b :: bs ∧ Anchored s.uri rest b bs := by
  have hpop : m'.scopes.anchors = m.scopes.pop.anchors :=
    congrArg Scopes.anchors hm
  rw [hpop]
  revert has
  generalize m.scopes = scopes
  intro has
  obtain ⟨current, outer⟩ := scopes
  obtain ⟨rfl, rfl⟩ := List.cons.inj has
  cases outer with
  | nil => exact ⟨_, _, rfl, h⟩
  | cons scope scopes => exact ⟨_, _, rfl, h⟩

/-- What a task that is come to with its anchor is replaced by has its anchors
too. -/
theorem anchored_leads {as : List Node} (h : Leads s m m' t ts es)
    (hsites : ∀ site ∈ m.scopes.sites, site.Proper s.uri)
    (hcache : AllParsed m.cache) (has : m.scopes.anchors = a :: as)
    (hanchored : Anchored s.uri (t :: rest) a as) :
    ∃ b bs, m'.scopes.anchors = b :: bs
      ∧ Anchored s.uri (ts ++ rest) b bs := by
  have same (hm : SameSites m m') : m'.scopes.anchors = a :: as :=
    (congrArg (List.map Site.anchor) hm).trans has
  have opened {n : Node} (hm : OpenedAt n m m') :
      m'.scopes.anchors = n :: a :: as :=
    (congrArg (List.map Site.anchor) hm).trans (congrArg (n :: ·) has)
  cases h with
  | template hn hm =>
    obtain ⟨⟨htop, rfl⟩, hrest⟩ := hanchored
    refine ⟨_, _, same hm, ?_, hrest⟩
    show anchorIn s.uri _ _ = _
    rw [anchorIn_transparent hn nofun rfl, anchorAt_top htop]
  | root hn hm =>
    obtain ⟨⟨htop, rfl⟩, hrest⟩ := hanchored
    exact ⟨_, _, same hm, anchorAt_top htop, hrest⟩
  | inclusion _ hn hm =>
    exact ⟨_, _, same hm, trivial, hanchored.2⟩
  | condition hn hm =>
    exact ⟨_, _, opened hm, anchorIn_opener hn rfl, hanchored.2⟩
  | loop hn ht hm =>
    exact ⟨_, _, opened hm, (anchored_loop ht).2
      ⟨(fits_loop ht).2 ⟨hn, rfl⟩, hanchored.2⟩⟩
  | call hn hbody hm =>
    exact ⟨_, _, opened hm, ⟨hn, defined_proper hsites hbody, rfl⟩,
      hanchored.2⟩
  | switch hn hm =>
    obtain ⟨rfl, hrest⟩ := hanchored
    exact ⟨_, _, same hm, anchorIn_transparent hn nofun rfl, hrest⟩
  | copyWhole hn his hm =>
    exact ⟨_, _, opened hm, fun i hi => (his i hi).2, hanchored.2⟩
  | copyContents hn his hm =>
    have hanchors := congrArg (List.map Site.anchor) hm
    exact ⟨_, _, hanchors.trans (congrArg (_ :: _ :: ·) has),
      fun i hi => (his i hi).2, hanchored.2⟩
  | literal _ hn he hm =>
    obtain ⟨rfl, hrest⟩ := hanchored
    exact ⟨_, _, same hm, anchorIn_literal (Option.isSome_of_eq_some he) hn,
      trivial, hrest⟩
  | contents hm =>
    exact ⟨_, _, (anchors_defineAll hm).trans has, hanchored⟩
  | child _ _ hm =>
    obtain ⟨hfits, hrest⟩ := hanchored
    exact ⟨_, _, same hm, anchorAt_below hfits _, hfits, hrest⟩
  | skipped _ hm | passed _ _ _ hm | text _ _ _ _ hm | itemSection _ _ hm
  | nextCase hm => exact ⟨_, _, same hm, hanchored⟩
  | case hn hm =>
    exact ⟨_, _, opened hm, anchorIn_opener hn rfl, hanchored.2⟩
  | noPass ht hm =>
    exact ⟨_, _, same hm, ((anchored_loop ht).1 hanchored).2⟩
  | pass ht hu hm =>
    -- its scope was opened by the loop, so that is the anchor
    obtain ⟨hfits, hrest⟩ := (anchored_loop ht).1 hanchored
    obtain ⟨hn, rfl⟩ := (fits_loop ht).1 hfits
    exact ⟨_, _, same hm, anchorIn_opener hn rfl,
      (anchored_loop hu).2 ⟨(fits_loop hu).2 ⟨hn, rfl⟩, hrest⟩⟩
  | lastPass ht hm =>
    obtain ⟨hfits, hrest⟩ := (anchored_loop ht).1 hanchored
    obtain ⟨hn, rfl⟩ := (fits_loop ht).1 hfits
    exact ⟨_, _, same hm, anchorIn_opener hn rfl, hrest⟩
  | fetched hload hroot hm =>
    -- a document begins anew: its root has nothing around it
    obtain ⟨text, hparse⟩ := (hcache.load s.source _).1 _
      (congrArg Prod.fst hload)
    exact ⟨_, _, opened hm, ⟨isTop_root hparse hroot, rfl⟩, trivial,
      hanchored.2⟩
  | invoked hm =>
    obtain ⟨⟨hn, hbody, rfl⟩, hrest⟩ := hanchored
    exact ⟨_, _, same hm, anchorIn_definition hbody, trivial, hrest⟩
  | replaced hi _ hm =>
    exact ⟨_, _, opened hm, anchorIn_opener (hanchored.1 _ hi) rfl,
      hanchored.2⟩
  | copied _ _ hm =>
    exact ⟨_, _, opened hm, hanchored.1, trivial, hanchored.2⟩
  | copyNext hm =>
    exact ⟨_, _, same hm, hanchored.1, hanchored.1, hanchored.2⟩
  | leave hm => exact anchored_leave has hanchored hm
  | _ => exact ⟨_, _, same ‹SameSites m m'›, hanchored.2⟩

-- ==================================================================== runs

/-- What processing has come to can be told the anchors of. -/
structure Traced (s : Settings σ) (c : Progress σ) : Prop where
  proper : ∀ site ∈ c.machine.scopes.sites, site.Proper s.uri
  parsed : AllParsed c.machine.cache
  anchored : ∃ a as, c.machine.scopes.anchors = a :: as
    ∧ Anchored s.uri c.work a as

theorem traced_step {c : Progress σ} (h : Traced s c)
    (hstop : (step s c).stop = none) : Traced s (step s c) := by
  obtain ⟨-, ⟨-, hidle⟩ | ⟨t, rest, ts, m', es, hwork, -, hnext, hes, hleads⟩⟩ :=
    step_running hstop
  · rw [hidle]
    exact h
  · rw [hnext]
    obtain ⟨a, as, has, hanchored⟩ := h.anchored
    rw [hwork] at hanchored
    refine ⟨?_, ?_, anchored_leads hleads h.proper h.parsed has hanchored⟩
    · refine forall_sites_leads (fun a => ⟨nofun, nofun⟩) ?_ hleads h.proper
      intro _ _ _ site added hadded hsite
      refine ⟨List.forall_mem_append.2 ⟨?_, hsite.definitions⟩, hsite.discreet⟩
      exact fun x hx => (hadded x hx).2
    · rcases hes.loaded with hsame | ⟨url, hloaded⟩
      · exact hsame ▸ h.parsed
      · exact hloaded ▸ (h.parsed.load s.source url).2

/-- The anchors can be told as long as processing goes on. -/
theorem traced_progress {n : Node} (htop : IsTop n)
    (hanchor : m.scopes.current.anchor = n)
    (hproper : ∀ site ∈ m.scopes.sites, site.Proper s.uri)
    (hparsed : AllParsed m.cache) (k : Nat)
    (hstop : (progress s n m k).stop = none) : Traced s (progress s n m k) := by
  induction k with
  | zero =>
    exact ⟨hproper, hparsed, _, _, rfl, ⟨htop, hanchor.symm⟩, trivial⟩
  | succ k ih =>
    rw [progress_succ] at hstop ⊢
    exact traced_step (ih (step_running hstop).1) hstop

end

end Stencil.Template
