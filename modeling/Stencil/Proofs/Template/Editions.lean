/-
Machines on two editions of the same documents.

Two machines are twins if their scopes bind twins at twins, their caches hold
twins, and the output is the same; their sources have an edition each. Every
step keeps twins: what is read is bound on both sides, the same is sent, and a
load gives twins or fails alike. So runs that take twin steps end alike, at twins
(`RunTwin`).
-/
import Stencil.Proofs.Loading.Outcome
import Stencil.Proofs.Output.Chunks
import Stencil.Proofs.Template.Outcome
import Stencil.Proofs.Template.Twins

namespace Stencil.Template

open Stencil.Expr (Value Library EntryTwin)
open Loading (Cache Source)
open Markup (Document Node Renumbering Tree)
open Output (Event Sink)

variable {r : Renumbering} {n n' : Node}

-- ================================================================== scopes

/-- Twins, both constant or both not. -/
structure Binding.Twin (r : Renumbering) (b b' : Binding) : Prop where
  value : b.value.Twin r b'.value
  constant : b.constant = b'.constant

/-- The same names, bound to twins. -/
structure Scope.Twin (r : Renumbering) (scope scope' : Scope) : Prop where
  anchor : scope.anchor.Twin r scope'.anchor
  names : List.Forall₂ (fun x x' => x.1 = x'.1 ∧ x.2.Twin r x'.2)
    scope.names scope'.names
  macros : List.Forall₂ (fun x x' => x.1 = x'.1 ∧ x.2.Twin r x'.2)
    scope.macros scope'.macros
  libraries : List.Forall₂ (fun x x' => x.1 = x'.1 ∧ x.2.Twin r x'.2)
    scope.libraries scope'.libraries
  base : scope.base = scope'.base

structure Scopes.Twin (r : Renumbering) (scopes scopes' : Scopes) : Prop where
  current : scopes.current.Twin r scopes'.current
  outer : List.Forall₂ (Scope.Twin r) scopes.outer scopes'.outer

namespace Scopes.Twin

variable {scopes scopes' : Scopes} (h : scopes.Twin r scopes')
include h

theorem all : List.Forall₂ (Scope.Twin r) scopes.all scopes'.all :=
  .cons h.current h.outer

theorem environment : scopes.environment.Twin r scopes'.environment where
  value? name := rel_findSome? h.all fun scope scope' hs => by
    have found := rel_lookup hs.names name
    unfold Scope.value?
    generalize scope.names.lookup name = b at found ⊢
    generalize scope'.names.lookup name = b' at found ⊢
    cases found with
    | none => exact .none
    | some hb => exact .some hb.value
  uri? q := by
    show scopes.uri? q = scopes'.uri? q
    unfold Scopes.uri?
    rw [h.current.anchor.resolve?]
  library? uri := rel_findSome? h.all fun _ _ hs => rel_lookup hs.libraries uri

theorem defined? (name : String) :
    Option.Rel (Node.Twin r) (scopes.defined? name) (scopes'.defined? name) :=
  rel_findSome? h.all fun _ _ hs => rel_lookup hs.macros name

theorem push (hn : n.Twin r n') :
    (scopes.push n).Twin r (scopes'.push n') :=
  ⟨⟨hn, .nil, .nil, .nil, h.current.base⟩, h.all⟩

theorem pop : scopes.pop.Twin r scopes'.pop := by
  obtain ⟨current, outer⟩ := scopes
  obtain ⟨current', outer'⟩ := scopes'
  cases h.outer with
  | nil => exact h
  | cons hs hrest => exact ⟨hs, hrest⟩

theorem setBase (base : Option Url) :
    (scopes.setBase base).Twin r (scopes'.setBase base) :=
  ⟨⟨h.current.anchor, h.current.names, h.current.macros, h.current.libraries,
    rfl⟩, h.outer⟩

theorem onCurrent {f f' : Scope → Except ScopeError Scope}
    (hf : ∀ scope scope', scope.Twin r scope' →
      Paired (· = ·) (Scope.Twin r) (f scope) (f' scope')) :
    Paired (· = ·) (Scopes.Twin r) (scopes.onCurrent f)
      (scopes'.onCurrent f') :=
  (hf _ _ h.current).map fun _ _ hs => ⟨hs, h.outer⟩

end Scopes.Twin

-- ---------------------------------------------------------------- bindings

namespace Scope.Twin

variable {scope scope' : Scope} (h : scope.Twin r scope')
include h

theorem bind (name : String) {b b' : Binding} (hb : b.Twin r b') :
    Paired (· = ·) (Scope.Twin r) (scope.bind name b)
      (scope'.bind name b') := by
  have constant : scope.isConstant name = scope'.isConstant name := by
    have found := rel_lookup h.names name
    unfold Scope.isConstant
    generalize scope.names.lookup name = x at found ⊢
    generalize scope'.names.lookup name = x' at found ⊢
    cases found with
    | none => rfl
    | some hx => exact hx.constant
  unfold Scope.bind
  rw [constant]
  split
  · exact .error rfl
  · exact .ok ⟨h.anchor, Expr.forall₂_enter h.names name hb, h.macros, h.libraries,
      h.base⟩

theorem define (name : String) (hn : n.Twin r n') :
    Paired (· = ·) (Scope.Twin r) (scope.define name n)
      (scope'.define name n') := by
  have found := rel_lookup h.macros name
  unfold Scope.define
  generalize scope.macros.lookup name = x at found ⊢
  generalize scope'.macros.lookup name = x' at found ⊢
  cases found with
  | some _ => exact .error rfl
  | none =>
    exact .ok ⟨h.anchor, h.names, .cons ⟨rfl, hn⟩ h.macros, h.libraries, h.base⟩

end Scope.Twin

-- ================================================================= loading

/-- At every address both sources have twins, or fail alike. Twins are told by
the numbers of the documents that are loaded in one epoch. -/
def SourceTwin (r : Renumbering) (epoch : Nat) (source source' : Source) :
    Prop :=
  ∀ url, Paired (· = ·) (Tree.Twin (r.takes (.loaded epoch url.text)))
    (source.parse url) (source'.parse url)

/-- Caches of one epoch that hold twins under the same keys. -/
structure CacheTwin (r : Renumbering) (epoch : Nat) (cache cache' : Cache) :
    Prop where
  left : cache.epoch = epoch
  right : cache'.epoch = epoch
  entries : List.Forall₂ (fun x x' => x.1 = x'.1
    ∧ x.2.Twin (r.takes (.loaded epoch x.1)) x'.2) cache.entries cache'.entries

section

variable {epoch : Nat} {cache cache' : Cache} {source source' : Source}

/-- A source is its own twin where no number of what is loaded changes. -/
theorem SourceTwin.refl
    (h : ∀ key, ∀ t : Tree, t.Twin (r.takes (.loaded epoch key)) t)
    (source : Source) : SourceTwin r epoch source source := by
  intro url
  cases source.parse url with
  | ok t => exact .ok (h url.text t)
  | error e => exact .error rfl

theorem CacheTwin.refl {cache : Cache}
    (h : ∀ x ∈ cache.entries,
      x.2.Twin (r.takes (.loaded cache.epoch x.1)) x.2) :
    CacheTwin r cache.epoch cache cache :=
  ⟨rfl, rfl, List.forall₂_same.2 fun x hx => ⟨rfl, h x hx⟩⟩

/-- Sources that have the same at every address, but that they have the one
and the other tree under a key. -/
structure SourcesDiffer (key : String) (t t' : Tree) (source source' : Source) :
    Prop where
  first : ∀ url, url.text = key → source.parse url = .ok t
  second : ∀ url, url.text = key → source'.parse url = .ok t'
  elsewhere : ∀ url, url.text ≠ key → source.parse url = source'.parse url

/-- Such sources are twins if the trees are, and all other trees are their
own. -/
theorem SourcesDiffer.twin {key : String} {t t' : Tree}
    (h : SourcesDiffer key t t' source source')
    (ht : t.Twin (r.takes (.loaded epoch key)) t')
    (hother : ∀ other ≠ key, ∀ u : Tree,
      u.Twin (r.takes (.loaded epoch other)) u) :
    SourceTwin r epoch source source' := by
  intro url
  by_cases hurl : url.text = key
  · rw [h.first url hurl, h.second url hurl, hurl]
    exact .ok ht
  · rw [← h.elsewhere url hurl]
    cases source.parse url with
    | ok u => exact .ok (hother _ hurl u)
    | error e => exact .error rfl

theorem CacheTwin.get? (h : CacheTwin r epoch cache cache') (key : String) :
    Option.Rel (Document.Twin r) (cache.get? key) (cache'.get? key) := by
  have found : Option.Rel (Tree.Twin (r.takes (.loaded epoch key)))
      (cache.entries.lookup key) (cache'.entries.lookup key) := by
    have entries := h.entries
    generalize cache.entries = xs at entries ⊢
    generalize cache'.entries = xs' at entries ⊢
    induction entries with
    | nil => exact .none
    | @cons x x' xs xs' hx _ ih =>
      obtain ⟨k, t⟩ := x
      obtain ⟨k', t'⟩ := x'
      obtain ⟨rfl, ht⟩ := hx
      rw [List.lookup_cons, List.lookup_cons]
      cases hkey : key == k with
      | true =>
        cases beq_iff_eq.1 hkey
        exact .some ht
      | false => exact ih
  unfold Cache.get? Cache.document
  rw [h.left, h.right]
  generalize cache.entries.lookup key = t at found ⊢
  generalize cache'.entries.lookup key = t' at found ⊢
  cases found with
  | none => exact .none
  | some ht => exact .some ⟨rfl, ht⟩

/-- A load gives twins, or fails alike, and leaves twins. -/
theorem CacheTwin.load (h : CacheTwin r epoch cache cache')
    (hsource : SourceTwin r epoch source source') (url : Url) :
    Paired (· = ·) (Document.Twin r) (Loading.load source cache url).1
        (Loading.load source' cache' url).1
      ∧ CacheTwin r epoch (Loading.load source cache url).2
        (Loading.load source' cache' url).2 := by
  have found := h.get? url.text
  cases hget : cache.get? url.text with
  | some d =>
    rw [hget] at found
    generalize hget' : cache'.get? url.text = d' at found
    cases found with
    | some hd =>
      rw [Loading.load_of_some hget, Loading.load_of_some hget']
      exact ⟨.ok hd, h⟩
  -- not loaded yet on either side, so both parse, and both keep what comes out
  | none =>
    rw [hget] at found
    generalize hget' : cache'.get? url.text = d' at found
    cases found with
    | none =>
      have parsed := hsource url
      generalize hparse : source.parse url = t at parsed
      generalize hparse' : source'.parse url = t' at parsed
      cases parsed with
      | error he =>
        rw [Loading.load_of_error hget hparse,
          Loading.load_of_error hget' hparse']
        exact ⟨.error he, h⟩
      | ok ht =>
        rw [Loading.load_of_ok hget hparse, Loading.load_of_ok hget' hparse']
        refine ⟨.ok ?_, h.left, h.right, .cons ⟨rfl, ht⟩ h.entries⟩
        unfold Cache.document
        rw [h.left, h.right]
        exact ⟨rfl, ht⟩

end

-- ================================================================ machines

section

variable {σ α β : Type} {epoch : Nat} {s s' : Settings σ} {m m' : Machine σ}
  {x x' y y' : Run σ Unit}

/-- The same settings, with a source for each edition. The output takes
character data in any pieces. -/
structure Settings.Twin (r : Renumbering) (epoch : Nat) (s s' : Settings σ) :
    Prop where
  uri : s.uri = s'.uri
  sink : s.sink = s'.sink
  joins : s.sink.JoinsText
  source : SourceTwin r epoch s.source s'.source
  passes : s.passes = s'.passes

/-- Machines that bind and hold twins, with the same output. -/
structure Machine.Twin (r : Renumbering) (epoch : Nat) (m m' : Machine σ) :
    Prop where
  scopes : m.scopes.Twin r m'.scopes
  nesting : m.nesting = m'.nesting
  cache : CacheTwin r epoch m.cache m'.cache
  output : m.output = m'.output

/-- The same fault at twins, or both runs are out of passes. -/
inductive Stop.Twin (r : Renumbering) : Stop → Stop → Prop
  | failed {d d' : Diagnostic} (h : d.Twin r d') :
    Twin r (.failed d) (.failed d')
  | unfinished : Twin r .unfinished .unfinished

/-- Both runs go well or both stop alike, at twins. -/
inductive EndTwin (r : Renumbering) (epoch : Nat) :
    EStateM.Result Stop (Machine σ) Unit →
    EStateM.Result Stop (Machine σ) Unit → Prop
  | ok {m m' : Machine σ} (h : m.Twin r epoch m') :
    EndTwin r epoch (.ok () m) (.ok () m')
  | error {e e' : Stop} {m m' : Machine σ} (he : e.Twin r e')
    (h : m.Twin r epoch m') : EndTwin r epoch (.error e m) (.error e' m')

/-- From twins on, two runs end alike. -/
def RunTwin (r : Renumbering) (epoch : Nat) (x x' : Run σ Unit) : Prop :=
  ∀ m m', m.Twin r epoch m' → EndTwin r epoch (x m) (x' m')

-- ------------------------------------------------------------------- steps

theorem twin_skip : RunTwin r epoch (pure () : Run σ Unit) (pure ()) :=
  fun _ _ h => .ok h

theorem twin_stop {e e' : Stop} (he : e.Twin r e') :
    RunTwin r epoch (throw e : Run σ Unit) (throw e') :=
  fun _ _ h => .error he h

theorem twin_fail {d d' : Diagnostic} (hd : d.Twin r d') :
    RunTwin r epoch (fail d : Run σ Unit) (fail d') :=
  twin_stop (.failed hd)

theorem RunTwin.seq (hx : RunTwin r epoch x x') (hy : RunTwin r epoch y y') :
    RunTwin r epoch (x >>= fun _ => y) (x' >>= fun _ => y') := by
  intro m m' h
  have hend := hx m m' h
  generalize hm : x m = e at hend
  generalize hm' : x' m' = e' at hend
  cases hend with
  | ok hn =>
    rw [bind_ok hm, bind_ok hm']
    exact hy _ _ hn
  | error he hn =>
    rw [bind_error hm, bind_error hm']
    exact .error he hn

/-- What is read comes out alike. -/
theorem twin_read {Q : α → β → Prop} {a : Reading α} {b : Reading β}
    {f : α → Run σ Unit} {f' : β → Run σ Unit} (hr : ReadTwin r Q a b)
    (hf : ∀ a b, Q a b → RunTwin r epoch (f a) (f' b)) :
    RunTwin r epoch (read a >>= f) (read b >>= f') := by
  intro m m' h
  have hread := hr _ _ h.scopes.environment
  generalize ha : a m.scopes.environment = x at hread
  generalize hb : b m'.scopes.environment = x' at hread
  cases hread with
  | ok hab =>
    rw [bind_ok (read_ok ha), bind_ok (read_ok hb)]
    exact hf _ _ hab m m' h
  | error hd =>
    rw [bind_error (read_error ha), bind_error (read_error hb)]
    exact .error (.failed hd) h

theorem same_read {a a' : Reading α} {f f' : α → Run σ Unit}
    (hr : ReadSame r a a') (hf : ∀ a, RunTwin r epoch (f a) (f' a)) :
    RunTwin r epoch (read a >>= f) (read a' >>= f') :=
  twin_read hr fun a _ hab => hab ▸ hf a

theorem twin_onScope (hn : n.Twin r n')
    {f f' : Scopes → Except ScopeError Scopes}
    (hf : ∀ scopes scopes', scopes.Twin r scopes' →
      Paired (· = ·) (Scopes.Twin r) (f scopes) (f' scopes')) :
    RunTwin r epoch (onScope n f : Run σ Unit) (onScope n' f') := by
  intro m m' h
  have changed := hf _ _ h.scopes
  unfold onScope
  generalize f m.scopes = x at changed ⊢
  generalize f' m'.scopes = x' at changed ⊢
  cases changed with
  | ok hscopes => exact .ok ⟨hscopes, h.nesting, h.cache, h.output⟩
  | error he => exact .error (.failed ⟨congrArg Reason.scope he, rfl, .some hn⟩) h

theorem twin_bindVariable (hn : n.Twin r n') (name : String) {v v' : Value}
    (hv : v.Twin r v') :
    RunTwin r epoch (bindVariable n name v : Run σ Unit)
      (bindVariable n' name v') :=
  twin_onScope hn fun _ _ hs =>
    hs.onCurrent fun _ _ hscope => hscope.bind name ⟨hv, rfl⟩

theorem twin_bindOptional (hn : n.Twin r n') (name : Option String)
    {v v' : Value} (hv : v.Twin r v') :
    RunTwin r epoch (bindOptional n name v : Run σ Unit)
      (bindOptional n' name v') := by
  cases name with
  | none => exact twin_skip
  | some name => exact twin_bindVariable hn name hv

theorem twin_send (hs : s.Twin r epoch s') (e : Event) :
    RunTwin r epoch (send s e) (send s' e) := by
  intro m m' h
  unfold send
  rw [← hs.sink, h.output]
  rcases s.sink.send m'.output e with ⟨o, _ | error⟩
  · exact .ok ⟨h.scopes, h.nesting, h.cache, rfl⟩
  · exact .error (.failed ⟨rfl, rfl, .none⟩) ⟨h.scopes, h.nesting, h.cache, rfl⟩

theorem twin_sendAll (hs : s.Twin r epoch s') (es : List Event) :
    RunTwin r epoch (sendAll s es) (sendAll s' es) := by
  induction es with
  | nil => exact twin_skip
  | cons e es ih => exact (twin_send hs e).seq ih

theorem twin_between {enter enter' leave leave' : Machine σ → Machine σ}
    (henter : ∀ m m', m.Twin r epoch m' →
      (enter m).Twin r epoch (enter' m'))
    (hleave : ∀ m m', m.Twin r epoch m' →
      (leave m).Twin r epoch (leave' m'))
    (hx : RunTwin r epoch x x') :
    RunTwin r epoch (between enter leave x) (between enter' leave' x') := by
  intro m m' h
  have hend := hx _ _ (henter m m' h)
  unfold between
  generalize x (enter m) = e at hend ⊢
  generalize x' (enter' m') = e' at hend ⊢
  cases hend with
  | ok hn => exact .ok (hleave _ _ hn)
  | error he hn => exact .error he (hleave _ _ hn)

theorem RunTwin.inScope (hx : RunTwin r epoch x x') (hn : n.Twin r n') :
    RunTwin r epoch (inScope n x) (Template.inScope n' x') :=
  twin_between
    (fun _ _ h => ⟨h.scopes.push hn, h.nesting, h.cache, h.output⟩)
    (fun _ _ h => ⟨h.scopes.pop, h.nesting, h.cache, h.output⟩) hx

theorem RunTwin.nested (hx : RunTwin r epoch x x') :
    RunTwin r epoch (nested x) (Template.nested x') :=
  twin_between
    (fun _ _ h => ⟨h.scopes, congrArg (· + 1) h.nesting, h.cache, h.output⟩)
    (fun _ _ h => ⟨h.scopes, congrArg (· - 1) h.nesting, h.cache, h.output⟩) hx

theorem twin_setBase (base : Option Url) :
    RunTwin r epoch (setBase base : Run σ Unit) (setBase base) :=
  fun _ _ h => .ok ⟨h.scopes.setBase base, h.nesting, h.cache, h.output⟩

/-- What comes next may look at the scopes. -/
theorem twin_state {f f' : Machine σ → Run σ Unit}
    (hf : ∀ m m', m.scopes.Twin r m'.scopes →
      RunTwin r epoch (f m) (f' m')) :
    RunTwin r epoch (get >>= f) (get >>= f') :=
  fun m m' h => hf m m' h.scopes m m' h

theorem twin_load (hs : s.Twin r epoch s') (url : Url)
    {f f' : Except Loading.Error Document → Run σ Unit}
    (hf : ∀ d d', Paired (· = ·) (Document.Twin r) d d' →
      RunTwin r epoch (f d) (f' d')) :
    RunTwin r epoch (load s url >>= f) (load s' url >>= f') := by
  intro m m' h
  have loaded := h.cache.load hs.source url
  exact hf _ _ loaded.1 _ _ ⟨h.scopes, h.nesting, loaded.2, h.output⟩

end

end Stencil.Template
