/-
Machines that are alike.

Two machines are alike if they differ only in what may be interchanged: nodes
that hold the same, and caches out of which the same is loaded
(`Machine.Alike`). What may be interchanged is for an `Interchange` to say. No
step tells such nodes apart, so from alike machines on, runs at nodes that are
alike send the same on the way, and they end alike: both well, or with the same
reason at the same attribute of nodes that are alike (`runsAlike_congruence`).
-/
import Stencil.Proofs.Template.Correspondence
import Stencil.Proofs.Template.Outcome

namespace Stencil.Template

open Stencil.Expr (Value)
open Loading (Cache Source)
open Markup (Document Node)
open Output (Event Sink)

-- ============================================================ what may differ

/-- What may stand for what, from one run to the other: which nodes, and which
caches; and what is known of the addresses that references resolve against. -/
structure Interchange where
  nodes : Node → Node → Prop
  caches : Cache → Cache → Prop
  known : Url → Prop
  like : Likeness nodes
  same (n : Node) : nodes n n

attribute [instance] Interchange.like

/-- Whatever is loaded is alike too, and so is all that is below nodes. -/
structure Interchange.Serves (E : Interchange) (uri : String)
    (source : Source) : Prop where
  descends : Descends uri E.nodes
  resolved {base : Option Url} {href : String} {url : Url} :
    (∀ b ∈ base, E.known b) → Loading.resolveHref base href = .ok url →
    E.known url
  loaded {cache cache' : Cache} {url : Url} (h : E.caches cache cache')
    (hurl : E.known url) :
    LoadedAlike E.nodes (Loading.load source cache url).1
      (Loading.load source cache' url).1
  left {cache cache' : Cache} {url : Url} (h : E.caches cache cache')
    (hurl : E.known url) :
    E.caches (Loading.load source cache url).2
      (Loading.load source cache' url).2

/-- Nodes alone may be interchanged. -/
def Interchange.ofNodes (N : Node → Node → Prop) [like : Likeness N]
    (same : ∀ n, N n n) : Interchange where
  nodes := N
  caches := (· = ·)
  known _ := True
  like := like
  same := same

variable {E : Interchange}

theorem serves_ofNodes {uri : String} {source : Source}
    {N : Node → Node → Prop} [Likeness N] (same : ∀ n, N n n)
    (h : Descends uri N) : (Interchange.ofNodes N same).Serves uri source where
  descends := h
  resolved _ _ := trivial
  loaded hcache _ := hcache ▸ loadedAlike_same same _
  left hcache _ := hcache ▸ rfl

theorem wholly_same (n : Node) : Wholly E.nodes n n :=
  ⟨E.same n, List.forall₂_same.2 fun child _ => E.same child⟩

-- ================================================================== scopes

/-- What expressions see: the names and the libraries of all scopes, and what
qualifiers stand for at the innermost. -/
theorem Scopes.environment_congr {scopes scopes' : Scopes}
    {R : Scope → Scope → Prop} (h : List.Forall₂ R scopes.all scopes'.all)
    (hanchor : ∀ q, scopes.current.anchor.resolve? q
      = scopes'.current.anchor.resolve? q)
    (hnames : ∀ scope scope', R scope scope' → scope.names = scope'.names)
    (hlibraries : ∀ scope scope', R scope scope' →
      scope.libraries = scope'.libraries) :
    scopes.environment = scopes'.environment := by
  have hvalue : scopes.value? = scopes'.value? := by
    funext name
    refine findSome?_eq h fun scope scope' hs => ?_
    unfold Scope.value?
    rw [hnames _ _ hs]
  have huri : scopes.uri? = scopes'.uri? := by
    funext qualifier
    unfold Scopes.uri?
    rw [hanchor]
  have hlibrary : scopes.library? = scopes'.library? := by
    funext uri
    refine findSome?_eq h fun scope scope' hs => ?_
    rw [hlibraries _ _ hs]
  unfold Scopes.environment
  rw [hvalue, huri, hlibrary]

/-- The same names, libraries and base, and macros of the same names that are
alike. -/
structure Scope.Alike (E : Interchange) (scope scope' : Scope) : Prop where
  anchor : E.nodes scope.anchor scope'.anchor
  names : scope.names = scope'.names
  macros :
    List.Forall₂ (fun d d' => d.1 = d'.1 ∧ Wholly E.nodes d.2 d'.2)
      scope.macros scope'.macros
  libraries : scope.libraries = scope'.libraries
  base : scope.base = scope'.base
  known : ∀ b ∈ scope.base, E.known b

structure Scopes.Alike (E : Interchange) (scopes scopes' : Scopes) : Prop where
  current : scopes.current.Alike E scopes'.current
  outer : List.Forall₂ (Scope.Alike E) scopes.outer scopes'.outer

namespace Scopes.Alike

variable {scopes scopes' : Scopes}

theorem all (h : scopes.Alike E scopes') :
    List.Forall₂ (Scope.Alike E) scopes.all scopes'.all :=
  .cons h.current h.outer

/-- Names mean the same in alike scopes. -/
theorem environment (h : scopes.Alike E scopes') :
    scopes.environment = scopes'.environment :=
  Scopes.environment_congr h.all
    (fun _ => by rw [Likeness.resolve? h.current.anchor])
    (fun _ _ hs => hs.names) fun _ _ hs => hs.libraries

theorem defined? (h : scopes.Alike E scopes') (name : String) :
    Option.Rel (Wholly E.nodes) (scopes.defined? name)
      (scopes'.defined? name) :=
  rel_findSome? h.all fun _ _ hs => rel_lookup hs.macros name

theorem seen (h : scopes.Alike E scopes') :
    SeenAlike E.nodes E.known scopes scopes' :=
  ⟨h.current.base, h.current.known, h.defined?⟩

-- ---------------------------------------------------------------- changes

theorem push (h : scopes.Alike E scopes') {n n' : Node}
    (hn : E.nodes n n') : (scopes.push n).Alike E (scopes'.push n') :=
  ⟨⟨hn, rfl, .nil, rfl, h.current.base, h.current.known⟩, h.all⟩

theorem pop (h : scopes.Alike E scopes') : scopes.pop.Alike E scopes'.pop := by
  obtain ⟨current, outer⟩ := scopes
  obtain ⟨current', outer'⟩ := scopes'
  cases h.outer with
  | nil => exact h
  | cons hs hrest => exact ⟨hs, hrest⟩

theorem setBase (h : scopes.Alike E scopes') {url : Url} (hurl : E.known url) :
    (scopes.setBase (some url)).Alike E (scopes'.setBase (some url)) := by
  refine ⟨⟨h.current.anchor, h.current.names, h.current.macros,
    h.current.libraries, rfl, fun b hb => ?_⟩, h.outer⟩
  cases hb
  exact hurl

end Scopes.Alike

-- ---------------------------------------------------------------- the same

theorem Scope.alike_same (scope : Scope) (h : ∀ b ∈ scope.base, E.known b) :
    scope.Alike E scope :=
  ⟨E.same _, rfl, List.forall₂_same.2 fun d _ => ⟨rfl, wholly_same d.2⟩, rfl,
    rfl, h⟩

theorem Scopes.alike_same (scopes : Scopes)
    (h : ∀ scope ∈ scopes.all, ∀ b ∈ scope.base, E.known b) :
    scopes.Alike E scopes :=
  ⟨scopes.current.alike_same (h _ List.mem_cons_self),
    List.forall₂_same.2 fun scope hmem =>
      scope.alike_same (h scope (List.mem_cons_of_mem _ hmem))⟩

-- ----------------------------------------------------------------- bindings

/-- A change comes out alike, or is refused for the same reason. -/
inductive Changed {α : Type} (Q : α → α → Prop) :
    Except ScopeError α → Except ScopeError α → Prop
  | ok {a a' : α} (h : Q a a') : Changed Q (.ok a) (.ok a')
  | error (e : ScopeError) : Changed Q (.error e) (.error e)

namespace Changed

variable {scope scope' : Scope} {scopes scopes' : Scopes}

/-- A change of the innermost scope changes scopes alike. -/
theorem onCurrent {R : Scope → Scope → Prop} {S : Scopes → Scopes → Prop}
    {f f' : Scope → Except ScopeError Scope}
    (h : Changed R (f scopes.current) (f' scopes'.current))
    (hS : ∀ t t', R t t' → S ⟨t, scopes.outer⟩ ⟨t', scopes'.outer⟩) :
    Changed S (scopes.onCurrent f) (scopes'.onCurrent f') := by
  unfold Scopes.onCurrent
  generalize f scopes.current = changed at h ⊢
  generalize f' scopes'.current = changed' at h ⊢
  cases h with
  | ok hR => exact .ok (hS _ _ hR)
  | error e => exact .error e

/-- A macro is new to both scopes, or to none. -/
theorem define {R : Scope → Scope → Prop} {Q : Node → Node → Prop}
    (hmacros : List.Forall₂ (fun d d' => d.1 = d'.1 ∧ Q d.2 d'.2)
      scope.macros scope'.macros)
    (name : String) {n n' : Node} (hn : Q n n')
    (hR : ∀ macros macros',
      List.Forall₂ (fun d d' => d.1 = d'.1 ∧ Q d.2 d'.2) macros macros' →
      R { scope with macros := macros } { scope' with macros := macros' }) :
    Changed R (scope.define name n) (scope'.define name n') := by
  have hfound := rel_lookup hmacros name
  unfold Scope.define
  generalize scope.macros.lookup name = found at hfound ⊢
  generalize scope'.macros.lookup name = found' at hfound ⊢
  cases hfound with
  | some _ => exact .error _
  | none => exact .ok (hR _ _ (.cons ⟨rfl, hn⟩ hmacros))

/-- The scopes of both machines are changed, or both runs fail for the same
reason. -/
theorem onScope {σ : Type} {m m' : Machine σ} {S : Scopes → Scopes → Prop}
    {P : EStateM.Result Stop (Machine σ) Unit →
      EStateM.Result Stop (Machine σ) Unit → Prop}
    {f f' : Scopes → Except ScopeError Scopes} {n n' : Node}
    (h : Changed S (f m.scopes) (f' m'.scopes))
    (hok : ∀ scopes scopes', S scopes scopes' →
      P (.ok () { m with scopes := scopes }) (.ok () { m' with scopes := scopes' }))
    (herror : ∀ e, P (.error (.failed (.about n (.scope e))) m)
      (.error (.failed (.about n' (.scope e))) m')) :
    P (Template.onScope n f m) (Template.onScope n' f' m') := by
  unfold Template.onScope
  generalize f m.scopes = changed at h ⊢
  generalize f' m'.scopes = changed' at h ⊢
  cases h with
  | ok hS => exact hok _ _ hS
  | error e => exact herror e

end Changed

namespace Scope.Alike

variable {scope scope' : Scope}

theorem bind (h : scope.Alike E scope') (name : String) (b : Binding) :
    Changed (Scope.Alike E) (scope.bind name b) (scope'.bind name b) := by
  unfold Scope.bind Scope.isConstant
  rw [h.names]
  split
  · exact .error _
  · exact .ok ⟨h.anchor, rfl, h.macros, h.libraries, h.base, h.known⟩

theorem define (h : scope.Alike E scope') (name : String) {n n' : Node}
    (hn : Wholly E.nodes n n') :
    Changed (Scope.Alike E) (scope.define name n) (scope'.define name n') :=
  Changed.define h.macros name hn fun _ _ hmacros =>
    ⟨h.anchor, h.names, hmacros, h.libraries, h.base, h.known⟩

end Scope.Alike

theorem Scopes.Alike.onCurrent {scopes scopes' : Scopes}
    (h : scopes.Alike E scopes') {f f' : Scope → Except ScopeError Scope}
    (hf : ∀ scope scope', scope.Alike E scope' →
      Changed (Scope.Alike E) (f scope) (f' scope')) :
    Changed (Scopes.Alike E) (scopes.onCurrent f) (scopes'.onCurrent f') :=
  (hf _ _ h.current).onCurrent fun _ _ hscope => ⟨hscope, h.outer⟩

-- ================================================================ machines

section

variable {σ α β : Type} {m m' : Machine σ} {x x' y y' : Run σ Unit}

/-- Machines that differ in what may be interchanged only. -/
structure Machine.Alike (E : Interchange) (m m' : Machine σ) : Prop where
  scopes : m.scopes.Alike E m'.scopes
  nesting : m.nesting = m'.nesting
  output : m.output = m'.output
  cache : E.caches m.cache m'.cache

theorem Machine.alike_same {N : Node → Node → Prop} [Likeness N]
    (same : ∀ n, N n n) (m : Machine σ) : m.Alike (.ofNodes N same) m :=
  ⟨m.scopes.alike_same fun _ _ _ _ => trivial, rfl, rfl, rfl⟩

/-- Stops that are reported alike. -/
inductive Stop.Alike (E : Interchange) : Stop → Stop → Prop
  | failed {d d' : Diagnostic} (h : d.Alike E.nodes d') :
    Stop.Alike E (.failed d) (.failed d')
  | unfinished : Stop.Alike E .unfinished .unfinished

/-- Both runs go well or both stop, at alike machines. -/
inductive EndsAlike (E : Interchange) :
    EStateM.Result Stop (Machine σ) Unit →
    EStateM.Result Stop (Machine σ) Unit → Prop
  | ok {m m' : Machine σ} (h : m.Alike E m') :
    EndsAlike E (.ok () m) (.ok () m')
  | error {e e' : Stop} {m m' : Machine σ} (he : e.Alike E e')
    (h : m.Alike E m') : EndsAlike E (.error e m) (.error e' m')

/-- From alike machines on, two runs end alike. -/
def RunsAlike (E : Interchange) (x x' : Run σ Unit) : Prop :=
  ∀ m m', m.Alike E m' → EndsAlike E (x m) (x' m')

-- ------------------------------------------------------------------- steps

/-- Where the same names are in scope, what is read alike goes on alike or fails
alike. -/
theorem alike_reads {N : Node → Node → Prop} {Q : α → β → Prop}
    {P : EStateM.Result Stop (Machine σ) Unit →
      EStateM.Result Stop (Machine σ) Unit → Prop}
    {r : Reading α} {r' : Reading β} {f : α → Run σ Unit} {f' : β → Run σ Unit}
    (henvironment : m.scopes.environment = m'.scopes.environment)
    (hr : ReadAlike N Q r r') (hok : ∀ a b, Q a b → P (f a m) (f' b m'))
    (herror : ∀ d d', d.Matches N d' →
      P (.error (.failed d) m) (.error (.failed d') m')) :
    P ((read r >>= f) m) ((read r' >>= f') m') := by
  have hread := hr m.scopes.environment
  generalize ha : r m.scopes.environment = a at hread
  generalize hb : r' m.scopes.environment = b at hread
  rw [henvironment] at hb
  cases hread with
  | ok hab =>
    rw [bind_ok (read_ok ha), bind_ok (read_ok hb)]
    exact hok _ _ hab
  | error hd =>
    rw [bind_error (read_error ha), bind_error (read_error hb)]
    exact herror _ _ hd

theorem runsAlike_skip : RunsAlike E (pure () : Run σ Unit) (pure ()) :=
  fun _ _ h => .ok h

theorem runsAlike_throw {e e' : Stop} (he : e.Alike E e') :
    RunsAlike E (throw e : Run σ Unit) (throw e') :=
  fun _ _ h => .error he h

theorem runsAlike_seq (hx : RunsAlike E x x')
    (hy : RunsAlike E y y') :
    RunsAlike E (x >>= fun _ => y) (x' >>= fun _ => y') := by
  intro m m' h
  have hend := hx m m' h
  cases hm : x m with
  | ok a n =>
    rw [hm] at hend
    generalize hm' : x' m' = r at hend
    cases hend with
    | ok hn =>
      rw [bind_ok hm, bind_ok hm']
      exact hy _ _ hn
  | error e n =>
    rw [hm] at hend
    generalize hm' : x' m' = r at hend
    cases hend with
    | error he hn =>
      rw [bind_error hm, bind_error hm']
      exact .error he hn

/-- What is read at nodes that are alike comes out alike, as the same names are
in scope. -/
theorem runsAlike_read {Q : α → β → Prop} {r : Reading α} {r' : Reading β}
    {f : α → Run σ Unit} {f' : β → Run σ Unit}
    (hr : ReadAlike E.nodes Q r r')
    (hf : ∀ a b, Q a b → RunsAlike E (f a) (f' b)) :
    RunsAlike E (read r >>= f) (read r' >>= f') :=
  fun m m' h => alike_reads h.scopes.environment hr
    (fun _ _ hab => hf _ _ hab m m' h) fun _ _ hd => .error (.failed hd.alike) h

theorem runsAlike_onScope {n n' : Node} (hn : E.nodes n n')
    {f f' : Scopes → Except ScopeError Scopes}
    (hf : ∀ scopes scopes', scopes.Alike E scopes' →
      Changed (Scopes.Alike E) (f scopes) (f' scopes')) :
    RunsAlike E (onScope n f : Run σ Unit) (onScope n' f') :=
  fun m m' h => (hf _ _ h.scopes).onScope
    (fun _ _ hscopes => .ok ⟨hscopes, h.nesting, h.output, h.cache⟩)
    fun _ => .error (.failed ⟨rfl, rfl, .some hn⟩) h

theorem runsAlike_send (s : Settings σ) (e : Event) :
    RunsAlike E (send s e) (send s e) := by
  intro m m' h
  unfold send
  rw [h.output]
  rcases s.sink.send m'.output e with ⟨o, _ | error⟩
  · exact .ok ⟨h.scopes, h.nesting, rfl, h.cache⟩
  · exact .error (.failed (Diagnostic.alike_general _ _))
      ⟨h.scopes, h.nesting, rfl, h.cache⟩

theorem runsAlike_sendAll (s : Settings σ) (es : List Event) :
    RunsAlike E (sendAll s es) (sendAll s es) := by
  induction es with
  | nil => exact runsAlike_skip
  | cons e es ih => exact runsAlike_seq (runsAlike_send s e) ih

/-- Changes around a run that keep machines alike. -/
theorem runsAlike_between {enter enter' leave leave' : Machine σ → Machine σ}
    (henter : ∀ m m', m.Alike E m' → (enter m).Alike E (enter' m'))
    (hleave : ∀ m m', m.Alike E m' → (leave m).Alike E (leave' m'))
    (hx : RunsAlike E x x') :
    RunsAlike E (between enter leave x) (between enter' leave' x') := by
  intro m m' h
  have hend := hx _ _ (henter m m' h)
  unfold between
  generalize x (enter m) = r at hend ⊢
  generalize x' (enter' m') = r' at hend ⊢
  cases hend with
  | ok hn => exact .ok (hleave _ _ hn)
  | error he hn => exact .error he (hleave _ _ hn)

theorem runsAlike_inScope {n n' : Node} (hn : E.nodes n n')
    (hx : RunsAlike E x x') :
    RunsAlike E (inScope n x) (inScope n' x') :=
  runsAlike_between
    (fun _ _ h => ⟨h.scopes.push hn, h.nesting, h.output, h.cache⟩)
    (fun _ _ h => ⟨h.scopes.pop, h.nesting, h.output, h.cache⟩) hx

theorem runsAlike_nested (hx : RunsAlike E x x') :
    RunsAlike E (nested x) (nested x') :=
  runsAlike_between
    (fun _ _ h =>
      ⟨h.scopes, congrArg (· + 1) h.nesting, h.output, h.cache⟩)
    (fun _ _ h =>
      ⟨h.scopes, congrArg (· - 1) h.nesting, h.output, h.cache⟩)
    hx

theorem runsAlike_setBase {url : Url} (hurl : E.known url) :
    RunsAlike E (setBase (some url) : Run σ Unit) (setBase (some url)) :=
  fun _ _ h => .ok
    ⟨h.scopes.setBase hurl, h.nesting, h.output, h.cache⟩

theorem runsAlike_load {s : Settings σ} (hs : E.Serves s.uri s.source)
    {f f' : Except Loading.Error Document → Run σ Unit} {url : Url}
    (hurl : E.known url)
    (hf : ∀ d d', LoadedAlike E.nodes d d' → RunsAlike E (f d) (f' d')) :
    RunsAlike E (load s url >>= f) (load s url >>= f') :=
  fun _ _ h => hf _ _ (hs.loaded h.cache hurl) _ _
    ⟨h.scopes, h.nesting, h.output, hs.left h.cache hurl⟩

-- =============================================================== whole runs

theorem runsAlike_sequential :
    Matching.Sequential E.nodes (@RunsAlike σ E) where
  skip := runsAlike_skip
  seq := runsAlike_seq
  binding h name v := runsAlike_onScope h fun _ _ hs =>
    hs.onCurrent fun _ _ hscope => hscope.bind name ⟨v, false⟩

/-- The interpreter keeps machines alike: every step does. -/
theorem runsAlike_congruence {s : Settings σ} (hs : E.Serves s.uri s.source) :
    Matching.Congruence E.nodes E.known s s (RunsAlike E) where
  toSequential := runsAlike_sequential
  uri := rfl
  same := E.same
  descends := hs.descends
  fault h := runsAlike_throw (.failed h.alike)
  reading := runsAlike_read
  state h m m' hm := h m m' hm.scopes.seen m m' hm
  resolved := hs.resolved
  loading := runsAlike_load hs
  definition h name := runsAlike_onScope h.node fun _ _ hs =>
    hs.onCurrent fun _ _ hscope => hscope.define name h
  characters _ := runsAlike_send s _
  cdata _ := runsAlike_sendAll s _
  doctype _ _ _ := runsAlike_sendAll s _
  enclosed _ _ hx :=
    runsAlike_seq (runsAlike_send s _) (runsAlike_seq hx (runsAlike_send s _))
  inScope := runsAlike_inScope
  nested := runsAlike_nested
  rebased h hurl hx :=
    runsAlike_inScope h (runsAlike_seq (runsAlike_setBase hurl) hx)
  floating h name r hx :=
    runsAlike_sequential.runFloat (runsAlike_throw .unfinished) rfl h name r
      hx

end

end Stencil.Template
