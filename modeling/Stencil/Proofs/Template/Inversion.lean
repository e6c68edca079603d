/-
What a step can do.

If a task is expanded without a fault, then in one of the ways that are listed
here (`Leads`): with these tasks in its place, these events sent, and this done
to the scopes. Of scopes only the places are looked at, which are where they
are anchored and which macros and libraries they hold; what variables they bind
is left open.
What is to be shown of steps is shown for each way on its own, and no task has
to be opened again (`exists_leads`).
-/
import Stencil.Proofs.Output.Delivery
import Stencil.Proofs.Template.Matching
import Stencil.Proofs.Template.Outcome
import Stencil.Proofs.Template.Steps

namespace Stencil.Template

open Markup (Document Element Node Tree)
open Output (ElementName Event)

variable {σ : Type}

-- ================================================================== places

/-- What a scope is besides its base and the variables that it binds. -/
structure Site where
  anchor : Node
  macros : List (String × Node)
  libraries : List (String × Expr.Library)

/-- Where nothing is known but the anchor. -/
def Site.fresh (anchor : Node) : Site := ⟨anchor, [], []⟩

def Scope.site (t : Scope) : Site := ⟨t.anchor, t.macros, t.libraries⟩

/-- The sites of all scopes, innermost first. -/
def Scopes.sites (scopes : Scopes) : List Site := scopes.all.map Scope.site

/-- Nothing but variables was bound. -/
structure Still (m m' : Machine σ) : Prop where
  sites : m'.scopes.sites = m.scopes.sites
  output : m'.output = m.output
  cache : m'.cache = m.cache

/-- What a step does to the output and to the documents that are loaded. -/
structure Outward (s : Settings σ) (m m' : Machine σ) (es : List Event) :
    Prop where
  sent : s.sink.deliver m.output es = (m'.output, none)
  loaded : m'.cache = m.cache
    ∨ ∃ url, m'.cache = (Loading.load s.source m.cache url).2

/-- A scope was opened at a node. -/
def OpenedAt (anchor : Node) (m m' : Machine σ) : Prop :=
  m'.scopes.sites = .fresh anchor :: m.scopes.sites

/-- The scopes are where they were, and hold the same macros. -/
def SameSites (m m' : Machine σ) : Prop := m'.scopes.sites = m.scopes.sites

-- ==================================================================== steps

/-- The loop that a task makes passes of. -/
def Task.loop? : Task → Option Node
  | .each n _ _ _ => some n
  | .whole n _ _ _ _ => some n
  | .floating n _ _ _ _ => some n
  | _ => none

/-- The ways in which a task is replaced by others on machine `m`, which
becomes `m'`, and the events that are sent. -/
inductive Leads (s : Settings σ) (m m' : Machine σ) :
    Task → List Task → List Event → Prop
  | template {n : Node} (hn : Directive.ofNode? s.uri n = some .template)
    (hm : SameSites m m') : Leads s m m' (.execute n) [.contents false n] []
  | root {n : Node} (hn : Directive.ofNode? s.uri n ≠ some .template)
    (hm : SameSites m m') : Leads s m m' (.execute n) [.element n] []
  /-- Nothing more is to be done of an element. -/
  | done {n : Node} (hm : SameSites m m') : Leads s m m' (.element n) [] []
  | doctype {n : Node} (name : String) (publicId systemId : Option String)
    (hm : SameSites m m') :
    Leads s m m' (.element n) []
      [.startDoctype name publicId systemId, .endDoctype]
  | inclusion {n : Node} (href : String)
    (hn : Directive.ofNode? s.uri n = some .inclusion) (hm : SameSites m m') :
    Leads s m m' (.element n) [.fetch n href] []
  | condition {n : Node} (hn : Directive.ofNode? s.uri n = some .condition)
    (hm : OpenedAt n m m') :
    Leads s m m' (.element n) [.contents true n, .leave] []
  | loop {n : Node} {t : Task} (hn : Directive.ofNode? s.uri n = some .loop)
    (ht : t.loop? = some n) (hm : OpenedAt n m m') :
    Leads s m m' (.element n) [t, .leave] []
  | call {n body : Node} {name : String}
    (hn : Directive.ofNode? s.uri n = some .call)
    (hbody : m.scopes.defined? name = some body) (hm : OpenedAt n m m') :
    Leads s m m' (.element n) [.invoke n body, .leave] []
  | switch {n : Node} (hn : Directive.ofNode? s.uri n = some .switch)
    (hm : SameSites m m') :
    Leads s m m' (.element n) [.cases n n.tree.children] []
  | copyWhole {n source : Node} {is : List (Intercept Unit)}
    (hn : Directive.ofNode? s.uri n = some .copy)
    (his : ∀ i ∈ is, i.node ∈ n.children
      ∧ Directive.ofNode? s.uri i.node = some .intercept)
    (hm : OpenedAt n m m') :
    Leads s m m' (.element n) [.copyTree is source, .leave] []
  | copyContents {n source : Node} {is : List (Intercept Unit)}
    (hn : Directive.ofNode? s.uri n = some .copy)
    (his : ∀ i ∈ is, i.node ∈ n.children
      ∧ Directive.ofNode? s.uri i.node = some .intercept)
    (hm : m'.scopes.sites = .fresh source :: .fresh n :: m.scopes.sites) :
    Leads s m m' (.element n)
      [.copyTrees is source source.tree.children, .leave, .leave] []
  | literal {n : Node} {e : Element} (attributes : List (String × String))
    (hn : Directive.ofNode? s.uri n = none) (he : n.element? = some e)
    (hm : SameSites m m') :
    Leads s m m' (.element n)
      [.contents false n, .send (.stop (.ofElement e))]
      [.start (.ofElement e) attributes]
  | contents {trim : Bool} {n : Node}
    (hm : defineAll s n.children m = .ok () m') :
    Leads s m m' (.contents trim n) [.items trim trim n n.tree.children] []
  | noItem {trim front : Bool} {parent : Node} (hm : SameSites m m') :
    Leads s m m' (.items trim front parent []) [] []
  /-- An item is trimmed at the front. -/
  | skipped {trim : Bool} {parent : Node} {t : Tree} {ts : List Tree}
    (ht : t.isInsignificant = true) (hm : SameSites m m') :
    Leads s m m' (.items trim true parent (t :: ts))
      [.items trim true parent ts] []
  /-- What is left is trimmed at the end. -/
  | trimmed {front : Bool} {parent : Node} {t : Tree} {ts : List Tree}
    (hfront : (front && t.isInsignificant) = false)
    (hts : (t :: ts).all Tree.isInsignificant = true) (hm : SameSites m m') :
    Leads s m m' (.items true front parent (t :: ts)) [] []
  | child {trim front : Bool} {parent : Node} {t : Tree} {ts : List Tree}
    (ht : t.isElement = true)
    (hdefinition : Directive.ofNode? s.uri (parent.below t)
      ≠ some .definition) (hm : SameSites m m') :
    Leads s m m' (.items trim front parent (t :: ts))
      [.element (parent.below t), .items trim false parent ts] []
  /-- An item that is neither written nor trimmed is passed over. -/
  | passed {trim front : Bool} {parent : Node} {t : Tree} {ts : List Tree}
    (hfront : (front && t.isInsignificant) = false)
    (hends : (trim && (t :: ts).all Tree.isInsignificant) = false)
    (htext : ∀ data, t.content ≠ .text data) (hm : SameSites m m') :
    Leads s m m' (.items trim front parent (t :: ts))
      [.items trim false parent ts] []
  | text {trim front back : Bool} {parent : Node} {t : Tree} {ts : List Tree}
    {data : String} {es : List Event} (hdata : t.content = .text data)
    (hfront : (front && t.isInsignificant) = false)
    (hends : (trim && (t :: ts).all Tree.isInsignificant) = false)
    (hes : trimEnds front back data = "" ∧ es = []
      ∨ ∃ text, trimEnds front back data ≠ ""
        ∧ literalText (parent.below t) (trimEnds front back data)
          m.scopes.environment = .ok text
        ∧ es = [.characters text]) (hm : SameSites m m') :
    Leads s m m' (.items trim front parent (t :: ts))
      [.items trim false parent ts] es
  | itemSection {trim front : Bool} {parent : Node} {t : Tree} {ts : List Tree}
    {data : String} (hdata : t.content = .cdata data)
    (hends : (trim && (t :: ts).all Tree.isInsignificant) = false)
    (hm : SameSites m m') :
    Leads s m m' (.items trim front parent (t :: ts))
      [.items trim false parent ts] (cdata data)
  | noCase {n : Node} (hm : SameSites m m') : Leads s m m' (.cases n []) [] []
  | case {n : Node} {t : Tree} {ts : List Tree}
    (hn : Directive.ofNode? s.uri (n.below t) = some .case)
    (hm : OpenedAt (n.below t) m m') :
    Leads s m m' (.cases n (t :: ts)) [.contents true (n.below t), .leave] []
  | nextCase {n : Node} {t : Tree} {ts : List Tree} (hm : SameSites m m') :
    Leads s m m' (.cases n (t :: ts)) [.cases n ts] []
  | noPass {n : Node} {t : Task} (ht : t.loop? = some n)
    (hm : SameSites m m') : Leads s m m' t [] []
  | pass {n : Node} {t u : Task} (ht : t.loop? = some n)
    (hu : u.loop? = some n) (hm : SameSites m m') :
    Leads s m m' t [.contents true n, u] []
  | lastPass {n : Node} {t : Task} (ht : t.loop? = some n)
    (hm : SameSites m m') : Leads s m m' t [.contents true n] []
  | fetched {n root : Node} {href : String} {url : Url} {d : Document}
    (hload : Loading.load s.source m.cache url = (.ok d, m'.cache))
    (hroot : d.rootElement? = some root) (hm : OpenedAt root m m') :
    Leads s m m' (.fetch n href) [.execute root, .close n, .leave] []
  | invoked {n body : Node} (hm : SameSites m m') :
    Leads s m m' (.invoke n body) [.contents true body, .close n] []
  | replaced {source : Node} {is : List (Intercept Unit)}
    {i : Intercept Unit} (hi : i ∈ is) (hsource : source.isElement = true)
    (hm : OpenedAt i.node m m') :
    Leads s m m' (.copyTree is source) [.contents true i.node, .leave] []
  | copied {source : Node} {is : List (Intercept Unit)} {e : Element}
    (attributes : List (String × String)) (he : source.element? = some e)
    (hm : OpenedAt source m m') :
    Leads s m m' (.copyTree is source)
      [.copyTrees is source source.tree.children, .leave,
        .send (.stop (.ofElement e))]
      [.start (.ofElement e) attributes]
  | copiedText {source : Node} {is : List (Intercept Unit)} {data : String}
    (hdata : source.content = .text data) (hm : SameSites m m') :
    Leads s m m' (.copyTree is source) [] [.characters data]
  | copiedSection {source : Node} {is : List (Intercept Unit)} {data : String}
    (hdata : source.content = .cdata data) (hm : SameSites m m') :
    Leads s m m' (.copyTree is source) [] (cdata data)
  | notCopied {source : Node} {is : List (Intercept Unit)}
    (htext : ∀ data, source.content ≠ .text data) (hm : SameSites m m') :
    Leads s m m' (.copyTree is source) [] []
  | allCopied {parent : Node} {is : List (Intercept Unit)}
    (hm : SameSites m m') : Leads s m m' (.copyTrees is parent []) [] []
  | copyNext {parent : Node} {is : List (Intercept Unit)} {t : Tree}
    {ts : List Tree} (hm : SameSites m m') :
    Leads s m m' (.copyTrees is parent (t :: ts))
      [.copyTree is (parent.below t), .copyTrees is parent ts] []
  | send (e : Event) (hm : SameSites m m') : Leads s m m' (.send e) [] [e]
  | leave (hm : m'.scopes = m.scopes.pop) : Leads s m m' .leave [] []
  | close {n : Node} (hm : SameSites m m') : Leads s m m' (.close n) [] []

section

variable {s : Settings σ} {m m' : Machine σ} {α β : Type}

-- ================================================================== actions

theorem Still.refl (m : Machine σ) : Still m m := ⟨rfl, rfl, rfl⟩

theorem Still.trans {a b c : Machine σ} (hab : Still a b) (hbc : Still b c) :
    Still a c :=
  ⟨hbc.sites.trans hab.sites, hbc.output.trans hab.output,
    hbc.cache.trans hab.cache⟩

theorem Still.outward (h : Still m m') (s : Settings σ) :
    Outward s m m' [] :=
  ⟨Prod.ext h.output.symm rfl, .inl h.cache⟩

theorem Within.still {x : Run σ α} {a : α} (hx : Within Still x)
    (h : x m = .ok a m') : Still m m' :=
  after_ok h ▸ hx m

theorem still_skip : Within Still (pure () : Run σ Unit) := .refl

theorem still_bindVariable (n : Node) (name : String) (v : Expr.Value) :
    Within Still (bindVariable n name v : Run σ Unit) := by
  refine within_onScope .refl n fun m scopes h => ?_
  obtain ⟨t, ht, rfl⟩ := onCurrent_ok h
  obtain ⟨-, rfl⟩ := Scope.bind_eq_ok ht
  exact ⟨rfl, rfl, rfl⟩

theorem still_bindOptional (n : Node) (name : Option String)
    (v : Expr.Value) : Within Still (bindOptional n name v : Run σ Unit) := by
  cases name with
  | none => exact still_skip
  | some name => exact still_bindVariable n name v

theorem still_bindParam (n : Node) :
    Within Still (bindParam n : Run σ Unit) := by
  refine within_read .refl fun _ name _ => ?_
  refine within_read .refl fun _ value _ => ?_
  exact still_bindVariable n name value

theorem still_bindParams (n : Node) (ns : List Node) :
    Within Still (bindParams s n ns) := by
  induction ns with
  | nil => exact still_skip
  | cons child rest ih =>
    refine within_read .refl fun _ b _ => ?_
    cases b with
    | true => exact within_bind .trans (still_bindParam child) fun _ => ih
    | false => exact ih

/-- Nothing is sent or loaded. -/
structure Silent (m m' : Machine σ) : Prop where
  output : m'.output = m.output
  cache : m'.cache = m.cache

theorem Silent.outward (h : Silent m m') (s : Settings σ) :
    Outward s m m' [] :=
  ⟨Prod.ext h.output.symm rfl, .inl h.cache⟩

theorem silent_onScope (n : Node) (f : Scopes → Except ScopeError Scopes) :
    Within Silent (onScope n f : Run σ Unit) :=
  within_onScope (fun _ => ⟨rfl, rfl⟩) n fun _ _ _ => ⟨rfl, rfl⟩

theorem silent_define (n : Node) :
    Within Silent (define n : Run σ Unit) := by
  show Within Silent
    (if Expr.isValidName ((n.attribute? "name").getD "") then _ else _)
  split
  · exact silent_onScope n _
  · exact fun _ => ⟨rfl, rfl⟩

theorem silent_defineAll (ns : List Node) :
    Within Silent (defineAll s ns) := by
  induction ns with
  | nil => exact fun _ => ⟨rfl, rfl⟩
  | cons n ns ih =>
    rw [defineAll]
    split
    · refine within_bind (fun hab hbc => ?_) (silent_define n) fun _ => ih
      exact ⟨hbc.output.trans hab.output, hbc.cache.trans hab.cache⟩
    · exact ih

theorem still_fail (d : Diagnostic) : Within Still (fail d : Run σ α) := .refl

theorem still_assignment (n : Node) :
    Within Still (assignment n : Run σ Unit) := by
  refine within_read .refl fun _ name _ => ?_
  split
  · exact still_fail _
  · split
    · exact still_fail _
    · refine within_read .refl fun _ value _ => ?_
      exact still_bindVariable n name value

/-- What is sent is all taken, if sending succeeds. -/
theorem sendAll_taken {es : List Event} (h : sendAll s es m = .ok () m') :
    Outward s m m' es ∧ m'.scopes = m.scopes := by
  suffices taken : s.sink.deliver m.output es = (m'.output, none)
      ∧ m'.cache = m.cache ∧ m'.scopes = m.scopes from
    ⟨⟨taken.1, .inl taken.2.1⟩, taken.2.2⟩
  induction es generalizing m with
  | nil =>
    cases h
    exact ⟨rfl, rfl, rfl⟩
  | cons e es ih =>
    obtain ⟨_, m₁, hsend, hrest⟩ := exists_of_bind_ok h
    unfold send at hsend
    split at hsend
    · next o ho =>
      cases hsend
      rw [Output.Sink.deliver_cons_of_accepted ho]
      exact ih hrest
    · cases hsend

theorem send_taken {e : Event} (h : send s e m = .ok () m') :
    Outward s m m' [e] ∧ m'.scopes = m.scopes :=
  sendAll_taken ((bind_ok h).trans rfl)

/-- Tasks are put in a scope of their own. -/
theorem opened_ok {anchor : Node} {ts us : List Task}
    (h : tasksInScope anchor (pure ts) m = .ok us m') :
    us = ts ++ [.leave] ∧ OpenedAt anchor m m' ∧ Outward s m m' []
      ∧ m'.output = m.output ∧ m'.cache = m.cache := by
  cases h
  exact ⟨rfl, rfl, ⟨rfl, .inl rfl⟩, rfl, rfl⟩

-- =============================================================== directives

/-- An expansion leads on in one of the ways there are. -/
def Led (s : Settings σ) (t : Task) (m : Machine σ)
    (tasks : Run σ (List Task)) : Prop :=
  ∀ ts m', tasks m = .ok ts m' →
    ∃ es, Outward s m m' es ∧ Leads s m m' t ts es

theorem led_fail (t : Task) (d : Diagnostic) : Led s t m (fail d) := nofun

theorem led_read {t : Task} {r : Reading α} {f : α → Run σ (List Task)}
    (h : ∀ a, r m.scopes.environment = .ok a → Led s t m (f a)) :
    Led s t m (read r >>= f) := by
  intro ts m' hts
  obtain ⟨a, ha, hf⟩ := exists_of_read_ok hts
  exact h a ha ts m' hf

/-- Nothing is sent, and nothing changes. -/
theorem led_pure {t : Task} {ts : List Task}
    (h : SameSites m m → Leads s m m t ts []) : Led s t m (pure ts) := by
  intro us m' hus
  cases hus
  exact ⟨[], ⟨rfl, .inl rfl⟩, h rfl⟩

/-- Something is done at first, and the same tasks are put in place whatever
comes of it. -/
theorem led_action {t : Task} {x : Run σ Unit} {ts : List Task}
    (h : ∀ m', x m = .ok () m' →
      ∃ es, Outward s m m' es ∧ Leads s m m' t ts es) :
    Led s t m (x >>= fun _ => pure ts) := by
  intro us m' hus
  obtain ⟨_, m₁, hx, hus⟩ := exists_of_bind_ok hus
  cases hus
  exact h m' hx

/-- Variables are bound at first. -/
theorem led_still {t : Task} {x : Run σ Unit} {ts : List Task}
    (hx : Within Still x)
    (h : ∀ m', SameSites m m' → Leads s m m' t ts []) :
    Led s t m (x >>= fun _ => pure ts) :=
  led_action fun m' hm =>
    have still := hx.still hm
    ⟨[], still.outward s, h m' still.sites⟩

/-- Events are sent at first. -/
theorem led_sent {t : Task} {x : Run σ Unit} {ts : List Task}
    {es : List Event}
    (hx : ∀ m', x m = .ok () m' → Outward s m m' es ∧ m'.scopes = m.scopes)
    (h : ∀ m', SameSites m m' → Leads s m m' t ts es) :
    Led s t m (x >>= fun _ => pure ts) :=
  led_action fun m' hm =>
    have ⟨hes, hscopes⟩ := hx m' hm
    ⟨es, hes, h m' (congrArg Scopes.sites hscopes)⟩

theorem led_opened {t : Task} {anchor : Node} {ts : List Task}
    (h : ∀ m', OpenedAt anchor m m' →
      Leads s m m' t (ts ++ [.leave]) []) :
    Led s t m (tasksInScope anchor (pure ts)) := by
  intro us m' hus
  obtain ⟨rfl, hm, outward, -⟩ := opened_ok hus
  exact ⟨[], outward, h m' hm⟩

theorem led_inclusion {n : Node}
    (hn : Directive.ofNode? s.uri n = some .inclusion) :
    Led s (.element n) m (Task.inclusion n) := by
  refine led_read fun href _ => ?_
  cases href with
  | none => exact led_fail _ _
  | some href =>
    show Led s _ m (if m.nesting < nestingLimit then _ else _)
    split
    · exact led_pure (.inclusion href hn)
    · exact led_fail _ _

theorem led_condition {n : Node}
    (hn : Directive.ofNode? s.uri n = some .condition) :
    Led s (.element n) m (Task.condition n) := by
  refine led_read fun test _ => ?_
  cases test with
  | none => exact led_fail _ _
  | some test =>
    refine led_read fun b _ => ?_
    cases b with
    | true => exact led_opened fun m' hm => .condition hn hm
    | false => exact led_pure .done

theorem led_loop {n : Node} (hn : Directive.ofNode? s.uri n = some .loop) :
    Led s (.element n) m (Task.loop n) := by
  refine led_read fun spec _ => led_read fun kind _ => ?_
  cases kind with
  | items values => exact led_opened fun m' hm => .loop hn rfl hm
  | range b =>
    dsimp only
    split
    · refine led_read fun r _ => ?_
      split
      · exact led_pure .done
      · exact led_opened fun m' hm => .loop hn rfl hm
    · refine led_read fun r _ => ?_
      split
      · exact led_pure .done
      · exact led_opened fun m' hm => .loop hn rfl hm

theorem led_call {n : Node} (hn : Directive.ofNode? s.uri n = some .call) :
    Led s (.element n) m (Task.call n) := by
  refine led_read fun name _ us m' hus => ?_
  obtain ⟨_, _, hm, hus⟩ := exists_of_bind_ok hus
  cases hm
  cases hbody : m.scopes.defined? (name.getD "") with
  | none =>
    rw [hbody] at hus
    cases hus
  | some body =>
    rw [hbody] at hus
    dsimp only at hus
    split at hus
    · exact led_opened (fun m' hm => .call hn hbody hm) us m' hus
    · cases hus

/-- Intercepts are taken from the children that are intercept elements. -/
theorem mem_intercepts {uri : String} {n : Node}
    {cs : List (Node × Run σ Unit)} {env : Expr.Environment}
    {is : List (Intercept σ)} (h : intercepts uri n cs env = .ok is) :
    ∀ i ∈ is, i.node ∈ cs.map Prod.fst
      ∧ Directive.ofNode? uri i.node = some .intercept := by
  induction cs generalizing is with
  | nil =>
    cases h
    exact nofun
  | cons c cs ih =>
    obtain ⟨child, replacement⟩ := c
    obtain ⟨b, hb, h⟩ := exists_of_reading_ok h
    cases b with
    | false => exact fun i hi => (ih h i hi).imp_left (List.mem_cons_of_mem _)
    | true =>
      obtain ⟨spec, -, h⟩ := exists_of_reading_ok h
      obtain ⟨others, hothers, h⟩ := exists_of_reading_ok h
      cases h
      intro i hi
      rcases List.mem_cons.1 hi with rfl | hi
      · exact ⟨List.mem_cons_self, ofNode?_admitted hb⟩
      · exact (ih hothers i hi).imp_left (List.mem_cons_of_mem _)

theorem led_copy {n : Node} (hn : Directive.ofNode? s.uri n = some .copy) :
    Led s (.element n) m (Task.copy s n) := by
  refine led_read fun text _ => ?_
  cases text with
  | none => exact led_fail _ _
  | some text =>
    intro us m' hus
    dsimp only at hus
    unfold tasksInScope at hus
    split at hus
    · next ts m₁ hts =>
      cases hus
      obtain ⟨source, -, hts⟩ := exists_of_read_ok hts
      obtain ⟨whole, -, hts⟩ := exists_of_read_ok hts
      obtain ⟨is, his, hts⟩ := exists_of_read_ok hts
      have hintercepts := mem_intercepts his
      have hchildren : n.children.map
          (Prod.fst ∘ fun child => (child, (pure () : Run Unit Unit)))
          = n.children := List.map_id _
      rw [List.map_map, hchildren] at hintercepts
      cases whole with
      | true =>
        cases hts
        exact ⟨[], ⟨rfl, .inl rfl⟩, .copyWhole hn hintercepts rfl⟩
      | false =>
        cases hts
        exact ⟨[], ⟨rfl, .inl rfl⟩, .copyContents hn hintercepts rfl⟩
    · cases hus

theorem led_directive {n : Node} {d : Directive}
    (hn : Directive.ofNode? s.uri n = some d) :
    Led s (.element n) m (Task.directive s n d) := by
  cases d with
  | failure =>
    refine led_still (m := m) ?_ fun m' hm => .done hm
    exact within_read .refl fun _ _ _ => still_fail _
  | doctype =>
    refine led_action fun m' hm => ?_
    obtain ⟨name, -, hm⟩ := exists_of_read_ok hm
    cases name with
    | none => cases hm
    | some name =>
      obtain ⟨systemId, -, hm⟩ := exists_of_read_ok hm
      obtain ⟨publicId, -, hm⟩ := exists_of_read_ok hm
      obtain ⟨hes, hscopes⟩ := sendAll_taken hm
      refine ⟨_, hes, .doctype name publicId systemId ?_⟩
      exact congrArg Scopes.sites hscopes
  | inclusion => exact led_inclusion hn
  | assignment => exact led_still (still_assignment n) fun m' hm => .done hm
  | condition => exact led_condition hn
  | switch => exact led_pure (.switch hn)
  | loop => exact led_loop hn
  | call => exact led_call hn
  | comment => exact led_pure .done
  | copy => exact led_copy hn
  | definition => exact led_pure .done
  | _ => exact led_fail _ _

theorem led_literal {n : Node} (hn : Directive.ofNode? s.uri n = none) :
    Led s (.element n) m (Task.literal s n) := by
  unfold Task.literal
  cases he : n.element? with
  | none => exact led_pure .done
  | some e =>
    refine led_read fun attributes _ => ?_
    exact led_sent (fun _ => send_taken) fun m' hm => .literal attributes hn he hm

theorem led_element (n : Node) :
    Led s (.element n) m ((Task.element n).expand s) := by
  refine led_read fun b _ us m' hus => ?_
  cases b with
  | false => exact led_pure .done us m' hus
  | true =>
    rw [if_pos rfl] at hus
    cases hn : Directive.ofNode? s.uri n with
    | some d =>
      rw [hn] at hus
      exact led_directive hn us m' hus
    | none =>
      rw [hn] at hus
      exact led_literal hn us m' hus

-- =================================================================== others

/-- What is sent of a text, if anything. -/
theorem text_ok {n : Node} {data : String} (h : text s n data m = .ok () m') :
    SameSites m m' ∧ ∃ es, Outward s m m' es
      ∧ (data = "" ∧ es = [] ∨ ∃ text, data ≠ ""
        ∧ literalText n data m.scopes.environment = .ok text
        ∧ es = [.characters text]) := by
  unfold text at h
  split at h
  · next hempty =>
    cases h
    exact ⟨rfl, [], ⟨rfl, .inl rfl⟩,
      .inl ⟨String.isEmpty_iff.1 hempty, rfl⟩⟩
  · next hfilled =>
    obtain ⟨text, htext, hsend⟩ := exists_of_read_ok h
    obtain ⟨hes, hscopes⟩ := send_taken hsend
    refine ⟨congrArg Scopes.sites hscopes, _, hes, .inr ⟨text, ?_, htext, rfl⟩⟩
    exact fun he => hfilled (String.isEmpty_iff.2 he)

theorem led_item {trim front : Bool} {parent : Node} {t : Tree} {ts : List Tree}
    (hfront : (front && t.isInsignificant) = false)
    (hends : (trim && (t :: ts).all Tree.isInsignificant) = false)
    (back : Bool) :
    Led s (.items trim front parent (t :: ts)) m
      (Task.item s (parent.below t) front back (.items trim false parent ts)) := by
  unfold Task.item
  have hcontent : (parent.below t).content = t.content := rfl
  rw [hcontent]
  cases hc : t.content with
  | element e =>
    have ht : t.isElement = true := by
      unfold Tree.isElement
      rw [hc]
      rfl
    have htext (data : String) : t.content ≠ .text data := by
      rw [hc]
      exact nofun
    dsimp only
    split
    · exact led_pure (.passed hfront hends htext)
    · next hdefinition => exact led_pure (.child ht hdefinition)
  | text data =>
    refine led_action fun m' hm => ?_
    unfold Template.item at hm
    rw [hcontent, hc] at hm
    obtain ⟨hm, es, hes, hcases⟩ := text_ok hm
    exact ⟨es, hes, .text hc hfront hends hcases hm⟩
  | cdata data =>
    refine led_sent (fun m' hm => ?_) fun m' hm => .itemSection hc hends hm
    unfold Template.item at hm
    rw [hcontent, hc] at hm
    exact sendAll_taken hm
  | _ =>
    have htext (data : String) : t.content ≠ .text data := by
      rw [hc]
      exact nofun
    refine led_action fun m' hm => ?_
    unfold Template.item at hm
    rw [hcontent, hc] at hm
    cases hm
    exact ⟨[], ⟨rfl, .inl rfl⟩, .passed hfront hends htext rfl⟩

theorem led_nextItem (trim front : Bool) (parent : Node) (t : Tree)
    (ts : List Tree) :
    Led s (.items trim front parent (t :: ts)) m
      (Task.nextItem s trim front parent t ts) := by
  unfold Task.nextItem
  dsimp only
  split
  · next h =>
    obtain ⟨rfl, ht⟩ := Bool.and_eq_true_iff.1 h
    exact led_pure (.skipped ht)
  · next hfront =>
    have hfront := Bool.eq_false_iff.2 hfront
    have hall : (trim && ts.all Tree.isInsignificant && t.isInsignificant)
        = (trim && (t :: ts).all Tree.isInsignificant) := by
      rw [List.all_cons, Bool.and_assoc, Bool.and_comm t.isInsignificant]
    rw [hall]
    split
    · next h =>
      obtain ⟨rfl, hts⟩ := Bool.and_eq_true_iff.1 h
      exact led_pure (.trimmed hfront hts)
    · next hends => exact led_item hfront (Bool.eq_false_iff.2 hends) _

/-- An intercept takes the place of an element, which it may capture. -/
theorem led_replaced {is : List (Intercept Unit)} {source : Node}
    {i : Intercept Unit} (hi : i ∈ is) (hsource : source.isElement = true) :
    Led s (.copyTree is source) m (tasksInScope i.node do
      bindOptional i.node i.capture (.element source)
      pure [.contents true i.node]) := by
  intro us m' hus
  unfold tasksInScope at hus
  split at hus
  · next ts m₁ hts =>
    cases hus
    obtain ⟨_, m₂, hbind, hts⟩ := exists_of_bind_ok hts
    cases hts
    have still := (still_bindOptional _ _ _).still hbind
    exact ⟨[], ⟨(still.outward s).sent, .inl still.cache⟩,
      .replaced hi hsource still.sites⟩
  · cases hus

/-- An element for which there is no intercept is written, and copied inside. -/
theorem led_copiedElement {is : List (Intercept Unit)} {source : Node}
    {e : Element} (he : source.element? = some e) :
    Led s (.copyTree is source) m (do
      Template.send s (.start (.ofElement e) (copiedAttributes s.uri e))
      let ts ←
        tasksInScope source (pure [.copyTrees is source source.tree.children])
      pure (ts ++ [.send (.stop (.ofElement e))])) := by
  intro us m' hus
  obtain ⟨_, m₁, hsend, hus⟩ := exists_of_bind_ok hus
  obtain ⟨ts, m₂, hopened, hus⟩ := exists_of_bind_ok hus
  cases hus
  obtain ⟨hes, hscopes⟩ := send_taken hsend
  obtain ⟨rfl, hm, -, houtput, hcache⟩ := opened_ok (s := s) hopened
  refine ⟨_, ⟨houtput ▸ hes.sent, hcache ▸ hes.loaded⟩, .copied _ he ?_⟩
  show _ = Site.fresh source :: m.scopes.sites
  rw [← hscopes]
  exact hm

theorem led_copied (is : List (Intercept Unit)) (source : Node) :
    Led s (.copyTree is source) m (Task.copied s is source) := by
  unfold Task.copied
  cases hc : source.content with
  | element e =>
    have he : source.element? = some e := by
      unfold Node.element?
      rw [hc]
      rfl
    have hsource : source.isElement = true := by
      unfold Node.isElement
      rw [he]
      rfl
    dsimp only
    split
    · next i hi => exact led_replaced (List.mem_of_find?_eq_some hi) hsource
    · exact led_copiedElement he
  | cdata data =>
    exact led_sent (fun _ => sendAll_taken) fun m' hm => .copiedSection hc hm
  | text data =>
    exact led_sent (fun _ => send_taken) fun m' hm => .copiedText hc hm
  | _ =>
    refine led_pure (.notCopied fun data => ?_)
    rw [hc]
    exact nofun

theorem load_ok {url : Url} {d : Except Loading.Error Document}
    (h : load s url m = .ok d m') :
    Loading.load s.source m.cache url = (d, m'.cache)
      ∧ m'.scopes = m.scopes ∧ m'.output = m.output := by
  unfold load at h
  cases h
  exact ⟨rfl, rfl, rfl⟩

/-- An inclusion that does not fail goes on at the root of the document that its
reference leads to, in a scope with the address as its base. -/
theorem included_ok {n : Node} {href : String} {ts : List Task}
    (h : Task.included s n href m = .ok ts m') :
    ∃ url d root, Loading.resolveHref m.scopes.base href = .ok url
      ∧ Loading.load s.source m.cache url = (.ok d, m'.cache)
      ∧ d.rootElement? = some root
      ∧ ts = [.execute root, .close n, .leave]
      ∧ m'.scopes = (m.scopes.push root).setBase (some url)
      ∧ m'.output = m.output := by
  unfold Task.included at h
  obtain ⟨m₀, m₁, hget, h⟩ := exists_of_bind_ok h
  cases hget
  cases hurl : Loading.resolveHref m.scopes.base href with
  | error e =>
    rw [hurl] at h
    cases h
  | ok url =>
    rw [hurl] at h
    obtain ⟨d, m₁, hload, h⟩ := exists_of_bind_ok h
    obtain ⟨hload, hscopes, houtput⟩ := load_ok hload
    cases d with
    | error e => cases h
    | ok document =>
      dsimp only at h
      cases hroot : document.rootElement? with
      | none =>
        rw [hroot] at h
        cases h
      | some root =>
        rw [hroot] at h
        cases h
        refine ⟨url, document, root, rfl, hload, hroot, rfl, ?_, houtput⟩
        rw [← hscopes]

theorem led_included (n : Node) (href : String) :
    Led s (.fetch n href) m (Task.included s n href) := by
  intro us m' hus
  obtain ⟨url, d, root, -, hload, hroot, rfl, hscopes, houtput⟩ :=
    included_ok hus
  refine ⟨[], ⟨Prod.ext houtput.symm rfl, .inr ⟨url, ?_⟩⟩,
    .fetched hload hroot ?_⟩
  · rw [hload]
  · exact congrArg Scopes.sites hscopes

-- ================================================================ expansions

/-- A loop makes another pass or ends. One with a floating range knows of a pass
that it is the last. -/
theorem led_pass {n : Node} {t : Task} (ht : t.loop? = some n) :
    Led s t m (t.expand s) := by
  cases t with
  | each _ spec i vs =>
    cases ht
    cases vs with
    | nil => exact led_pure (.noPass rfl)
    | cons v vs =>
      intro us m' hus
      obtain ⟨_, m₁, hfirst, hus⟩ := exists_of_bind_ok hus
      obtain ⟨_, m₂, hsecond, hus⟩ := exists_of_bind_ok hus
      cases hus
      have still := ((still_bindOptional _ _ _).still hfirst).trans
        ((still_bindOptional _ _ _).still hsecond)
      exact ⟨[], still.outward s, .pass rfl rfl still.sites⟩
  | whole _ name step k i =>
    cases ht
    cases k with
    | zero => exact led_pure (.noPass rfl)
    | succ k =>
      exact led_still (still_bindOptional _ _ _) fun m' hm => .pass rfl rfl hm
  | floating _ name r up x =>
    cases ht
    show Led s _ m (bindOptional n name (.float x) >>= fun _ =>
      if r.isInside up (r.next up x) then _ else _)
    split
    · exact led_still (still_bindOptional _ _ _) fun m' hm => .pass rfl rfl hm
    · exact led_still (still_bindOptional _ _ _) fun m' hm => .lastPass rfl hm
  | _ => cases ht

theorem led_cases (n : Node) (ts : List Tree) :
    Led s (.cases n ts) m ((Task.cases n ts).expand s) := by
  cases ts with
  | nil => exact led_pure .noCase
  | cons t ts =>
    refine led_read fun b hb => ?_
    cases b with
    | true =>
      have hcase := ofNode?_caseApplies hb
      exact led_opened fun m' hm => .case hcase hm
    | false => exact led_pure .nextCase

/-- The parameters of a call are bound before its macro is gone through. -/
theorem led_invoke (n body : Node) :
    Led s (.invoke n body) m ((Task.invoke n body).expand s) := by
  intro us m' hus
  obtain ⟨_, m₁, hm₁, hus⟩ := exists_of_bind_ok hus
  cases hus
  have still := (still_bindParams n n.children).still hm₁
  exact ⟨[], ⟨(still.outward s).sent, .inl still.cache⟩,
    .invoked still.sites⟩

/-- Every expansion without a fault is in one of the ways there are. -/
theorem exists_leads {t : Task} {ts : List Task}
    (h : t.expand s m = .ok ts m') :
    ∃ es, Outward s m m' es ∧ Leads s m m' t ts es := by
  -- each kind of task has its own lemma, so this is only their list
  suffices led : Led s t m (t.expand s) from led ts m' h
  cases t with
  | execute n =>
    show Led s _ m (Task.root s n)
    unfold Task.root
    split
    · next hn => exact led_pure (.template hn)
    · next hn => exact led_pure (.root hn)
  | element n => exact led_element n
  | contents trim n =>
    refine led_action fun m' hm => ?_
    have silent := silent_defineAll (s := s) n.children m
    rw [after_ok hm] at silent
    exact ⟨[], silent.outward s, .contents hm⟩
  | items trim front parent ts =>
    cases ts with
    | nil => exact led_pure .noItem
    | cons t ts => exact led_nextItem trim front parent t ts
  | cases n ts => exact led_cases n ts
  | each | whole | floating => exact led_pass rfl
  | fetch n href => exact led_included n href
  | invoke n body => exact led_invoke n body
  | copyTree is source => exact led_copied is source
  | copyTrees is parent ts =>
    cases ts with
    | nil => exact led_pure .allCopied
    | cons t ts => exact led_pure .copyNext
  | send e => exact led_sent (fun _ => send_taken) fun m' hm => .send e hm
  | leave =>
    intro us m' hus
    cases hus
    exact ⟨[], ⟨rfl, .inl rfl⟩, .leave rfl⟩
  | close n =>
    intro us m' hus
    cases hus
    exact ⟨[], ⟨rfl, .inl rfl⟩, .close rfl⟩

-- ==================================================================== sites

/-- A macro that is found is one of some scope's. -/
theorem exists_of_defined? {scopes : Scopes} {name : String} {body : Node}
    (h : scopes.defined? name = some body) :
    ∃ site ∈ scopes.sites, (name, body) ∈ site.macros := by
  obtain ⟨scope, hscope, hbody⟩ := List.exists_of_findSome?_eq_some h
  exact ⟨scope.site, List.mem_map_of_mem hscope, mem_of_lookup hbody⟩

theorem sites_leads {t : Task} {ts : List Task} {es : List Event}
    (h : Leads s m m' t ts es) :
    (∃ anchors, m'.scopes.sites
        = List.map Site.fresh anchors ++ m.scopes.sites)
      ∨ (∃ trim n, t = .contents trim n
        ∧ defineAll s n.children m = .ok () m')
      ∨ m'.scopes = m.scopes.pop := by
  cases h with
  | contents hm => exact .inr (.inl ⟨_, _, rfl, hm⟩)
  | leave hm => exact .inr (.inr hm)
  | condition _ hm | loop _ _ hm | call _ _ hm | copyWhole _ _ hm
  | case _ hm | fetched _ _ hm | replaced _ _ hm | copied _ _ hm =>
    exact .inl ⟨[_], hm⟩
  | copyContents _ _ hm => exact .inl ⟨[_, _], hm⟩
  | _ => exact .inl ⟨[], ‹SameSites m m'›⟩

/-- A macro element, and the name that it goes by. -/
structure Defines (uri : String) (n : Node) (name : String) : Prop where
  definition : Directive.ofNode? uri n = some .definition
  name : (n.attribute? "name").getD "" = name

theorem sites_define {n : Node} (h : define n m = .ok () m') :
    Expr.isValidName ((n.attribute? "name").getD "")
      ∧ m'.scopes.sites = { m.scopes.current.site with
          macros := ((n.attribute? "name").getD "", n)
            :: m.scopes.current.macros }
        :: m.scopes.outer.map Scope.site := by
  unfold define at h
  split at h
  · next hvalid =>
    obtain ⟨scopes, hscopes, rfl⟩ := onScope_ok h
    obtain ⟨t, ht, rfl⟩ := onCurrent_ok hscopes
    obtain ⟨-, rfl⟩ := Scope.define_eq_ok ht
    exact ⟨hvalid, rfl⟩
  · cases h

/-- The macros among some nodes are added to those of the innermost scope, under
valid names. -/
theorem sites_defineAll {ns : List Node} (h : defineAll s ns m = .ok () m') :
    ∃ added, m'.scopes.sites = { m.scopes.current.site with
          macros := added ++ m.scopes.current.macros }
        :: m.scopes.outer.map Scope.site
      ∧ (∀ x ∈ added, x.2 ∈ ns ∧ Defines s.uri x.2 x.1)
      ∧ ∀ n ∈ ns, Directive.ofNode? s.uri n = some .definition →
        Expr.isValidName ((n.attribute? "name").getD "")
          ∧ ((n.attribute? "name").getD "", n) ∈ added := by
  induction ns generalizing m with
  | nil =>
    cases h
    exact ⟨[], rfl, nofun, nofun⟩
  | cons child rest ih =>
    rw [defineAll] at h
    split at h
    · next hchild =>
      obtain ⟨_, m₁, hfirst, hrest⟩ := exists_of_bind_ok h
      -- the macro comes in front of those there are, and the rest in front of
      -- it
      obtain ⟨hvalid, hsites⟩ := sites_define hfirst
      obtain ⟨added, hadded, hdefines, hall⟩ := ih hrest
      obtain ⟨hcurrent, houter⟩ := List.cons.inj hsites
      have hmacros : m₁.scopes.current.macros
          = ((child.attribute? "name").getD "", child)
            :: m.scopes.current.macros := congrArg Site.macros hcurrent
      refine ⟨added ++ [((child.attribute? "name").getD "", child)], ?_, ?_, ?_⟩
      · rw [hadded, houter, hcurrent, hmacros, List.append_assoc]
        rfl
      · intro x hx
        rcases List.mem_append.1 hx with hx | hx
        · exact (hdefines x hx).imp_left (List.mem_cons_of_mem _)
        · obtain rfl := List.mem_singleton.1 hx
          exact ⟨List.mem_cons_self, hchild, rfl⟩
      · intro n hn hdefinition
        rcases List.mem_cons.1 hn with rfl | hn
        · exact ⟨hvalid, List.mem_append_right _ List.mem_cons_self⟩
        · exact (hall n hn hdefinition).imp_right (List.mem_append_left _)
    · next hchild =>
      obtain ⟨added, hadded, hdefines, hall⟩ := ih h
      refine ⟨added, hadded, fun x hx => ?_, fun n hn hdefinition => ?_⟩
      · exact (hdefines x hx).imp_left (List.mem_cons_of_mem _)
      · rcases List.mem_cons.1 hn with rfl | hn
        · exact absurd hdefinition hchild
        · exact hall n hn hdefinition

/-- What holds of scopes that hold nothing, and goes on holding when elements
that define macros are added to them, is true of all scopes after a step. The
elements are children of the node whose contents are come to. -/
theorem forall_sites_leads {Q : Site → Prop} {t : Task} {ts : List Task}
    {es : List Event} (hfresh : ∀ anchor, Q (.fresh anchor))
    (hdefine : ∀ trim n, t = .contents trim n → ∀ site added,
      (∀ x ∈ added, x.2 ∈ n.children ∧ Defines s.uri x.2 x.1) →
      Q site → Q { site with macros := added ++ site.macros })
    (h : Leads s m m' t ts es) (hm : ∀ site ∈ m.scopes.sites, Q site) :
    ∀ site ∈ m'.scopes.sites, Q site := by
  -- sites are opened, given macros, or left; `Q` is kept each time
  rcases sites_leads h with ⟨anchors, hsites⟩ | ⟨_, _, ht, hdefined⟩ | hpop
  · rw [hsites]
    refine List.forall_mem_append.2 ⟨?_, hm⟩
    exact List.forall_mem_map.2 fun anchor _ => hfresh anchor
  · obtain ⟨added, hsites, hadded, -⟩ := sites_defineAll hdefined
    rw [hsites]
    have ⟨hcurrent, houter⟩ := List.forall_mem_cons.1 hm
    exact List.forall_mem_cons.2
      ⟨hdefine _ _ ht _ added hadded hcurrent, houter⟩
  · rw [hpop]
    unfold Scopes.pop
    split
    · exact hm
    · next hscopes =>
      unfold Scopes.sites Scopes.all at hm
      rw [hscopes] at hm
      exact (List.forall_mem_cons.1 hm).2

-- ==================================================================== steps

/-- A step behind which processing goes on has replaced a task, or there was
none. -/
theorem step_running {c : Progress σ} (h : (step s c).stop = none) :
    c.stop = none ∧ (c.work = [] ∧ step s c = c
      ∨ ∃ t rest ts m' es, c.work = t :: rest
        ∧ t.expand s c.machine = .ok ts m'
        ∧ step s c = ⟨ts ++ rest, none, m'⟩
        ∧ Outward s c.machine m' es ∧ Leads s c.machine m' t ts es) := by
  obtain ⟨work, stop, m⟩ := c
  cases work with
  | nil => exact ⟨h, .inl ⟨rfl, rfl⟩⟩
  | cons t rest =>
    cases stop with
    | some e => cases h
    | none =>
      cases hexpand : t.expand s m with
      | error e m' =>
        rw [step_error hexpand] at h
        cases h
      | ok ts m' =>
        obtain ⟨es, hes, hleads⟩ := exists_leads hexpand
        exact ⟨rfl, .inr ⟨t, rest, ts, m', es, rfl, hexpand, step_ok hexpand,
          hes, hleads⟩⟩

end

end Stencil.Template
