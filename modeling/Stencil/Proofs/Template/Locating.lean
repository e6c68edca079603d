/-
Where diagnostics are.

Whatever a run fails with names a node, or the sink refused an event. And the
node is of the template or of a document that was included: however far
processing gets, the tasks and the macros are at nodes of those
(`among_progress`), since tasks are replaced by tasks at nodes that are there
or below, and a document comes in by an inclusion alone (`among_leads`). What
is found to be wrong while a task is expanded is named by the nodes that the
task is at (`confined_expand`).

That a node is named at all is known from runs that no sink disturbs
(`blames_congruence`), and what a sink makes of such a run is to take its
events or to refuse one (`delivers_congruence`).
-/
import Stencil.Proofs.Markup.Arena
import Stencil.Proofs.Template.Balance
import Stencil.Proofs.Template.Inversion
import Stencil.Proofs.Template.Termination

namespace Stencil.Template

open Markup (Document Node Tree)
open Output (Event Sink)

variable {σ α β : Type}

-- =============================================================== documents

/-- An inclusion is come to, and there is a document at its address. -/
structure Progress.Fetches (s : Settings σ) (c : Progress σ) (d : Document) :
    Prop where
  running : c.stop = none
  found : ∃ n href rest url, c.work = .fetch n href :: rest
    ∧ Loading.resolveHref c.machine.scopes.base href = .ok url
    ∧ (Loading.load s.source c.machine.cache url).1 = .ok d
  rooted : d.rootElement?.isSome

/-- The nodes of a template, and of the documents that are included while the
root `n` is processed. -/
inductive Reached (s : Settings σ) (main : Document) (n : Node)
    (m : Machine σ) : Node → Prop
  | template {x : Node} (hx : x ∈ main.nodes) : Reached s main n m x
  | included {x : Node} {k : Nat} {d : Document}
    (hd : (progress s n m k).Fetches s d) (hx : x ∈ d.nodes) :
    Reached s main n m x

/-- The children of these nodes are among them. -/
def Closed (T : Node → Prop) : Prop :=
  ∀ n, T n → ∀ child ∈ n.children, T child

theorem closed_nodes (d : Document) : Closed (· ∈ d.nodes) :=
  fun _ hn _ hchild => Node.children_subset hn hchild

theorem closed_reached (s : Settings σ) (main : Document) (n : Node)
    (m : Machine σ) : Closed (Reached s main n m) := by
  intro x hx child hchild
  cases hx with
  | template hx => exact .template (closed_nodes main x hx child hchild)
  | included hd hx => exact .included hd (closed_nodes _ x hx child hchild)

theorem node_mem_nodes (d : Document) : d.node ∈ d.nodes := by
  rw [Document.nodes, Node.nodes_eq]
  exact List.mem_cons_self

theorem rootElement?_mem {d : Document} {root : Node}
    (h : d.rootElement? = some root) : root ∈ d.nodes :=
  Node.children_subset (node_mem_nodes d) (List.mem_of_find?_eq_some h)

-- ================================================================ readings

/-- A diagnostic names none but these nodes. -/
def Diagnostic.Among (T : Node → Prop) (d : Diagnostic) : Prop :=
  ∀ n ∈ d.node, T n

theorem among_some {T : Node → Prop} {n : Node} (hn : T n) (reason : Reason)
    (attr : Option String) : Diagnostic.Among T ⟨reason, some n, attr⟩ := by
  intro n' hn'
  cases hn'
  exact hn

/-- Each of these nodes is like itself. -/
def Shared (T : Node → Prop) (n n' : Node) : Prop := n = n' ∧ T n

instance (T : Node → Prop) : Likeness (Shared T) where
  content h := h.1 ▸ rfl
  isContentEmpty h := h.1 ▸ rfl
  resolve? h _ := h.1 ▸ rfl

/-- What is wrong with what is read at these nodes is named by one of them. -/
theorem among_of_alike {T : Node → Prop} {Q : α → α → Prop} {r : Reading α}
    (hr : ReadAlike (Shared T) Q r r) {env : Expr.Environment}
    {d : Diagnostic} (hd : r env = .error d) : d.Among T := by
  have agree := hr env
  rw [hd] at agree
  cases agree with
  | error hmatches =>
    intro n hn
    have hrel := hmatches.node
    rw [Option.mem_def.1 hn] at hrel
    cases hrel with
    | some h => exact h.2

-- ==================================================================== runs

/-- Whatever a run fails with names none but these nodes. -/
def Confined (T : Node → Prop) (x : Run σ α) : Prop :=
  ∀ m d m', x m = .error (.failed d) m' → d.Among T

section

variable {T : Node → Prop} {s : Settings σ} {n : Node}

theorem confined_pure (a : α) : Confined T (pure a : Run σ α) := by
  intro m d m' h
  cases h

theorem confined_fail {d : Diagnostic} (hd : d.Among T) :
    Confined T (fail d : Run σ α) := by
  intro m d' m' h
  cases h
  exact hd

theorem confined_about (hn : T n) (reason : Reason) :
    Confined T (fail (.about n reason) : Run σ α) :=
  confined_fail (among_some hn reason none)

theorem confined_on (hn : T n) (attr : String) (reason : Reason) :
    Confined T (fail (.on n attr reason) : Run σ α) :=
  confined_fail (among_some hn reason (some attr))

theorem confined_bind {x : Run σ α} {f : α → Run σ β} (hx : Confined T x)
    (hf : ∀ a, Confined T (f a)) : Confined T (x >>= f) := by
  intro m
  refine bind_cases (fun r => ∀ d m', r = .error (.failed d) m' → d.Among T)
    (fun a m' _ => hf a m') fun e m' h d m'' he => ?_
  cases he
  exact hx m d m' h

/-- Tasks are put in place behind an action. -/
theorem confined_action {x : Run σ Unit} {ts : List Task}
    (hx : Confined T x) : Confined T (x >>= fun _ => pure ts) :=
  confined_bind hx fun _ => confined_pure ts

theorem confined_get {f : Machine σ → Run σ α} (h : ∀ m, Confined T (f m)) :
    Confined T (get >>= f) :=
  fun m => h m m

theorem confined_read {Q : α → α → Prop} {r : Reading α} {f : α → Run σ β}
    (hr : ReadAlike (Shared T) Q r r) (hf : ∀ a, Confined T (f a)) :
    Confined T (read r >>= f) := by
  refine confined_bind (fun m d m' h => ?_) hf
  unfold read at h
  split at h
  · cases h
  · next hd =>
    cases h
    exact among_of_alike hr hd

theorem confined_send (e : Event) : Confined T (send s e) := by
  intro m d m' h
  unfold send at h
  split at h
  · cases h
  · cases h
    exact nofun

theorem confined_sendAll (es : List Event) : Confined T (sendAll s es) := by
  induction es with
  | nil => exact confined_pure _
  | cons e es ih => exact confined_bind (confined_send e) fun _ => ih

theorem confined_onScope (hn : T n) (f : Scopes → Except ScopeError Scopes) :
    Confined T (onScope n f : Run σ Unit) := by
  intro m d m' h
  obtain ⟨-, e, -, hd⟩ := onScope_error h
  cases hd
  exact among_some hn _ _

theorem confined_optional (hn : T n) (name : Option String)
    (v : Expr.Value) : Confined T (bindOptional n name v : Run σ Unit) := by
  cases name with
  | none => exact confined_pure _
  | some name => exact confined_onScope hn (·.setVariable name v)

theorem confined_tasksInScope {tasks : Run σ (List Task)} (anchor : Node)
    (h : Confined T tasks) : Confined T (tasksInScope anchor tasks) := by
  intro m d m' hd
  unfold tasksInScope at hd
  split at hd
  · cases hd
  · next htasks =>
    cases hd
    exact h _ _ _ htasks

theorem confined_defineAll {ns : List Node} (hns : ∀ n ∈ ns, T n) :
    Confined T (defineAll s ns) := by
  induction ns with
  | nil => exact confined_pure _
  | cons n ns ih =>
    obtain ⟨hn, hns⟩ := List.forall_mem_cons.1 hns
    rw [defineAll]
    split
    · refine confined_bind ?_ fun _ => ih hns
      unfold define
      dsimp only
      split
      · exact confined_onScope hn _
      · exact confined_on hn _ _
    · exact ih hns

theorem confined_bindParams (hn : T n) {ns : List Node}
    (hns : ∀ child ∈ ns, T child) : Confined T (bindParams s n ns) := by
  induction ns with
  | nil => exact confined_pure _
  | cons child rest ih =>
    obtain ⟨hchild, hrest⟩ := List.forall_mem_cons.1 hns
    have param : Confined T (bindParam child : Run σ Unit) :=
      confined_read (alike_requiredName ⟨rfl, hchild⟩) fun _ =>
        confined_read (alike_requiredValue ⟨rfl, hchild⟩) fun _ =>
          confined_onScope hchild _
    refine confined_read
      (alike_admitted ⟨rfl, hn⟩ s.uri .call .param ⟨rfl, hchild⟩) fun b => ?_
    split
    · exact confined_bind param fun _ => ih hrest
    · exact ih hrest

-- ============================================================== directives

theorem confined_inclusion (hn : T n) :
    Confined T (Task.inclusion n : Run σ (List Task)) := by
  refine confined_read (alike_substituted ⟨rfl, hn⟩ "href") fun href => ?_
  cases href with
  | none => exact confined_on hn _ _
  | some href =>
    refine confined_get fun m => ?_
    split
    · exact confined_pure _
    · exact confined_on hn _ _

theorem confined_included (hn : T n) (href : String) :
    Confined T (Task.included s n href) := by
  refine confined_get fun m => ?_
  split
  · exact confined_on hn _ _
  · refine confined_bind (fun m d m' h => ?_) fun d => ?_
    · cases h
    · split
      · exact confined_on hn _ _
      · split
        · exact confined_about hn _
        · refine confined_tasksInScope _ fun m d m' h => ?_
          cases h

theorem confined_assignment (hn : T n) :
    Confined T (assignment n : Run σ Unit) := by
  refine confined_read (alike_requiredName ⟨rfl, hn⟩) fun name => ?_
  split
  · exact confined_on hn _ _
  · split
    · exact confined_about hn _
    · exact confined_read (alike_requiredValue ⟨rfl, hn⟩) fun _ =>
        confined_onScope hn _

theorem confined_condition (hn : T n) :
    Confined T (Task.condition n : Run σ (List Task)) := by
  refine confined_read (alike_substituted ⟨rfl, hn⟩ "test") fun test => ?_
  cases test with
  | none => exact confined_on hn _ _
  | some test =>
    refine confined_read (alike_truth ⟨rfl, hn⟩ test) fun b => ?_
    split
    · exact confined_tasksInScope n (confined_pure _)
    · exact confined_pure _

theorem confined_loop (hn : T n) :
    Confined T (Task.loop n : Run σ (List Task)) := by
  refine confined_read (alike_loopSpec ⟨rfl, hn⟩) fun spec => ?_
  refine confined_read (alike_loopKind ⟨rfl, hn⟩ spec) fun kind => ?_
  cases kind with
  | items values => exact confined_tasksInScope n (confined_pure _)
  | range b =>
    dsimp only
    split
    · refine confined_read (alike_floatRange ⟨rfl, hn⟩ b) fun r => ?_
      split
      · exact confined_pure _
      · exact confined_tasksInScope n (confined_pure _)
    · refine confined_read (alike_wholeRange ⟨rfl, hn⟩ b) fun r => ?_
      split
      · exact confined_pure _
      · exact confined_tasksInScope n (confined_pure _)

theorem confined_call (hn : T n) :
    Confined T (Task.call n : Run σ (List Task)) := by
  refine confined_read (alike_substituted ⟨rfl, hn⟩ "name") fun name => ?_
  refine confined_get fun m => ?_
  split
  · exact confined_on hn _ _
  · split
    · exact confined_tasksInScope n (confined_pure _)
    · exact confined_on hn _ _

theorem alike_ownIntercepts (uri : String) (hT : Closed T) (hn : T n) :
    let cs := n.children.map fun child => (child, (pure () : Run Unit Unit))
    ReadAlike (Shared T)
      (List.Forall₂ (Matching.InterceptAlike (Shared T) fun _ _ _ => True))
      (intercepts uri n cs) (intercepts uri n cs) := by
  refine Matching.agree_intercepts uri ⟨rfl, hn⟩ ?_
  refine List.forall₂_same.2 fun c hc => ?_
  obtain ⟨child, hchild, rfl⟩ := List.mem_map.1 hc
  exact ⟨⟨rfl, hT n hn child hchild⟩, fun _ => trivial⟩

theorem confined_copy (hT : Closed T) (hn : T n) :
    Confined T (Task.copy s n) := by
  refine confined_read (alike_substituted ⟨rfl, hn⟩ "element") fun text => ?_
  cases text with
  | none => exact confined_on hn _ _
  | some text =>
    refine confined_tasksInScope n ?_
    refine confined_read (alike_copySource ⟨rfl, hn⟩ text) fun source => ?_
    refine confined_read (alike_copiesWhole ⟨rfl, hn⟩) fun whole => ?_
    refine confined_read (alike_ownIntercepts s.uri hT hn) fun is => ?_
    split
    · exact confined_pure _
    · exact confined_tasksInScope source (confined_pure _)

theorem confined_directive (hT : Closed T) (hn : T n) (d : Directive) :
    Confined T (Task.directive s n d) := by
  cases d with
  | failure =>
    refine confined_action ?_
    exact confined_read (alike_substituted ⟨rfl, hn⟩ "text") fun _ =>
      confined_about hn _
  | doctype =>
    refine confined_action ?_
    refine confined_read (alike_substituted ⟨rfl, hn⟩ "name") fun name => ?_
    cases name with
    | none => exact confined_on hn _ _
    | some name =>
      exact confined_read (alike_substituted ⟨rfl, hn⟩ "system") fun _ =>
        confined_read (alike_substituted ⟨rfl, hn⟩ "public") fun _ =>
          confined_sendAll _
  | inclusion => exact confined_inclusion hn
  | assignment => exact confined_action (confined_assignment hn)
  | condition => exact confined_condition hn
  | switch => exact confined_pure _
  | loop => exact confined_loop hn
  | call => exact confined_call hn
  | comment => exact confined_pure _
  | copy => exact confined_copy hT hn
  | definition => exact confined_pure _
  | _ => exact confined_about hn _

theorem confined_literal (hn : T n) : Confined T (Task.literal s n) := by
  unfold Task.literal
  split
  · exact confined_pure _
  · refine confined_read (alike_literalAttributes ⟨rfl, hn⟩ s.uri _) fun _ => ?_
    exact confined_action (confined_send _)

theorem confined_item (hn : T n) (front back : Bool) (rest : Task) :
    Confined T (Task.item s n front back rest) := by
  have text (data : String) : Confined T (Template.text s n data) := by
    unfold Template.text
    split
    · exact confined_pure _
    · exact confined_read (alike_literalText ⟨rfl, hn⟩ data) fun _ =>
        confined_send _
  unfold Task.item
  split
  · split
    · exact confined_pure _
    · exact confined_pure _
  · refine confined_action ?_
    unfold Template.item
    split
    · split
      · exact confined_pure _
      · exact confined_pure _
    · exact text _
    · exact confined_sendAll _
    · exact confined_pure _

theorem confined_copied {is : List (Intercept Unit)} (his : ∀ i ∈ is, T i.node)
    (source : Node) : Confined T (Task.copied s is source) := by
  unfold Task.copied
  split
  · split
    · next i hi =>
      have hnode := his i (List.mem_of_find?_eq_some hi)
      exact confined_tasksInScope _
        (confined_action (confined_optional hnode _ _))
    · refine confined_bind (confined_send _) fun _ => ?_
      exact confined_bind (confined_tasksInScope source (confined_pure _))
        fun _ => confined_pure _
  · exact confined_action (confined_sendAll _)
  · exact confined_action (confined_send _)
  · exact confined_pure _

-- ================================================================== tasks

/-- A task is at these nodes. Of what is copied nothing can be wrong. -/
def Task.Among (T : Node → Prop) : Task → Prop
  | .execute n => T n
  | .element n => T n
  | .contents _ n => T n
  | .items _ _ parent ts => ∀ t ∈ ts, T (parent.below t)
  | .cases n ts => T n ∧ ∀ t ∈ ts, T (n.below t)
  | .each n _ _ _ => T n
  | .whole n _ _ _ _ => T n
  | .floating n _ _ _ _ => T n
  | .fetch n _ => T n
  | .invoke n body => T n ∧ T body
  | .copyTree is _ => ∀ i ∈ is, T i.node
  | .copyTrees is _ _ => ∀ i ∈ is, T i.node
  | .send _ => True
  | .leave => True
  | .close _ => True

theorem among_loop {t : Task} (h : t.loop? = some n) : t.Among T ↔ T n := by
  cases t with
  | each => cases h; rfl
  | whole => cases h; rfl
  | floating => cases h; rfl
  | _ => cases h

theorem confined_items {trim front : Bool} {parent : Node} {ts : List Tree}
    (hts : ∀ t ∈ ts, T (parent.below t)) :
    Confined T ((Task.items trim front parent ts).expand s) := by
  cases ts with
  | nil => exact confined_pure _
  | cons t ts =>
    show Confined T (Task.nextItem s trim front parent t ts)
    unfold Task.nextItem
    dsimp only
    split
    · exact confined_pure _
    · split
      · exact confined_pure _
      · exact confined_item (hts t List.mem_cons_self) _ _ _

theorem confined_cases {ts : List Tree} (hn : T n)
    (hts : ∀ t ∈ ts, T (n.below t)) :
    Confined T ((Task.cases n ts).expand s) := by
  cases ts with
  | nil => exact confined_pure _
  | cons t ts =>
    have hchild := hts t List.mem_cons_self
    refine confined_read (alike_caseApplies s ⟨rfl, hn⟩ ⟨rfl, hchild⟩)
      fun b => ?_
    split
    · exact confined_tasksInScope _ (confined_pure _)
    · exact confined_pure _

/-- In a pass of a loop only a name can be wrong, which is one of the loop's. -/
theorem confined_pass {t : Task} (ht : t.loop? = some n) (hn : T n) :
    Confined T (t.expand s) := by
  cases t with
  | each _ spec i vs =>
    cases ht
    cases vs with
    | nil => exact confined_pure _
    | cons v vs =>
      refine confined_bind (confined_optional hn _ _) fun _ => ?_
      exact confined_action (confined_optional hn _ _)
  | whole _ name step k i =>
    cases ht
    cases k with
    | zero => exact confined_pure _
    | succ k => exact confined_action (confined_optional hn _ _)
  | floating _ name r up x =>
    cases ht
    refine confined_bind (confined_optional hn _ _) fun _ => ?_
    dsimp only
    split
    · exact confined_pure _
    · exact confined_pure _
  | _ => cases ht

/-- What is wrong with a task is named by a node that the task is at. -/
theorem confined_expand (hT : Closed T) {t : Task} (ht : t.Among T) :
    Confined T (t.expand s) := by
  cases t with
  | execute n =>
    show Confined T (Task.root s n)
    unfold Task.root
    split
    · exact confined_pure _
    · exact confined_pure _
  | element n =>
    refine confined_read (alike_included ⟨rfl, ht⟩ s.uri) fun b => ?_
    split
    · split
      · exact confined_directive hT ht _
      · exact confined_literal ht
    · exact confined_pure _
  | contents trim n => exact confined_action (confined_defineAll (hT n ht))
  | items trim front parent ts => exact confined_items ht
  | cases n ts => exact confined_cases ht.1 ht.2
  | each | whole | floating => exact confined_pass rfl ht
  | fetch n href => exact confined_included ht href
  | invoke n body =>
    refine confined_bind (confined_bindParams ht.1 (hT n ht.1))
      fun _ m d m' h => ?_
    cases h
  | copyTree is source => exact confined_copied ht source
  | copyTrees is parent ts =>
    cases ts with
    | nil => exact confined_pure _
    | cons t ts => exact confined_pure _
  | send e => exact confined_action (confined_send e)
  | leave =>
    intro m d m' h
    cases h
  | close n =>
    intro m d m' h
    cases h

end

-- ================================================================== steps

section

variable {T : Node → Prop} {s : Settings σ} {m m' : Machine σ} {t : Task}
  {ts : List Task} {es : List Event}

theorem among_below (hT : Closed T) {n : Node} (hn : T n) :
    ∀ t ∈ n.tree.children, T (n.below t) :=
  fun _ ht => hT n hn _ (List.mem_map_of_mem ht)

/-- The macros of all scopes are these nodes. -/
def Machine.Among (T : Node → Prop) (m : Machine σ) : Prop :=
  ∀ site ∈ m.scopes.sites, ∀ x ∈ site.macros, T x.2

theorem among_defined (hm : m.Among T) {name : String} {body : Node}
    (h : m.scopes.defined? name = some body) : T body := by
  obtain ⟨site, hsite, hbody⟩ := exists_of_defined? h
  exact hm site hsite _ hbody

/-- Macros are found among the children of nodes that are come to. -/
theorem among_machine (hT : Closed T) (h : Leads s m m' t ts es)
    (ht : t.Among T) (hm : m.Among T) : m'.Among T := by
  refine forall_sites_leads (fun _ => nofun) ?_ h hm
  rintro trim n rfl site added hadded hsite
  exact List.forall_mem_append.2
    ⟨fun x hx => hT n ht x.2 (hadded x hx).1, hsite⟩

theorem among_one {u : Task} (hu : u.Among T) : ∀ v ∈ [u], v.Among T :=
  List.forall_mem_singleton.2 hu

theorem among_two {u v : Task} (hu : u.Among T) (hv : v.Among T) :
    ∀ w ∈ [u, v], w.Among T :=
  List.forall_mem_cons.2 ⟨hu, among_one hv⟩

/-- A task is replaced by tasks at the nodes that it is at, or at nodes below;
only an inclusion goes on elsewhere. -/
theorem among_leads (hT : Closed T) (h : Leads s m m' t ts es)
    (ht : t.Among T) (hm : m.Among T)
    (hfetch : ∀ n href, t = .fetch n href → ∀ u ∈ ts, u.Among T) :
    ∀ u ∈ ts, u.Among T := by
  cases h with
  | template | root => exact among_one ht
  | done | doctype | noItem | trimmed | noCase | noPass | copiedText
  | copiedSection | notCopied | allCopied | send | leave | close =>
    exact List.forall_mem_nil _
  | inclusion => exact among_one ht
  | condition => exact among_two ht trivial
  | loop _ hloop => exact among_two ((among_loop hloop).2 ht) trivial
  | call _ hbody => exact among_two ⟨ht, among_defined hm hbody⟩ trivial
  | switch => exact among_one ⟨ht, among_below hT ht⟩
  | copyWhole _ his =>
    exact among_two (fun i hi => hT _ ht _ (his i hi).1) trivial
  | copyContents _ his =>
    exact List.forall_mem_cons.2 ⟨fun i hi => hT _ ht _ (his i hi).1,
      among_two trivial trivial⟩
  | literal => exact among_two ht trivial
  | contents => exact among_one (among_below hT ht)
  | skipped | passed | text | itemSection =>
    exact among_one (List.forall_mem_cons.1 ht).2
  | child =>
    obtain ⟨hfirst, hrest⟩ := List.forall_mem_cons.1 ht
    exact among_two hfirst hrest
  | case => exact among_two (ht.2 _ List.mem_cons_self) trivial
  | nextCase => exact among_one ⟨ht.1, (List.forall_mem_cons.1 ht.2).2⟩
  | pass hloop hnext =>
    have hn := (among_loop hloop).1 ht
    exact among_two hn ((among_loop hnext).2 hn)
  | lastPass hloop => exact among_one ((among_loop hloop).1 ht)
  | fetched => exact hfetch _ _ rfl
  | invoked => exact among_two ht.2 trivial
  | replaced hi => exact among_two (ht _ hi) trivial
  | copied => exact List.forall_mem_cons.2 ⟨ht, among_two trivial trivial⟩
  | copyNext => exact among_two ht ht

/-- An inclusion goes on at the root of the document that it has. -/
theorem fetched_ok {n : Node} {href : String} (rest : List Task)
    (h : (Task.fetch n href).expand s m = .ok ts m') :
    ∃ d root, Progress.Fetches s ⟨.fetch n href :: rest, none, m⟩ d
      ∧ d.rootElement? = some root
      ∧ ts = [.execute root, .close n, .leave] := by
  obtain ⟨url, d, root, hurl, hload, hroot, hts, -⟩ := included_ok h
  refine ⟨d, root, ⟨rfl, ⟨n, href, rest, url, rfl, hurl, ?_⟩, ?_⟩, hroot, hts⟩
  · rw [hload]
  · rw [hroot]
    rfl

/-- As long as processing goes on the tasks and the macros are at these nodes,
and the diagnostic that stops it names one of them, if any. -/
structure Progress.Among (T : Node → Prop) (c : Progress σ) : Prop where
  tasks : c.stop = none → ∀ t ∈ c.work, t.Among T
  macros : c.stop = none → c.machine.Among T
  stop : ∀ d, c.stop = some (.failed d) → d.Among T

theorem among_stopped {rest : List Task} {e : Stop}
    (h : ∀ d, e = .failed d → d.Among T) :
    Progress.Among T ⟨rest, some e, m⟩ where
  tasks hrunning := nomatch hrunning
  macros hrunning := nomatch hrunning
  stop d hd := h d (Option.some.inj hd)

/-- Processing goes on at these nodes if what it includes is among them. -/
theorem among_step (hT : Closed T) {c : Progress σ} (h : c.Among T)
    (hfetches : ∀ d, c.Fetches s d → ∀ x ∈ d.nodes, T x) :
    (step s c).Among T := by
  obtain ⟨work, stop, m⟩ := c
  cases work with
  | nil => exact h
  | cons t rest =>
    cases stop with
    -- a step behind a stop changes neither the stop nor the nodes that it
    -- names
    | some e =>
      rw [step_stopped]
      exact among_stopped fun d hd => h.stop d (congrArg some hd)
    | none =>
      obtain ⟨ht, hrest⟩ := List.forall_mem_cons.1 (h.tasks rfl)
      have hm := h.macros rfl
      cases hexpand : t.expand s m with
      | error e m' =>
        rw [step_error hexpand]
        refine among_stopped fun d hd => ?_
        cases hd
        exact confined_expand hT ht m d m' hexpand
      | ok ts m' =>
        obtain ⟨es, -, hleads⟩ := exists_leads hexpand
        rw [step_ok hexpand]
        refine ⟨fun _ => List.forall_mem_append.2 ⟨?_, hrest⟩,
          fun _ => among_machine hT hleads ht hm, fun _ hd => nomatch hd⟩
        refine among_leads hT hleads ht hm ?_
        rintro n href rfl
        obtain ⟨d, root, hd, hroot, rfl⟩ := fetched_ok rest hexpand
        have reached := hfetches d hd root (rootElement?_mem hroot)
        exact List.forall_mem_cons.2 ⟨reached, among_two trivial trivial⟩

end

-- ==================================================================== runs

section

variable {s : Settings σ} {main : Document} {n : Node} {m m' : Machine σ}
  {d : Diagnostic}

theorem among_progress (hn : n ∈ main.nodes)
    (hmacros : ∀ scope ∈ m.scopes.all, ∀ x ∈ scope.macros, x.2 ∈ main.nodes)
    (k : Nat) : (progress s n m k).Among (Reached s main n m) := by
  induction k with
  | zero =>
    refine ⟨fun _ => among_one (.template hn), fun _ => ?_,
      fun _ hd => nomatch hd⟩
    exact List.forall_mem_map.2 fun scope hscope x hx =>
      .template (hmacros scope hscope x hx)
  | succ k ih =>
    rw [progress_succ]
    exact among_step (closed_reached s main n m) ih fun d hd x hx =>
      .included hd hx

/-- A fault stops the steps as it stops the interpreter. -/
theorem exists_progress_of_failed (hnesting : m.nesting = 0)
    (h : process s n m = .error (.failed d) m') :
    ∃ k, progress s n m k = ⟨[], some (.failed d), m'⟩ := by
  rcases process_simulated s n hnesting s.passes with
    ⟨k, hwork, -, hk⟩ | ⟨⟨_, hunfinished⟩, -⟩
  · have hresult : (progress s n m k).result = .error (.failed d) m' :=
      hk.symm.trans h
    refine ⟨k, ?_⟩
    generalize progress s n m k = c at hwork hresult ⊢
    obtain ⟨work, stop, machine⟩ := c
    cases stop with
    | none => cases hresult
    | some e =>
      cases hresult
      exact congrArg (Progress.mk · _ _) hwork
  · cases hunfinished.symm.trans h

/-- The events of a run that no sink disturbs. -/
def eventsOf (s : Settings σ) (n : Node) (m : Machine σ) : List Event :=
  (after (process s.logging n) (m.outputting [])).output

/-- A run fails for what is found at a node, or the sink refuses an event. -/
theorem located_or_refused (h : process s n m = .error (.failed d) m') :
    d.Located ∨ ∃ e, s.sink.deliver m.output (eventsOf s n m)
        = (m'.output, some e) ∧ d = .general (.output e) := by
  have delivers := delivers_congruence s
  have blames := blames_congruence (s := s.logging) Sink.accepting_log
  obtain ⟨es, hes, hends⟩ :=
    delivers.execute (delivers.inner nestingLimit) n m []
  have hevents : eventsOf s n m = es := hes
  rw [hevents]
  have hprocess : execute s (inner? s nestingLimit) n m
      = .error (.failed d) m' := h
  rw [hprocess] at hends
  -- the same run with a sink that refuses nothing: if it fails, it fails at a
  -- place; if not, the sink must have refused
  cases hfree : execute s.logging (inner? s.logging nestingLimit) n
      (m.outputting []) with
  | ok a free =>
    rw [hfree] at hends
    cases hends with
    | refused hrefused => exact .inr ⟨_, hrefused, rfl⟩
  | error e free =>
    rw [hfree] at hends
    cases hends with
    | accepted =>
      exact .inl (blames.execute (blames.inner nestingLimit) n _ _ _ hfree)
    | refused hrefused => exact .inr ⟨_, hrefused, rfl⟩

/-- Whatever template is processed, with whatever bound and loaded and into
whatever sink: a run that fails for anything but the output names a node of the
template or of a document that is included on the way, and its place and path
can be told. No node is named just in case it is the output that failed; then
the sink took some of the events that are sent and refused the next. The steps
that lead there are those of the interpreter. -/
theorem diagnostics_located (hn : n ∈ main.nodes)
    (hmacros : ∀ scope ∈ m.scopes.all, ∀ x ∈ scope.macros, x.2 ∈ main.nodes)
    (hnesting : m.nesting = 0) (h : process s n m = .error (.failed d) m') :
    (d.kind ≠ .output → ∃ x, d.node = some x ∧ Reached s main n m x
      ∧ d.place? = some x.place ∧ d.path?.isSome)
    ∧ (d.node = none ↔ d.kind = .output)
    ∧ (d.kind = .output → ∃ taken refused rest o e,
      eventsOf s n m = taken ++ refused :: rest
        ∧ s.sink.deliver m.output taken = (o, none)
        ∧ s.sink.send o refused = (m'.output, some e)
        ∧ d = .general (.output e))
    ∧ ∃ k, progress s n m k = ⟨[], some (.failed d), m'⟩ := by
  obtain ⟨k, hk⟩ := exists_progress_of_failed hnesting h
  -- the node of a diagnostic is one that the run got to
  have named : d.Among (Reached s main n m) := by
    refine (among_progress hn hmacros k).stop d ?_
    rw [hk]
  rcases located_or_refused h with located | ⟨e, hrefused, rfl⟩
  · obtain ⟨x, hx⟩ := Option.isSome_iff_exists.1 located.node
    have hplace : d.place? = some x.place := congrArg (Option.map Node.place) hx
    refine ⟨fun _ => ⟨x, hx, named x hx, hplace, ?_⟩, ?_,
      fun hkind => absurd hkind located.kind, k, hk⟩
    · unfold Diagnostic.path?
      rw [hx]
      rfl
    · rw [hx]
      exact iff_of_false nofun located.kind
  · refine ⟨fun hkind => absurd rfl hkind, iff_of_true rfl rfl, fun _ => ?_,
      k, hk⟩
    obtain ⟨taken, refused, rest, o, hevents, htaken, hsend⟩ :=
      Sink.exists_refused hrefused
    exact ⟨taken, refused, rest, o, e, hevents, htaken, hsend, rfl⟩

end

/-- A document of one element. -/
def sole (origin : Markup.Origin) (t : Tree) : Document :=
  ⟨origin, .node ⟨0, ⟨1, 1⟩, .document⟩ [t]⟩

/-- The root of a template that does nothing but include. -/
def referring : Tree :=
  directive 1 "template" []
    [directive 2 "include" [⟨.ofText "href", none, "one"⟩] []]

/-- The root of a document that does nothing but fail. -/
def warning : Tree := directive 1 "error" [⟨.ofText "text", none, "no"⟩] []

/-- The document that fails is there to be included. -/
def supplied : Machine Unit :=
  let root := (sole (.given 0) referring).node.below referring
  let base : Url := ⟨"x", none, .segments ["a", "main"], none, none⟩
  let entry := ("x:/a/one", (sole (.loaded 0 "x:/a/one") warning).root)
  ⟨.single (.fresh root (some base)), 0, ⟨0, [entry]⟩, ()⟩

/-- What is named is not of the template, but of what it includes. -/
theorem diagnostics_located_supplied :
    let main := sole (.given 0) referring
    let n := main.node.below referring
    let x := (sole (.loaded 0 "x:/a/one") warning).node.below warning
    process vacant n supplied
      = .error (.failed (.about x (.explicit "no"))) supplied
    ∧ x ∉ main.nodes ∧ Reached vacant main n supplied x := by
  intro main n x
  have hn : n ∈ main.nodes := rootElement?_mem rfl
  have hfails : process vacant n supplied
      = .error (.failed (.about x (.explicit "no"))) supplied := by
    with_unfolding_all rfl
  have hmacros : ∀ scope ∈ supplied.scopes.all,
      ∀ y ∈ scope.macros, y.2 ∈ main.nodes :=
    List.forall_mem_singleton.2 nofun
  have hmain : ∀ y ∈ main.nodes, y.origin = .given 0 := by decide
  obtain ⟨located, -⟩ := diagnostics_located hn hmacros rfl hfails
  obtain ⟨y, hy, hreached, -⟩ := located nofun
  obtain rfl : x = y := Option.some.inj hy
  exact ⟨hfails, fun hx => absurd (hmain x hx) nofun, hreached⟩

end Stencil.Template
