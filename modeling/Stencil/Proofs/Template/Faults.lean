/-
What a step that fails says.

A diagnostic is plain, or it is of an expression, or it is of a macro that is
defined twice (`Diagnostic.Blamed`). While a task is expanded, the attributes or
the text of some nodes are read, in a scope that is open then or one that the
task opens (`Task.ReadsAt`); a diagnostic of an expression is about a node that
was read, and what it says of qualifiers is true at the anchor of that scope.
A macro is found to be defined twice only among contents, when its name is
taken in the scope that is open or by a macro before it (`Task.Redefines`). All
tasks are gone through once for this (`accuses_expand`).
-/
import Stencil.Proofs.Template.Anchors

namespace Stencil.Template

open Markup (Attribute Node Tree)

variable {σ α β : Type}

/-- What a qualifier means at a node; a declaration of nothing takes its meaning
away. -/
def meaning? (n : Node) (q : String) : Option String :=
  (n.resolve? (some q)).filter fun uri => !uri.isEmpty

/-- What an error says of qualifiers is true of a node. -/
def TrueAt (anchor : Node) : Expr.Error → Prop
  | .unknownPrefix q => meaning? anchor q = none
  | .unknownNamespace uri => ∃ q, meaning? anchor q = some uri
  | _ => True

theorem trueAt_iff_apt {scopes : Scopes} {e : Expr.Error} :
    TrueAt scopes.current.anchor e ↔ e.Apt scopes.environment := by
  cases e <;> rfl

-- ================================================================ readings

/-- Neither an expression nor a macro defined twice is the reason. -/
def Reason.isPlain : Reason → Bool
  | .expression _ _ => false
  | .scope (.duplicateMacro _) => false
  | _ => true

/-- A diagnostic is plain, or of an expression at a node with an error that may
be found there, or of a macro with a name that may be found twice. -/
inductive Diagnostic.Blamed (Q : Node → Expr.Error → Prop)
    (R : Node → String → Prop) : Diagnostic → Prop
  | plain {d : Diagnostic} (h : d.reason.isPlain = true) : Blamed Q R d
  | read (subject : Subject) {n : Node} {e : Expr.Error}
    (attr : Option String) (h : Q n e) :
    Blamed Q R ⟨.expression subject e, some n, attr⟩
  | twice {n : Node} {name : String} (h : R n name) :
    Blamed Q R (.about n (.scope (.duplicateMacro name)))

/-- A reading blames for what it finds one of these nodes, and tells the truth
of qualifiers. -/
def Reading.Apt (N : Node → Prop) (r : Reading α) : Prop :=
  ∀ env : Expr.Environment, env.Discreet → ∀ d, r env = .error d →
    d.Blamed (fun n e => N n ∧ e.Apt env) fun _ _ => False

section

variable {N : Node → Prop} {n : Node}

theorem apt_pure (a : α) : Reading.Apt N (pure a) := by
  intro env _ d hd
  cases hd

theorem apt_throw {d : Diagnostic}
    (hd : d.reason.isPlain = true) :
    Reading.Apt N (throw d : Reading α) := by
  intro env _ d' hd'
  cases hd'
  exact .plain hd

theorem apt_bind {r : Reading α} {f : α → Reading β} (hr : Reading.Apt N r)
    (hf : ∀ a, Reading.Apt N (f a)) : Reading.Apt N (r >>= f) := by
  intro env henv d hd
  change (r env >>= fun a => f a env) = _ at hd
  cases hra : r env with
  | error d' =>
    rw [hra] at hd
    cases hd
    exact hr env henv d hra
  | ok a =>
    rw [hra] at hd
    exact hf a env henv d hd

theorem apt_evaluating (hn : N n) {attr : Option String} {subject : Subject}
    {f : Expr.Environment → Except Expr.Error α}
    (hf : ∀ env : Expr.Environment, env.Discreet →
      Expr.Faults (Expr.Error.Apt env) (f env)) :
    Reading.Apt N (evaluating n attr subject f) := by
  intro env henv d hd
  unfold evaluating at hd
  cases hfe : f env with
  | ok a =>
    rw [hfe] at hd
    cases hd
  | error e =>
    rw [hfe] at hd
    cases hd
    exact .read subject attr ⟨hn, hf env henv e hfe⟩

variable (hn : N n)

include hn

theorem apt_substituted (name : String) :
    Reading.Apt N (substituted n name) := by
  unfold substituted
  split
  · exact apt_pure _
  · refine apt_bind (apt_evaluating hn fun env henv => ?_) fun _ => apt_pure _
    exact Expr.apt_substitute henv _

theorem apt_identifier (name : String) {reason : Reason}
    (hreason : reason.isPlain = true) :
    Reading.Apt N (identifier n name reason) := by
  refine apt_bind (apt_substituted hn name) fun text => ?_
  cases text with
  | none => exact apt_pure _
  | some text =>
    dsimp only
    split
    · exact apt_pure _
    · exact apt_throw hreason

theorem apt_requiredName : Reading.Apt N (requiredName n) := by
  refine apt_bind (apt_substituted hn "name") fun text => ?_
  cases text with
  | none => exact apt_throw rfl
  | some text =>
    dsimp only
    split
    · exact apt_pure _
    · exact apt_throw rfl

theorem apt_valueOf (name text : String) :
    Reading.Apt N (valueOf n name text) :=
  apt_evaluating hn fun _ henv => Expr.apt_evaluate henv text

theorem apt_requiredValue : Reading.Apt N (requiredValue n) := by
  refine apt_bind (apt_substituted hn "value") fun text => ?_
  cases text with
  | none => exact apt_throw rfl
  | some text => exact apt_valueOf hn "value" text

theorem apt_truth (text : String) : Reading.Apt N (truth n text) :=
  apt_bind (apt_valueOf hn "test" text) fun v =>
    apt_evaluating hn fun env _ => (Expr.plain_asBool v).apt env

theorem apt_included (uri : String) : Reading.Apt N (included uri n) := by
  unfold included
  split
  · exact apt_pure _
  · refine apt_evaluating hn fun env henv => ?_
    refine Expr.faults_bind (Expr.apt_substitute henv _) fun text _ => ?_
    split
    · exact Expr.faults_ok _
    · refine Expr.faults_bind (Expr.apt_evaluate henv text) fun v _ => ?_
      exact (Expr.plain_asBool v).apt env

theorem apt_admitted (uri : String) (parent : Node) (within kind : Directive) :
    Reading.Apt N (admitted uri parent within kind n) := by
  unfold admitted
  split
  · split
    · exact apt_pure _
    · exact apt_throw rfl
  · refine apt_bind (apt_included hn uri) fun b => ?_
    split
    · exact apt_pure _
    · split
      · exact apt_pure _
      · exact apt_throw rfl

theorem apt_caseApplies (s : Settings σ) (parent : Node) :
    Reading.Apt N (caseApplies s parent n) := by
  refine apt_bind (apt_admitted hn s.uri parent .switch .case) fun b => ?_
  split
  · refine apt_bind (apt_substituted hn "test") fun text => ?_
    cases text with
    | none => exact apt_pure _
    | some text => exact apt_truth hn text
  · exact apt_pure _

theorem apt_literalAttributes (uri : String) (attributes : List Attribute) :
    Reading.Apt N (literalAttributes uri n attributes) := by
  induction attributes with
  | nil => exact apt_pure _
  | cons a rest ih =>
    rw [literalAttributes]
    split
    · exact ih
    · refine apt_bind (apt_evaluating hn fun env henv => ?_) fun _ =>
        apt_bind ih fun _ => apt_pure _
      exact Expr.apt_substitute henv _

theorem apt_literalText (data : String) :
    Reading.Apt N (literalText n data) :=
  apt_evaluating hn fun _ henv => Expr.apt_substitute henv data

theorem apt_loopSpec : Reading.Apt N (loopSpec n) :=
  apt_bind (apt_identifier hn "name" rfl) fun _ =>
    apt_bind (apt_substituted hn "collection") fun _ =>
      apt_bind (apt_substituted hn "from") fun _ =>
        apt_bind (apt_substituted hn "to") fun _ =>
          apt_bind (apt_substituted hn "by") fun _ =>
            apt_bind (apt_identifier hn "index" rfl) fun _ => apt_pure _

theorem apt_bound (name : String) (text : Option String) :
    Reading.Apt N (bound n name text) := by
  cases text with
  | none => exact apt_pure _
  | some text => exact apt_bind (apt_valueOf hn name text) fun _ => apt_pure _

theorem apt_loopKind (spec : LoopSpec) : Reading.Apt N (loopKind n spec) := by
  unfold loopKind
  dsimp only
  split
  · split
    · exact apt_throw rfl
    · refine apt_bind ?_ fun _ => apt_pure _
      refine apt_bind (apt_valueOf hn "collection" _) fun v => ?_
      split
      · exact apt_pure _
      · exact apt_throw rfl
  · split
    · exact apt_throw rfl
    · split
      · exact apt_throw rfl
      · refine apt_bind ?_ fun _ => apt_pure _
        exact apt_bind (apt_bound hn "from" _) fun _ =>
          apt_bind (apt_bound hn "to" _) fun _ =>
            apt_bind (apt_bound hn "by" _) fun _ => apt_pure _

theorem apt_copySource (text : String) : Reading.Apt N (copySource n text) := by
  refine apt_bind (apt_valueOf hn "element" text) fun v => ?_
  cases v with
  | element source =>
    dsimp only
    split
    · exact apt_pure _
    · exact apt_throw rfl
  | _ => exact apt_throw rfl

theorem apt_copiesWhole : Reading.Apt N (copiesWhole n) := by
  refine apt_bind (apt_substituted hn "option") fun text => ?_
  split
  · exact apt_pure _
  · exact apt_pure _
  · exact apt_throw rfl

theorem apt_interceptSpec : Reading.Apt N (interceptSpec n) := by
  refine apt_bind (apt_substituted hn "element") fun text => ?_
  cases text with
  | none => exact apt_throw rfl
  | some tag =>
    exact apt_bind (apt_identifier hn "name" rfl) fun _ => apt_pure _

omit hn

theorem apt_intercepts (uri : String) (parent : Node)
    {cs : List (Node × Run σ Unit)} (hcs : ∀ c ∈ cs, N c.1) :
    Reading.Apt N (intercepts uri parent cs) := by
  induction cs with
  | nil => exact apt_pure _
  | cons c cs ih =>
    obtain ⟨hc, hcs⟩ := List.forall_mem_cons.1 hcs
    refine apt_bind (apt_admitted hc uri parent .copy .intercept) fun b => ?_
    split
    · refine apt_bind (apt_interceptSpec hc) fun spec => ?_
      exact apt_bind (ih hcs) fun _ => apt_pure _
    · exact ih hcs

theorem apt_wholeBound (n : Node) (name : String) (default : Int64)
    (v : Option Expr.Value) :
    Reading.Apt N (wholeBound n name default v) := by
  cases v with
  | none => exact apt_pure _
  | some v =>
    unfold wholeBound
    dsimp only
    split
    · exact apt_pure _
    · exact apt_throw rfl

theorem apt_floatBound (n : Node) (name : String) (default : Float)
    (v : Option Expr.Value) :
    Reading.Apt N (floatBound n name default v) := by
  cases v with
  | none => exact apt_pure _
  | some v =>
    unfold floatBound
    dsimp only
    split
    · exact apt_pure _
    · exact apt_throw rfl

theorem apt_wholeRange (n : Node) (b : Bounds) :
    Reading.Apt N (wholeRange n b) := by
  refine apt_bind (apt_wholeBound n _ _ _) fun _ =>
    apt_bind (apt_wholeBound n _ _ _) fun _ =>
      apt_bind (apt_wholeBound n _ _ _) fun _ => ?_
  split
  · exact apt_throw rfl
  · exact apt_pure _

theorem apt_floatRange (n : Node) (b : Bounds) :
    Reading.Apt N (floatRange n b) := by
  refine apt_bind (apt_floatBound n _ _ _) fun _ =>
    apt_bind (apt_floatBound n _ _ _) fun _ =>
      apt_bind (apt_floatBound n _ _ _) fun _ => ?_
  split
  · exact apt_pure _
  · exact apt_throw rfl

end

-- =================================================================== tasks

/-- While a task is expanded, the attributes or the text of a node are read in a
scope anchored at the last node, when the scope that is open then is anchored
at `a`. A copy opens its scope when part of its own attributes are read. -/
inductive Task.ReadsAt (uri : String) (a : Node) : Task → Node → Node → Prop
  | element (n : Node) : ReadsAt uri a (.element n) n a
  | source {n : Node} (hn : Directive.ofNode? uri n = some .copy) :
    ReadsAt uri a (.element n) n n
  | intercept {n child : Node} (hn : Directive.ofNode? uri n = some .copy)
    (hchild : child ∈ n.children) : ReadsAt uri a (.element n) child n
  | item (trim front : Bool) (parent : Node) (t : Tree) (ts : List Tree) :
    ReadsAt uri a (.items trim front parent (t :: ts)) (parent.below t) a
  | case (n : Node) (t : Tree) (ts : List Tree) :
    ReadsAt uri a (.cases n (t :: ts)) (n.below t) a
  | param {n child : Node} (body : Node) (hchild : child ∈ n.children) :
    ReadsAt uri a (.invoke n body) child a

/-- Among the contents that are to be processed is a macro whose name is taken:
by a macro of the scope that is open, or by one before it. -/
def Task.Redefines (uri : String) (m : Machine σ) (t : Task) (child : Node)
    (name : String) : Prop :=
  ∃ trim n before behind, t = .contents trim n
    ∧ n.children = before ++ child :: behind ∧ Defines uri child name
    ∧ ∃ body, (name, body) ∈ m.scopes.current.macros
      ∨ body ∈ before ∧ Defines uri body name

-- ==================================================================== runs

/-- Why a run stopped early, if a fault was found. -/
def fault? : EStateM.Result Stop (Machine σ) α → Option Diagnostic
  | .error (.failed d) _ => some d
  | _ => none

/-- What a run that stops early is blamed on. -/
def Accuses (Q : Node → Expr.Error → Prop) (R : Node → String → Prop)
    (x : Run σ α) (m : Machine σ) : Prop :=
  ∀ d m', x m = .error (.failed d) m' → d.Blamed Q R

section

variable {Q : Node → Expr.Error → Prop} {R : Node → String → Prop}
  {s : Settings σ} {m : Machine σ} {n : Node}

theorem accuses_pure (a : α) : Accuses Q R (pure a : Run σ α) m := by
  intro d m' h
  cases h

theorem accuses_fail {d : Diagnostic}
    (hd : d.reason.isPlain = true) :
    Accuses Q R (fail d : Run σ α) m := by
  intro d' m' h
  cases h
  exact .plain hd

theorem accuses_bind {x : Run σ α} {f : α → Run σ β} (hx : Accuses Q R x m)
    (hf : ∀ a m', x m = .ok a m' → Accuses Q R (f a) m') :
    Accuses Q R (x >>= f) m := by
  intro d m' h
  cases hxm : x m with
  | ok a m₁ =>
    rw [bind_ok hxm] at h
    exact hf a m₁ hxm d m' h
  | error e m₁ =>
    rw [bind_error hxm] at h
    cases h
    exact hx d m' hxm

/-- Tasks are put in place behind an action, and nothing is blamed for that. -/
theorem accuses_action {x : Run σ Unit} {ts : List Task}
    (hx : Accuses Q R x m) : Accuses Q R (x >>= fun _ => pure ts) m :=
  accuses_bind hx fun _ _ _ => accuses_pure ts

theorem accuses_get {f : Machine σ → Run σ α} (h : Accuses Q R (f m) m) :
    Accuses Q R (get >>= f) m := h

/-- All functions that can be called are discreet. -/
theorem discreet_environment
    (hsites : ∀ site ∈ m.scopes.sites, site.Proper s.uri) :
    m.scopes.environment.Discreet := by
  intro uri l hl
  obtain ⟨scope, hscope, hfound⟩ := List.exists_of_findSome?_eq_some hl
  have proper := hsites scope.site (List.mem_map_of_mem hscope)
  exact proper.discreet (uri, l) (mem_of_lookup hfound)

theorem accuses_read {N : Node → Prop} {r : Reading α} {f : α → Run σ β}
    (henv : m.scopes.environment.Discreet) (hr : Reading.Apt N r)
    (hQ : ∀ n e, N n → TrueAt m.scopes.current.anchor e → Q n e)
    (hf : ∀ a, Accuses Q R (f a) m) : Accuses Q R (read r >>= f) m := by
  refine accuses_bind (fun d m' h => ?_) fun a m' h => ?_
  · unfold read at h
    split at h
    · cases h
    · next d' hd =>
      cases h
      cases hr _ henv _ hd with
      | plain h => exact .plain h
      | read subject attr h =>
        exact .read subject attr (hQ _ _ h.1 (trueAt_iff_apt.2 h.2))
      | twice h => exact h.elim
  · unfold read at h
    split at h
    · cases h
      exact hf a
    · cases h

theorem accuses_send (e : Output.Event) : Accuses Q R (send s e) m := by
  intro d m' h
  unfold send at h
  split at h
  · cases h
  · cases h
    exact .plain rfl

theorem accuses_sendAll (es : List Output.Event) :
    Accuses Q R (sendAll s es) m := by
  induction es generalizing m with
  | nil => exact accuses_pure _
  | cons e es ih => exact accuses_bind (accuses_send e) fun _ _ _ => ih

theorem accuses_bindVariable (n : Node) (name : String) (v : Expr.Value) :
    Accuses Q R (bindVariable n name v : Run σ Unit) m := by
  intro d m' h
  obtain ⟨-, e, he, hd⟩ := onScope_error h
  obtain ⟨-, rfl⟩ := Scope.bind_eq_error.1 (onCurrent_error.1 he)
  cases hd
  exact .plain rfl

theorem accuses_bindOptional (n : Node) (name : Option String)
    (v : Expr.Value) : Accuses Q R (bindOptional n name v : Run σ Unit) m := by
  cases name with
  | none => exact accuses_pure _
  | some name => exact accuses_bindVariable n name v

theorem define_error {d : Diagnostic} {m' : Machine σ}
    (h : define n m = .error (.failed d) m') :
    d.reason.isPlain = true ∨ ∃ body,
      d = .about n (.scope (.duplicateMacro ((n.attribute? "name").getD "")))
        ∧ ((n.attribute? "name").getD "", body) ∈ m.scopes.current.macros := by
  unfold define at h
  split at h
  · obtain ⟨-, e, he, hd⟩ := onScope_error h
    obtain ⟨⟨body, hbody⟩, rfl⟩ :=
      Scope.define_eq_error.1 (onCurrent_error.1 he)
    cases hd
    exact .inr ⟨body, rfl, mem_of_lookup hbody⟩
  · cases h
    exact .inl rfl

/-- Macros are found to be defined twice in the order in which they stand. -/
theorem accuses_defineAll {before ns : List Node}
    {macros : List (String × Node)}
    (hmacros : ∀ x ∈ m.scopes.current.macros,
      x ∈ macros ∨ x.2 ∈ before ∧ Defines s.uri x.2 x.1) :
    Accuses Q (fun child name => ∃ earlier behind,
        before ++ ns = earlier ++ child :: behind ∧ Defines s.uri child name
          ∧ ∃ body, (name, body) ∈ macros
            ∨ body ∈ earlier ∧ Defines s.uri body name)
      (defineAll s ns) m := by
  induction ns generalizing before m with
  | nil => exact accuses_pure _
  | cons n ns ih =>
    have hsplit : before ++ n :: ns = (before ++ [n]) ++ ns := by
      rw [List.append_assoc, List.singleton_append]
    rw [defineAll]
    split
    · next hn =>
      refine accuses_bind (fun d m' hd => ?_) fun _ m₁ hm₁ => ?_
      · rcases define_error hd with hplain | ⟨body, rfl, hbody⟩
        · exact .plain hplain
        · exact .twice ⟨before, ns, rfl, ⟨hn, rfl⟩, body, hmacros _ hbody⟩
      · rw [hsplit]
        refine ih fun x hx => ?_
        -- the macro that was just defined is one of those in front now
        have hcurrent : m₁.scopes.current.macros
            = ((n.attribute? "name").getD "", n) :: m.scopes.current.macros :=
          congrArg Site.macros (List.cons.inj (sites_define hm₁).2).1
        rw [hcurrent] at hx
        rcases List.mem_cons.1 hx with rfl | hx
        · exact .inr ⟨List.mem_append_right _ List.mem_cons_self, hn, rfl⟩
        · refine (hmacros x hx).imp id fun h => ⟨?_, h.2⟩
          exact List.mem_append_left _ h.1
    · rw [hsplit]
      refine ih fun x hx => (hmacros x hx).imp id fun h => ⟨?_, h.2⟩
      exact List.mem_append_left _ h.1

theorem accuses_tasksInScope {anchor : Node} {tasks : Run σ (List Task)}
    (h : Accuses Q R tasks { m with scopes := m.scopes.push anchor }) :
    Accuses Q R (tasksInScope anchor tasks) m := by
  intro d m' hd
  unfold tasksInScope at hd
  split at hd
  · cases hd
  · next heq =>
    cases hd
    exact h _ _ heq

theorem accuses_opened {anchor : Node} {ts : List Task} :
    Accuses Q R (tasksInScope anchor (pure ts)) m :=
  accuses_tasksInScope (accuses_pure ts)

end

-- ============================================================== expansions

section

variable {R : Node → String → Prop} {s : Settings σ} {m : Machine σ} {n : Node}

/-- What is blamed while a task is expanded has been read, and what is said of
qualifiers is true of the anchor there. -/
abbrev Rightly (s : Settings σ) (a : Node) (t : Task) (n : Node)
    (e : Expr.Error) : Prop :=
  ∃ b, t.ReadsAt s.uri a n b ∧ TrueAt b e

variable (hsites : ∀ site ∈ m.scopes.sites, site.Proper s.uri)

include hsites

/-- An element is read in the scope that is open. -/
theorem accuses_own {r : Reading α} {f : α → Run σ β}
    (hr : ∀ {N : Node → Prop}, N n → Reading.Apt N r)
    (hf : ∀ a, Accuses (Rightly s m.scopes.current.anchor (.element n)) R (f a) m) :
    Accuses (Rightly s m.scopes.current.anchor (.element n)) R (read r >>= f)
      m := by
  have own : Reading.Apt (· = n) r := hr rfl
  refine accuses_read (discreet_environment hsites) own ?_ hf
  rintro _ e rfl he
  exact ⟨_, .element _, he⟩

/-- A copy reads what is left in its own scope. -/
theorem accuses_copying {N : Node → Prop} {r : Reading α} {f : α → Run σ β}
    (hr : Reading.Apt N r)
    (hN : ∀ e, N e → (Task.element n).ReadsAt s.uri m.scopes.current.anchor e n)
    (hf : ∀ a, Accuses (Rightly s m.scopes.current.anchor (.element n)) R (f a)
      { m with scopes := m.scopes.push n }) :
    Accuses (Rightly s m.scopes.current.anchor (.element n)) R (read r >>= f)
      { m with scopes := m.scopes.push n } := by
  have proper : ∀ site ∈ (m.scopes.push n).sites, site.Proper s.uri :=
    List.forall_mem_cons.2 ⟨⟨nofun, nofun⟩, hsites⟩
  have henv := discreet_environment
    (m := { m with scopes := m.scopes.push n }) proper
  exact accuses_read henv hr (fun e _ he htold => ⟨n, hN e he, htold⟩) hf

theorem accuses_copy (hn : Directive.ofNode? s.uri n = some .copy) :
    Accuses (Rightly s m.scopes.current.anchor (.element n)) R (Task.copy s n)
      m := by
  refine accuses_own hsites (apt_substituted · "element") fun text => ?_
  cases text with
  | none => exact accuses_fail rfl
  | some text =>
    refine accuses_tasksInScope ?_
    have own (e : Node) (he : n = e) :
        (Task.element n).ReadsAt s.uri m.scopes.current.anchor e n := by
      cases he
      exact .source hn
    refine accuses_copying hsites (apt_copySource rfl text) own fun source => ?_
    refine accuses_copying hsites (apt_copiesWhole rfl) own fun whole => ?_
    refine accuses_copying hsites (apt_intercepts s.uri n fun c hc => ?_)
      (fun e he => .intercept hn he) fun is => ?_
    · obtain ⟨child, hchild, rfl⟩ := List.mem_map.1 hc
      exact hchild
    · split
      · exact accuses_pure _
      · exact accuses_opened

/-- What a doctype, an explicit failure or an assignment does is done at once:
no task is left of it. -/
theorem accuses_doctype :
    Accuses (Rightly s m.scopes.current.anchor (.element n)) R (doctype s n)
      m := by
  refine accuses_own hsites (apt_substituted · "name") fun name => ?_
  cases name with
  | none => exact accuses_fail rfl
  | some name =>
    refine accuses_own hsites (apt_substituted · "system") fun _ => ?_
    refine accuses_own hsites (apt_substituted · "public") fun _ => ?_
    exact accuses_sendAll _

theorem accuses_failure :
    Accuses (Rightly s m.scopes.current.anchor (.element n)) R
      (explicitFailure n : Run σ Unit) m :=
  accuses_own hsites (apt_substituted · "text") fun _ => accuses_fail rfl

theorem accuses_assignment :
    Accuses (Rightly s m.scopes.current.anchor (.element n)) R
      (assignment n : Run σ Unit) m := by
  refine accuses_own hsites apt_requiredName fun name => ?_
  split
  · exact accuses_fail rfl
  · split
    · exact accuses_fail rfl
    · refine accuses_own hsites apt_requiredValue fun value => ?_
      exact accuses_bindVariable n name value

theorem accuses_inclusion :
    Accuses (Rightly s m.scopes.current.anchor (.element n)) R
      (Task.inclusion n) m := by
  refine accuses_own hsites (apt_substituted · "href") fun href => ?_
  cases href with
  | none => exact accuses_fail rfl
  | some href =>
    refine accuses_get ?_
    split
    · exact accuses_pure _
    · exact accuses_fail rfl

theorem accuses_condition :
    Accuses (Rightly s m.scopes.current.anchor (.element n)) R
      (Task.condition n) m := by
  refine accuses_own hsites (apt_substituted · "test") fun test => ?_
  cases test with
  | none => exact accuses_fail rfl
  | some test =>
    refine accuses_own hsites (apt_truth · test) fun b => ?_
    split
    · exact accuses_opened
    · exact accuses_pure _

theorem accuses_loop :
    Accuses (Rightly s m.scopes.current.anchor (.element n)) R (Task.loop n)
      m := by
  refine accuses_own hsites apt_loopSpec fun spec => ?_
  refine accuses_own hsites (apt_loopKind · spec) fun kind => ?_
  cases kind with
  | items values => exact accuses_opened
  | range b =>
    dsimp only
    split
    · refine accuses_own hsites (fun _ => apt_floatRange n b) fun r => ?_
      split
      · exact accuses_pure _
      · exact accuses_opened
    · refine accuses_own hsites (fun _ => apt_wholeRange n b) fun r => ?_
      split
      · exact accuses_pure _
      · exact accuses_opened

theorem accuses_call :
    Accuses (Rightly s m.scopes.current.anchor (.element n)) R (Task.call n)
      m := by
  refine accuses_own hsites (apt_substituted · "name") fun name => ?_
  refine accuses_get ?_
  split
  · exact accuses_fail rfl
  · split
    · exact accuses_opened
    · exact accuses_fail rfl

theorem accuses_directive {d : Directive}
    (hn : Directive.ofNode? s.uri n = some d) :
    Accuses (Rightly s m.scopes.current.anchor (.element n)) R
      (Task.directive s n d) m := by
  cases d with
  | failure => exact accuses_action (accuses_failure hsites)
  | doctype => exact accuses_action (accuses_doctype hsites)
  | inclusion => exact accuses_inclusion hsites
  | assignment => exact accuses_action (accuses_assignment hsites)
  | condition => exact accuses_condition hsites
  | switch => exact accuses_pure _
  | loop => exact accuses_loop hsites
  | call => exact accuses_call hsites
  | comment => exact accuses_pure _
  | copy => exact accuses_copy hsites hn
  | definition => exact accuses_pure _
  | _ => exact accuses_fail rfl

theorem accuses_element (n : Node) :
    Accuses (Rightly s m.scopes.current.anchor (.element n)) R
      ((Task.element n).expand s) m := by
  refine accuses_own hsites (apt_included · s.uri) fun b => ?_
  cases b with
  | false => exact accuses_pure _
  | true =>
    rw [if_pos rfl]
    cases hn : Directive.ofNode? s.uri n with
    | some d => exact accuses_directive hsites hn
    | none =>
      show Accuses _ _ (Task.literal s n) m
      unfold Task.literal
      cases n.element? with
      | none => exact accuses_pure _
      | some e =>
        refine accuses_own hsites (apt_literalAttributes · s.uri _) fun _ => ?_
        exact accuses_action (accuses_send _)

/-- Parameters are read where the call is anchored, whatever was bound before
them. -/
theorem accuses_bindParams {a body : Node} {ns : List Node}
    (hns : ∀ child ∈ ns, child ∈ n.children)
    (ha : m.scopes.current.anchor = a) :
    Accuses (Rightly s a (.invoke n body)) R (bindParams s n ns) m := by
  induction ns generalizing m with
  | nil => exact accuses_pure _
  | cons child rest ih =>
    obtain ⟨hchild, hrest⟩ := List.forall_mem_cons.1 hns
    have henv := discreet_environment hsites
    have hreads : ∀ e e', child = e → TrueAt m.scopes.current.anchor e' →
        Rightly s a (.invoke n body) e e' := by
      rintro _ e' rfl he
      exact ⟨a, .param body hchild, ha ▸ he⟩
    refine accuses_read henv (apt_admitted rfl s.uri n .call .param) hreads
      fun b => ?_
    cases b with
    | false => exact ih hsites hrest ha
    | true =>
      refine accuses_bind ?_ fun _ m₁ hm₁ => ?_
      · refine accuses_read henv (apt_requiredName rfl) hreads fun name => ?_
        refine accuses_read henv (apt_requiredValue rfl) hreads fun value => ?_
        exact accuses_bindVariable child _ _
      · have still := (still_bindParam child).still hm₁
        refine ih ?_ hrest ?_
        · rw [still.sites]
          exact hsites
        · exact (congrArg Site.anchor (List.cons.inj still.sites).1).trans ha

omit hsites in
theorem accuses_item {parent : Node} {t : Tree} {ts : List Tree}
    {trim front : Bool} (henv : m.scopes.environment.Discreet)
    (front' back : Bool) (rest : Task) :
    Accuses (Rightly s m.scopes.current.anchor
        (.items trim front parent (t :: ts))) R
      (Task.item s (parent.below t) front' back rest) m := by
  -- of what an element contains only text is read for expressions
  have text (data : String) :
      Accuses (Rightly s m.scopes.current.anchor
        (.items trim front parent (t :: ts))) R
        (Template.text s (parent.below t) data) m := by
    unfold Template.text
    split
    · exact accuses_pure _
    · refine accuses_read henv (apt_literalText rfl data) ?_
        fun _ => accuses_send _
      rintro _ e rfl he
      exact ⟨_, .item trim front parent t ts, he⟩
  unfold Task.item
  cases hc : (parent.below t).content with
  | element e =>
    dsimp only
    split
    · exact accuses_pure _
    · exact accuses_pure _
  | text data =>
    refine accuses_action ?_
    unfold Template.item
    rw [hc]
    exact text _
  | cdata data =>
    refine accuses_action ?_
    unfold Template.item
    rw [hc]
    exact accuses_sendAll _
  | _ =>
    refine accuses_action ?_
    unfold Template.item
    rw [hc]
    exact accuses_pure _

omit hsites in
/-- Where contents are come to, only their macros are looked at. -/
theorem accuses_contents (trim : Bool) (n : Node) :
    Accuses (Rightly s m.scopes.current.anchor (.contents trim n))
      ((Task.contents trim n).Redefines s.uri m)
      ((Task.contents trim n).expand s) m := by
  refine accuses_action fun d m' hd => ?_
  have unnamed : ∀ x ∈ m.scopes.current.macros,
      x ∈ m.scopes.current.macros ∨ x.2 ∈ [] ∧ Defines s.uri x.2 x.1 :=
    fun _ hx => .inl hx
  cases accuses_defineAll unnamed d m' hd with
  | plain h => exact .plain h
  | read subject attr h => exact .read subject attr h
  | twice h =>
    obtain ⟨before, behind, hchildren, hchild, hbody⟩ := h
    exact .twice ⟨trim, n, before, behind, rfl, hchildren, hchild, hbody⟩

omit hsites in
theorem accuses_items {trim front : Bool} {parent : Node} {ts : List Tree}
    (henv : m.scopes.environment.Discreet) :
    Accuses (Rightly s m.scopes.current.anchor (.items trim front parent ts)) R
      ((Task.items trim front parent ts).expand s) m := by
  cases ts with
  | nil => exact accuses_pure _
  | cons t ts =>
    show Accuses _ _ (Task.nextItem s trim front parent t ts) m
    unfold Task.nextItem
    dsimp only
    split
    · exact accuses_pure _
    · split
      · exact accuses_pure _
      · exact accuses_item henv _ _ _

omit hsites in
/-- That a case applies is asked where its switch stands. -/
theorem accuses_cases {ts : List Tree}
    (henv : m.scopes.environment.Discreet) :
    Accuses (Rightly s m.scopes.current.anchor (.cases n ts)) R
      ((Task.cases n ts).expand s) m := by
  cases ts with
  | nil => exact accuses_pure _
  | cons t ts =>
    refine accuses_read henv (apt_caseApplies rfl s n) ?_ fun b => ?_
    · rintro _ e rfl he
      exact ⟨_, .case n t ts, he⟩
    · split
      · exact accuses_opened
      · exact accuses_pure _

omit hsites in
/-- A pass of a loop reads nothing: it binds variables. -/
theorem accuses_pass {Q : Node → Expr.Error → Prop} {t : Task}
    (ht : t.loop? = some n) : Accuses Q R (t.expand s) m := by
  cases t with
  | each _ spec i vs =>
    cases vs with
    | nil => exact accuses_pure _
    | cons v vs =>
      refine accuses_bind (accuses_bindOptional _ _ _) fun _ _ _ => ?_
      exact accuses_action (accuses_bindOptional _ _ _)
  | whole _ name step k i =>
    cases k with
    | zero => exact accuses_pure _
    | succ k => exact accuses_action (accuses_bindOptional _ _ _)
  | floating _ name r up x =>
    refine accuses_bind (accuses_bindOptional _ _ _) fun _ _ _ => ?_
    dsimp only
    split
    · exact accuses_pure _
    · exact accuses_pure _
  | _ => cases ht

omit hsites in
theorem accuses_included {Q : Node → Expr.Error → Prop} (href : String) :
    Accuses Q R (Task.included s n href) m := by
  refine accuses_get ?_
  split
  · exact accuses_fail rfl
  · refine accuses_bind (fun d m' h => ?_) fun d m' _ => ?_
    · cases h
    · cases d with
      | error e => exact accuses_fail rfl
      | ok document =>
        dsimp only
        split
        · exact accuses_fail rfl
        · refine accuses_tasksInScope ?_
          intro d m' h
          cases h

omit hsites in
/-- The source of a copy is written as it is. -/
theorem accuses_copied {Q : Node → Expr.Error → Prop}
    (is : List (Intercept Unit)) (source : Node) :
    Accuses Q R (Task.copied s is source) m := by
  unfold Task.copied
  split
  · split
    · exact accuses_tasksInScope (accuses_action (accuses_bindOptional _ _ _))
    · refine accuses_bind (accuses_send _) fun _ _ _ => ?_
      exact accuses_bind accuses_opened fun _ _ _ => accuses_pure _
  · exact accuses_action (accuses_sendAll _)
  · exact accuses_action (accuses_send _)
  · exact accuses_pure _

/-- Whatever is expanded, what is said of qualifiers is true where they were
read. -/
theorem accuses_expand (t : Task) :
    Accuses (Rightly s m.scopes.current.anchor t) (t.Redefines s.uri m)
      (t.expand s) m := by
  have henv := discreet_environment hsites
  cases t with
  | execute n =>
    show Accuses _ _ (Task.root s n) m
    unfold Task.root
    split
    · exact accuses_pure _
    · exact accuses_pure _
  | element n => exact accuses_element hsites n
  | contents trim n => exact accuses_contents trim n
  | items => exact accuses_items henv
  | cases => exact accuses_cases henv
  | each | whole | floating => exact accuses_pass rfl
  | fetch n href => exact accuses_included href
  | invoke n body =>
    refine accuses_bind (accuses_bindParams hsites (fun _ h => h) rfl)
      fun _ _ _ d m' h => ?_
    cases h
  | copyTree is source => exact accuses_copied is source
  | copyTrees is parent ts =>
    cases ts with
    | nil => exact accuses_pure _
    | cons t ts => exact accuses_pure _
  | send e => exact accuses_action (accuses_send e)
  | leave =>
    intro d m' h
    cases h
  | close n =>
    intro d m' h
    cases h

end

end Stencil.Template
