/-
Names that are bound.

Whatever binds a variable asks first whether the name is valid. A loop and a copy
ask long before they bind, so the names that they read wait in tasks. If the names
that scopes bind are valid, and those that wait too (`Progress.Named`), then they
are so behind the next step (`named_step`), and however far processing gets. Where
they are, what a scope binds is what the text of its name evaluates to
(`Scopes.Named.evaluate`).
-/
import Stencil.Proofs.Expr.Names
import Stencil.Proofs.Template.Inversion
import Stencil.Proofs.Template.Loops

namespace Stencil.Template

open Stencil.Expr (Value Environment isValidName Results results_ok results_error
  results_bind results_after)
open Markup (Node Tree)

variable {σ α β : Type}

-- ============================================================= reading names

def AllValid (names : List String) : Prop :=
  ∀ name ∈ names, isValidName name = true

theorem allValid_nil : AllValid [] := List.forall_mem_nil _

theorem allValid_append {names names' : List String} :
    AllValid (names ++ names') ↔ AllValid names ∧ AllValid names' :=
  List.forall_mem_append

section

variable {env : Environment} {n : Node} {name : String}

/-- A text is accepted if it is a valid name, and only as it is. -/
theorem accepted_iff {text : String} {f : String → α}
    (hf : ∀ {x y}, f x = f y → x = y) {d : Diagnostic} :
    (if isValidName text = true then pure (f text) else throw d : Reading α) env
        = .ok (f name)
      ↔ text = name ∧ isValidName name = true := by
  split
  · next hvalid =>
    constructor
    · intro h
      obtain rfl := hf (Except.ok.inj h)
      exact ⟨rfl, hvalid⟩
    · rintro ⟨rfl, -⟩
      rfl
  · next hvalid =>
    refine iff_of_false nofun ?_
    rintro ⟨rfl, hname⟩
    exact hvalid hname

/-- What an attribute is read as, if it is checked for a name. -/
theorem substituted_accepted_iff {attr : String} {f : String → α}
    (hf : ∀ {x y}, f x = f y → x = y) {d : Diagnostic} {none : Reading α}
    (hnone : none env ≠ .ok (f name)) :
    (substituted n attr >>= fun o =>
        match o with
        | .none => none
        | some text =>
          if isValidName text = true then pure (f text) else throw d) env
        = .ok (f name)
      ↔ substituted n attr env = .ok (some name) ∧ isValidName name = true := by
  change (substituted n attr env >>= _) = _ ↔ _
  cases substituted n attr env with
  | error d => exact iff_of_false nofun nofun
  | ok text =>
    cases text with
    | none => exact iff_of_false hnone nofun
    | some text =>
      refine (accepted_iff hf).trans (and_congr_left' ?_)
      exact ⟨fun h => by rw [h], fun h => Option.some.inj (Except.ok.inj h)⟩

theorem requiredName_eq_ok_iff : requiredName n env = .ok name
    ↔ substituted n "name" env = .ok (some name) ∧ isValidName name = true :=
  substituted_accepted_iff (f := id) (fun h => h) nofun

theorem identifier_eq_some_iff {attr : String} {reason : Reason} :
    identifier n attr reason env = .ok (some name)
      ↔ substituted n attr env = .ok (some name) ∧ isValidName name = true :=
  substituted_accepted_iff (fun h => Option.some.inj h) nofun

/-- A name that is read, if one is. -/
theorem valid_identifier {attr : String} {reason : Reason} :
    Results (fun o => AllValid o.toList) (identifier n attr reason env) := by
  intro o ho
  cases o with
  | none => exact allValid_nil
  | some name =>
    exact List.forall_mem_singleton.2 (identifier_eq_some_iff.1 ho).2

theorem valid_requiredName :
    Results (isValidName · = true) (requiredName n env) :=
  fun _ h => (requiredName_eq_ok_iff.1 h).2

/-- The variables that a loop binds. -/
def LoopSpec.names (spec : LoopSpec) : List String :=
  spec.name.toList ++ spec.index.toList

theorem results_reading {R : α → Prop} {S : β → Prop} {r : Reading α}
    {f : α → Reading β} (hr : Results R (r env))
    (hf : ∀ a, R a → Results S (f a env)) : Results S ((r >>= f) env) :=
  results_bind hr hf

/-- Whatever is read first. -/
theorem results_next {S : β → Prop} {r : Reading α} {f : α → Reading β}
    (hf : ∀ a, Results S (f a env)) : Results S ((r >>= f) env) :=
  results_after hf

theorem valid_loopSpec :
    Results (fun spec => AllValid spec.names) (loopSpec n env) := by
  refine results_reading valid_identifier fun name hname => ?_
  refine results_next fun _ => results_next fun _ => results_next fun _ => ?_
  refine results_next fun _ => results_reading valid_identifier ?_
  exact fun index hindex => results_ok (allValid_append.2 ⟨hname, hindex⟩)

theorem valid_interceptSpec :
    Results (fun spec => AllValid spec.2.toList) (interceptSpec n env) := by
  refine results_next fun tag => ?_
  cases tag with
  | none => exact results_error _
  | some tag =>
    exact results_reading valid_identifier fun capture h => results_ok h

/-- The names that intercepts capture elements under. -/
def captures (is : List (Intercept σ)) : List String :=
  is.filterMap Intercept.capture

theorem valid_intercepts (uri : String) (cs : List (Node × Run σ Unit)) :
    Results (fun is => AllValid (captures is)) (intercepts uri n cs env) := by
  induction cs with
  | nil => exact results_ok allValid_nil
  | cons c cs ih =>
    refine results_next fun b => ?_
    cases b with
    | false => exact ih
    | true =>
      refine results_reading valid_interceptSpec fun (tag, capture) h => ?_
      refine results_reading ih fun is his => results_ok ?_
      cases capture with
      | none => exact his
      | some name =>
        have hname := h name (List.mem_singleton.2 rfl)
        exact List.forall_mem_cons.2 ⟨hname, his⟩

end

-- ================================================================ bound names

/-- Every name that a scope binds is valid. -/
def Scopes.Named (scopes : Scopes) : Prop :=
  ∀ t ∈ scopes.all, AllValid (t.names.map Prod.fst)

namespace Scopes.Named

variable {scopes : Scopes}

theorem push (h : scopes.Named) (anchor : Node) : (scopes.push anchor).Named :=
  List.forall_mem_cons.2 ⟨allValid_nil, h⟩

theorem pop (h : scopes.Named) : scopes.pop.Named := by
  unfold Scopes.pop
  split
  · exact h
  · next ts hts =>
    unfold Scopes.Named Scopes.all at h
    rw [hts] at h
    exact (List.forall_mem_cons.1 h).2

theorem setBase (h : scopes.Named) (base : Option Url) :
    (scopes.setBase base).Named := by
  obtain ⟨hcurrent, houter⟩ := List.forall_mem_cons.1 h
  exact List.forall_mem_cons.2 ⟨hcurrent, houter⟩

/-- The innermost scope is changed to one that binds valid names. -/
theorem onCurrent (h : scopes.Named) {f : Scope → Except ScopeError Scope}
    (hf : ∀ t, AllValid (t.names.map Prod.fst) →
      Results (fun u => AllValid (u.names.map Prod.fst)) (f t)) :
    Results Scopes.Named (scopes.onCurrent f) := by
  obtain ⟨hcurrent, houter⟩ := List.forall_mem_cons.1 h
  intro scopes' hon
  obtain ⟨t, ht, rfl⟩ := onCurrent_ok hon
  exact List.forall_mem_cons.2 ⟨hf _ hcurrent t ht, houter⟩

end Scopes.Named

theorem valid_setVariable {t : Scope} (h : AllValid (t.names.map Prod.fst))
    {name : String} (hname : isValidName name = true) (v : Value) :
    Results (fun u => AllValid (u.names.map Prod.fst))
      (t.setVariable name v) := by
  intro u hu
  obtain ⟨-, rfl⟩ := Scope.bind_eq_ok hu
  refine List.forall_mem_map.2 fun e he => ?_
  rcases Expr.mem_enter he with rfl | he
  · exact hname
  · exact h e.1 (List.mem_map_of_mem he)

theorem valid_define {t : Scope} (h : AllValid (t.names.map Prod.fst))
    (name : String) (n : Node) :
    Results (fun u => AllValid (u.names.map Prod.fst)) (t.define name n) := by
  intro u hu
  obtain ⟨-, rfl⟩ := Scope.define_eq_ok hu
  exact h

-- ====================================================================== runs

/-- From scopes that bind valid names a run leads to such scopes, and what it
gives has the property. -/
structure Keeps (R : α → Prop) (x : Run σ α) : Prop where
  named {m : Machine σ} : m.scopes.Named → (after x m).scopes.Named
  given {m m' : Machine σ} {a : α} : x m = .ok a m' → R a

section

variable {R : α → Prop} {S : β → Prop} {x : Run σ α} {f : α → Run σ β}

theorem keeps_pure {a : α} (h : R a) : Keeps R (pure a : Run σ α) where
  named hm := hm
  given heq := by
    cases heq
    exact h

theorem keeps_fail (d : Diagnostic) : Keeps R (fail d : Run σ α) where
  named hm := hm
  given := nofun

theorem keeps_untouched (h : Within Untouched x) :
    Keeps (fun _ => True) x where
  named {m} hm := by
    rw [(h m).scopes]
    exact hm
  given _ := trivial

theorem keeps_bind (hx : Keeps R x) (hf : ∀ a, R a → Keeps S (f a)) :
    Keeps S (x >>= f) where
  named {m} hm := by
    have hfirst := hx.named hm
    cases h : x m with
    | ok a m' =>
      rw [after_ok h] at hfirst
      rw [after, bind_ok h]
      exact (hf a (hx.given h)).named hfirst
    | error e m' =>
      rw [after_error h] at hfirst
      rw [after_error (bind_error h)]
      exact hfirst
  given heq := by
    obtain ⟨a, m₁, hx₁, hf₁⟩ := exists_of_bind_ok heq
    exact (hf a (hx.given hx₁)).given hf₁

theorem keeps_next (hx : Keeps R x) (hf : ∀ a, Keeps S (f a)) :
    Keeps S (x >>= f) :=
  keeps_bind hx fun a _ => hf a

theorem keeps_state {f : Machine σ → Run σ β} (hf : ∀ m, Keeps S (f m)) :
    Keeps S (get >>= f) where
  named {m} hm := (hf m).named hm
  given {m} _ _ heq := (hf m).given heq

theorem keeps_modify {f : Machine σ → Machine σ}
    (hf : ∀ m, m.scopes.Named → (f m).scopes.Named) :
    Keeps (fun _ => True) (modify f : Run σ Unit) where
  named {m} hm := hf m hm
  given _ := trivial

theorem keeps_given {r : Reading α} (hr : ∀ env, Results R (r env)) :
    Keeps R (read r : Run σ α) where
  named {m} hm := by
    cases h : r m.scopes.environment with
    | ok a =>
      rw [after_ok (read_ok h)]
      exact hm
    | error d =>
      rw [after_error (read_error h)]
      exact hm
  given {m} _ a heq := by
    cases h : r m.scopes.environment with
    | ok b =>
      rw [read_ok h] at heq
      cases heq
      exact hr _ _ h
    | error d =>
      rw [read_error h] at heq
      cases heq

/-- Whatever is read. -/
theorem keeps_read {r : Reading α} (hf : ∀ a, Keeps S (f a)) :
    Keeps S (read r >>= f) :=
  keeps_next (keeps_given (R := fun _ => True) fun _ _ _ => trivial) hf

end

theorem keeps_onScope (n : Node) {f : Scope → Except ScopeError Scope}
    (hf : ∀ t, AllValid (t.names.map Prod.fst) →
      Results (fun u => AllValid (u.names.map Prod.fst)) (f t)) :
    Keeps (fun _ => True) (onScope n (·.onCurrent f) : Run σ Unit) where
  named {m} :=
    within_onScope (K := fun a b => a.scopes.Named → b.scopes.Named)
      (fun _ => id) n (fun _ _ h hm => hm.onCurrent hf _ h) m
  given _ := trivial

theorem keeps_bindVariable (n : Node) {name : String}
    (h : isValidName name = true) (v : Value) :
    Keeps (fun _ => True) (bindVariable n name v : Run σ Unit) :=
  keeps_onScope n fun _ ht => valid_setVariable ht h v

theorem keeps_bindOptional (n : Node) {name : Option String}
    (h : AllValid name.toList) (v : Value) :
    Keeps (fun _ => True) (bindOptional n name v : Run σ Unit) := by
  cases name with
  | none => exact keeps_pure trivial
  | some name =>
    exact keeps_bindVariable n (h name (List.mem_singleton.2 rfl)) v

theorem keeps_assignment (n : Node) :
    Keeps (fun _ => True) (assignment n : Run σ Unit) := by
  refine keeps_bind (keeps_given fun _ => valid_requiredName) fun name h => ?_
  split
  · exact keeps_fail _
  · split
    · exact keeps_fail _
    · exact keeps_read fun value => keeps_bindVariable n h value

theorem keeps_bindParams (s : Settings σ) (n : Node) (ns : List Node) :
    Keeps (fun _ => True) (bindParams s n ns) := by
  induction ns with
  | nil => exact keeps_pure trivial
  | cons child rest ih =>
    refine keeps_read fun b => ?_
    cases b with
    | true =>
      refine keeps_next (R := fun _ => True) ?_ fun _ => ih
      refine keeps_bind (keeps_given fun _ => valid_requiredName) fun _ h => ?_
      exact keeps_read fun value => keeps_bindVariable child h value
    | false => exact ih

theorem keeps_defineAll (s : Settings σ) (ns : List Node) :
    Keeps (fun _ => True) (defineAll s ns) := by
  have keeps_define (n : Node) :
      Keeps (fun _ => True) (define n : Run σ Unit) := by
    unfold define
    dsimp only
    split
    · exact keeps_onScope n fun _ ht => valid_define ht _ n
    · exact keeps_fail _
  induction ns with
  | nil => exact keeps_pure trivial
  | cons n ns ih =>
    rw [defineAll]
    split
    · exact keeps_next (keeps_define n) fun _ => ih
    · exact ih

-- ====================================================================== tasks

/-- The names that a task is going to bind, or ones that it leads to. -/
def Task.names : Task → List String
  | .each _ spec _ _ => spec.names
  | .whole _ name _ _ _ => name.toList
  | .floating _ name _ _ _ => name.toList
  | .copyTree is _ => captures is
  | .copyTrees is _ _ => captures is
  | _ => []

/-- All names that tasks are going to bind are valid. -/
def ValidTasks (ts : List Task) : Prop := ∀ t ∈ ts, AllValid t.names

theorem validTasks_append {ts us : List Task} :
    ValidTasks (ts ++ us) ↔ ValidTasks ts ∧ ValidTasks us :=
  List.forall_mem_append

theorem validTasks_nil : ValidTasks [] := List.forall_mem_nil _

theorem validTasks_cons {t : Task} {ts : List Task} (h : AllValid t.names)
    (hts : ValidTasks ts) : ValidTasks (t :: ts) :=
  List.forall_mem_cons.2 ⟨h, hts⟩

/-- One more task that binds nothing. -/
theorem ValidTasks.cons {ts : List Task} (hts : ValidTasks ts) {t : Task}
    (h : t.names = []) : ValidTasks (t :: ts) :=
  validTasks_cons (by rw [h]; exact allValid_nil) hts

/-- A task alone. -/
theorem validTasks_one {t : Task} (h : AllValid t.names) : ValidTasks [t] :=
  validTasks_cons h validTasks_nil

section

variable {s : Settings σ}

/-- The run expands to tasks that bind valid names. -/
abbrev Expanded (x : Run σ (List Task)) : Prop := Keeps ValidTasks x

/-- Tasks that bind valid names are put in place behind an action. -/
theorem expanded_action {x : Run σ Unit} {ts : List Task}
    (hx : Keeps (fun _ => True) x) (hts : ValidTasks ts) :
    Expanded (x >>= fun _ => pure ts) :=
  keeps_next hx fun _ => keeps_pure hts

theorem expanded_inScope (anchor : Node) {x : Run σ (List Task)}
    (h : Expanded x) : Expanded (tasksInScope anchor x) where
  -- either the tasks are left in the new scope, or it is left with the fault
  named {m} hm := by
    have hinner := h.named (m := { m with scopes := m.scopes.push anchor })
      (hm.push anchor)
    cases hx : x { m with scopes := m.scopes.push anchor } with
    | ok ts m' =>
      have hopened : tasksInScope anchor x m = .ok (ts ++ [.leave]) m' := by
        unfold tasksInScope
        rw [hx]
      rw [after_ok hx] at hinner
      rw [after_ok hopened]
      exact hinner
    | error e m' =>
      have hclosed : tasksInScope anchor x m
          = .error e { m' with scopes := m'.scopes.pop } := by
        unfold tasksInScope
        rw [hx]
      rw [after_error hx] at hinner
      rw [after_error hclosed]
      exact hinner.pop
  given {m} _ _ heq := by
    unfold tasksInScope at heq
    split at heq
    · next hx =>
      cases heq
      exact validTasks_append.2 ⟨h.given hx, validTasks_nil.cons rfl⟩
    · cases heq

theorem expanded_entered (n : Node) {t : Task} (h : t.names = []) :
    Expanded (entered n t : Run σ (List Task)) :=
  keeps_next (keeps_modify fun _ hm => hm) fun _ =>
    keeps_pure ((validTasks_nil.cons rfl).cons h)

theorem expanded_inclusion (n : Node) :
    Expanded (Task.inclusion n : Run σ (List Task)) := by
  refine keeps_read fun href => ?_
  cases href with
  | none => exact keeps_fail _
  | some href =>
    refine keeps_state fun m => ?_
    split
    · exact keeps_pure (validTasks_nil.cons rfl)
    · exact keeps_fail _

theorem expanded_included (n : Node) (href : String) :
    Expanded (Task.included s n href) := by
  refine keeps_state fun m => ?_
  split
  · exact keeps_fail _
  · next url _ =>
    refine keeps_next (keeps_untouched (untouched_load s url)) fun d => ?_
    split
    · exact keeps_fail _
    · split
      · exact keeps_fail _
      · next root _ =>
        refine expanded_inScope root ?_
        exact keeps_next (keeps_modify fun m hm => hm.setBase (some url))
          fun _ => expanded_entered n rfl

theorem expanded_call (n : Node) :
    Expanded (Task.call n : Run σ (List Task)) := by
  refine keeps_read fun name => keeps_state fun m => ?_
  split
  · exact keeps_fail _
  · split
    · exact expanded_inScope n (keeps_pure (validTasks_nil.cons rfl))
    · exact keeps_fail _

theorem expanded_condition (n : Node) :
    Expanded (Task.condition n : Run σ (List Task)) := by
  refine keeps_read fun test => ?_
  cases test with
  | none => exact keeps_fail _
  | some test =>
    refine keeps_read fun b => ?_
    split
    · exact expanded_inScope n (keeps_pure (validTasks_nil.cons rfl))
    · exact keeps_pure validTasks_nil

theorem expanded_loop (n : Node) :
    Expanded (Task.loop n : Run σ (List Task)) := by
  refine keeps_bind (keeps_given fun _ => valid_loopSpec) fun spec hspec => ?_
  have hname := (allValid_append.1 hspec).1
  refine keeps_read fun kind => ?_
  cases kind with
  | items values =>
    exact expanded_inScope n (keeps_pure (validTasks_one hspec))
  | range b =>
    dsimp only
    split
    · refine keeps_read fun r => ?_
      split
      · exact keeps_pure validTasks_nil
      · exact expanded_inScope n (keeps_pure (validTasks_one hname))
    · refine keeps_read fun r => ?_
      split
      · exact keeps_pure validTasks_nil
      · exact expanded_inScope n (keeps_pure (validTasks_one hname))

theorem expanded_copy (n : Node) : Expanded (Task.copy s n) := by
  refine keeps_read fun text => ?_
  cases text with
  | none => exact keeps_fail _
  | some text =>
    refine expanded_inScope n (keeps_read fun source => keeps_read fun b => ?_)
    refine keeps_bind (keeps_given fun _ => valid_intercepts s.uri _) ?_
    intro is his
    split
    · exact keeps_pure (validTasks_one his)
    · exact expanded_inScope source (keeps_pure (validTasks_one his))

theorem expanded_directive (n : Node) (d : Directive) :
    Expanded (Task.directive s n d) := by
  have nothing {x : Run σ Unit} (hx : Keeps (fun _ => True) x) :
      Expanded (x >>= fun _ => pure []) :=
    expanded_action hx validTasks_nil
  cases d with
  | failure => exact nothing (keeps_read fun _ => keeps_fail _)
  | doctype => exact nothing (keeps_untouched (untouched_doctype n))
  | inclusion => exact expanded_inclusion n
  | assignment => exact nothing (keeps_assignment n)
  | condition => exact expanded_condition n
  | switch => exact keeps_pure (validTasks_nil.cons rfl)
  | loop => exact expanded_loop n
  | call => exact expanded_call n
  | comment => exact keeps_pure validTasks_nil
  | copy => exact expanded_copy n
  | definition => exact keeps_pure validTasks_nil
  | _ => exact keeps_fail _

theorem expanded_literal (n : Node) : Expanded (Task.literal s n) := by
  unfold Task.literal
  split
  · exact keeps_pure validTasks_nil
  · refine keeps_read fun attributes => ?_
    exact expanded_action (keeps_untouched (untouched_send s _))
      ((validTasks_nil.cons rfl).cons rfl)

theorem expanded_element (n : Node) :
    Expanded (Task.expand s (.element n)) := by
  refine keeps_read fun b => ?_
  split
  · split
    · exact expanded_directive n _
    · exact expanded_literal n
  · exact keeps_pure validTasks_nil

theorem untouched_item (n : Node) (front back : Bool) :
    Within Untouched (item s n front back (pure ())) := by
  unfold item
  split
  · split <;> exact untouched_skip
  · unfold text
    split
    · exact untouched_skip
    · exact untouched_read fun _ => untouched_send s _
  · exact untouched_sendAll s _
  · exact untouched_skip

theorem expanded_nextItem (trim front : Bool) (parent : Node) (t : Tree)
    (ts : List Tree) :
    Expanded (Task.nextItem s trim front parent t ts) := by
  unfold Task.nextItem
  dsimp only
  split
  · exact keeps_pure (validTasks_nil.cons rfl)
  · split
    · exact keeps_pure validTasks_nil
    · unfold Task.item
      split
      · split
        · exact keeps_pure (validTasks_nil.cons rfl)
        · exact keeps_pure ((validTasks_nil.cons rfl).cons rfl)
      · exact expanded_action (keeps_untouched (untouched_item _ _ _))
          (validTasks_nil.cons rfl)

theorem expanded_copied {is : List (Intercept Unit)}
    (h : AllValid (captures is)) (source : Node) :
    Expanded (Task.copied s is source) := by
  unfold Task.copied
  split
  · split
    · next i hi =>
      have hcapture : AllValid i.capture.toList := by
        intro name hname
        refine h name (List.mem_filterMap.2 ⟨i, List.mem_of_find?_eq_some hi, ?_⟩)
        exact Option.mem_toList.1 hname
      refine expanded_inScope i.node ?_
      exact expanded_action (keeps_bindOptional i.node hcapture _)
        (validTasks_nil.cons rfl)
    · refine keeps_next (keeps_untouched (untouched_send s _)) fun _ => ?_
      refine keeps_bind ?_ fun ts hts =>
        keeps_pure (validTasks_append.2 ⟨hts, validTasks_nil.cons rfl⟩)
      exact expanded_inScope source (keeps_pure (validTasks_one h))
  · exact expanded_action (keeps_untouched (untouched_sendAll s _))
      validTasks_nil
  · exact expanded_action (keeps_untouched (untouched_send s _)) validTasks_nil
  · exact keeps_pure validTasks_nil

/-- A loop that is going to bind valid names does so in a pass, and in those that
are left. -/
theorem expanded_pass {n : Node} {t : Task} (ht : t.loop? = some n)
    (h : AllValid t.names) : Expanded (t.expand s) := by
  cases t with
  | each _ spec i vs =>
    cases ht
    cases vs with
    | nil => exact keeps_pure validTasks_nil
    | cons v vs =>
      obtain ⟨hname, hindex⟩ := allValid_append.1 h
      have hrest : ValidTasks [.each n spec (i + 1) vs] := validTasks_one h
      refine keeps_next (keeps_bindOptional n hname v) fun _ => ?_
      exact expanded_action (keeps_bindOptional n hindex _) (hrest.cons rfl)
  | whole _ name step k i =>
    cases ht
    cases k with
    | zero => exact keeps_pure validTasks_nil
    | succ k =>
      have hrest : ValidTasks [.whole n name step k (i + step)] :=
        validTasks_one h
      exact expanded_action (keeps_bindOptional n h _) (hrest.cons rfl)
  | floating _ name r up x =>
    cases ht
    have hrest : ValidTasks [.floating n name r up (r.next up x)] :=
      validTasks_one h
    refine keeps_next (keeps_bindOptional n h _) fun _ => ?_
    show Keeps _ (if r.isInside up (r.next up x) then _ else _)
    split
    · exact keeps_pure (hrest.cons rfl)
    · exact keeps_pure (validTasks_nil.cons rfl)
  | _ => cases ht

/-- A task that is going to bind valid names binds valid names and leaves such
tasks. -/
theorem expanded_expand {t : Task} (h : AllValid t.names) :
    Expanded (t.expand s) := by
  cases t with
  | execute n =>
    show Expanded (Task.root s n)
    unfold Task.root
    split <;> exact keeps_pure (validTasks_nil.cons rfl)
  | element n => exact expanded_element n
  | contents trim n =>
    exact expanded_action (keeps_defineAll s n.children)
      (validTasks_nil.cons rfl)
  | items trim front parent ts =>
    cases ts with
    | nil => exact keeps_pure validTasks_nil
    | cons t ts => exact expanded_nextItem trim front parent t ts
  | cases n ts =>
    cases ts with
    | nil => exact keeps_pure validTasks_nil
    | cons t ts =>
      refine keeps_read fun b => ?_
      split
      · exact expanded_inScope _ (keeps_pure (validTasks_nil.cons rfl))
      · exact keeps_pure (validTasks_nil.cons rfl)
  | each | whole | floating => exact expanded_pass rfl h
  | fetch n href => exact expanded_included n href
  | invoke n body =>
    exact keeps_next (keeps_bindParams s n n.children) fun _ =>
      expanded_entered n rfl
  | copyTree is source => exact expanded_copied h source
  | copyTrees is parent ts =>
    cases ts with
    | nil => exact keeps_pure validTasks_nil
    | cons t ts => exact keeps_pure (validTasks_cons h (validTasks_one h))
  | send e =>
    exact expanded_action (keeps_untouched (untouched_send s e)) validTasks_nil
  | leave =>
    exact expanded_action (keeps_modify fun _ hm => hm.pop) validTasks_nil
  | close n =>
    exact expanded_action (keeps_modify fun _ hm => hm) validTasks_nil

end

-- ================================================================== processing

/-- The names that are bound are valid, and so are those that are going to
be. -/
structure Progress.Named (c : Progress σ) : Prop where
  scopes : c.machine.scopes.Named
  tasks : ValidTasks c.work

theorem named_undo {m : Machine σ} (h : m.scopes.Named) (t : Task) :
    (t.undo m).scopes.Named := by
  cases t with
  | leave => exact h.pop
  | _ => exact h

theorem named_step {s : Settings σ} {c : Progress σ} (h : c.Named) :
    (step s c).Named := by
  obtain ⟨work, stop, m⟩ := c
  cases work with
  | nil => exact h
  | cons t rest =>
    obtain ⟨ht, hrest⟩ := List.forall_mem_cons.1 h.tasks
    cases stop with
    | some e => exact ⟨named_undo h.scopes t, hrest⟩
    | none =>
      have expanded := expanded_expand (s := s) ht
      have hscopes := expanded.named h.scopes
      cases hexpand : t.expand s m with
      | ok ts m' =>
        rw [after_ok hexpand] at hscopes
        rw [step_ok hexpand]
        exact ⟨hscopes, validTasks_append.2 ⟨expanded.given hexpand, hrest⟩⟩
      | error e m' =>
        rw [after_error hexpand] at hscopes
        rw [step_error hexpand]
        exact ⟨hscopes, hrest⟩

theorem named_progress (s : Settings σ) (n : Node) {m : Machine σ}
    (h : m.scopes.Named) (k : Nat) : (progress s n m k).Named := by
  induction k with
  | zero => exact ⟨h, validTasks_nil.cons rfl⟩
  | succ k ih =>
    rw [progress_succ]
    exact named_step ih

/-- What is bound where names are valid is what its name evaluates to. -/
theorem Scopes.Named.evaluate {scopes : Scopes} (h : scopes.Named)
    {name : String} {v : Value} (hv : scopes.value? name = some v) :
    Expr.parse name = .ok (.variable name)
      ∧ Expr.evaluate scopes.environment name = .ok v := by
  obtain ⟨t, ht, htv⟩ := List.exists_of_findSome?_eq_some hv
  obtain ⟨b, hb, -⟩ := Option.map_eq_some_iff.1 htv
  have hvalid : isValidName name = true :=
    h t ht name (List.mem_map_of_mem (mem_of_lookup hb))
  exact ⟨Expr.parse_of_isValidName hvalid,
    Expr.evaluate_of_isValidName hvalid hv⟩

end Stencil.Template
