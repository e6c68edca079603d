/-
Where the output of a template comes from.

Without copies, every element that a run writes is a literal element of a
template, with those of its attributes that are kept. An emission is output
that still has these: its pieces are what is sent, its elements say where it
comes from. A run `Renders` if, when it succeeds, it sends the pieces of
emissions whose elements are all known: as long as what it loads is known, and
the macros of the machine are.
-/
import Stencil.Output.Fragment
import Stencil.Proofs.Markup.Preorder
import Stencil.Proofs.Output.Delivery
import Stencil.Proofs.Template.Loaded

namespace Stencil.Template

open Stencil.Expr (Value)
open Markup (Attribute Content Element Node Origin Tree)
open Output (Event Piece forestEvents forestEvents_append)

-- =============================================================== emissions

/-- An element as a template writes it: with the attributes that it keeps, and
the values that these come out with. -/
structure Emitted where
  element : Element
  kept : List (Attribute × String)

/-- An attribute as it is written. -/
def writtenAs (kept : Attribute × String) : String × String :=
  (kept.1.name.text, kept.2)

/-- The attributes as they are written. -/
def Emitted.attributes (x : Emitted) : List (String × String) :=
  x.kept.map writtenAs

/-- Output that knows its literal elements. -/
inductive Emission where
  | element (x : Emitted) (contents : List Emission)
  | text (s : String)
  | cdata (s : String)
  | doctype (name : String) (publicId systemId : Option String)

mutual

/-- An emission as it is sent. -/
def Emission.piece : Emission → Piece
  | .element x contents =>
    .element (.ofElement x.element) x.attributes (pieces contents)
  | .text s => .text s
  | .cdata s => .cdata s
  | .doctype name publicId systemId => .doctype name publicId systemId

def pieces : List Emission → List Piece
  | [] => []
  | em :: ems => em.piece :: pieces ems

end

mutual

/-- The elements of an emission in document order. -/
def Emission.elements : Emission → List Emitted
  | .element x contents => x :: allElements contents
  | _ => []

def allElements : List Emission → List Emitted
  | [] => []
  | em :: ems => em.elements ++ allElements ems

end

theorem pieces_append (ems fms : List Emission) :
    pieces (ems ++ fms) = pieces ems ++ pieces fms := by
  induction ems with
  | nil => rfl
  | cons em ems ih => rw [List.cons_append, pieces, pieces, ih, List.cons_append]

theorem allElements_append (ems fms : List Emission) :
    allElements (ems ++ fms) = allElements ems ++ allElements fms := by
  induction ems with
  | nil => rfl
  | cons em ems ih =>
    rw [List.cons_append, allElements, allElements, ih, List.append_assoc]

-- ============================================================== provenance

/-- An attribute as a literal element keeps it: with its value, unless it is
reserved or comes out empty. -/
def kept? (uri : String) (env : Expr.Environment) (a : Attribute) :
    Option (Attribute × String) :=
  if isReserved uri a then none
  else
    match Expr.substitute env a.value with
    | .ok value => if value.isEmpty then none else some (a, value)
    | .error _ => none

theorem fst_of_kept {uri : String} {env : Expr.Environment} {a : Attribute}
    {k : Attribute × String} (h : kept? uri env a = some k) : k.1 = a := by
  unfold kept? at h
  split at h
  · cases h
  · split at h
    · split at h
      · cases h
      · cases h
        rfl
    · cases h

/-- The attributes that a literal element keeps. -/
def keptAttributes (uri : String) (env : Expr.Environment)
    (attributes : List Attribute) : List (Attribute × String) :=
  attributes.filterMap (kept? uri env)

theorem literalAttributes_kept {uri : String} {n : Node}
    {attributes : List Attribute} {env : Expr.Environment}
    {raw : List (String × String)}
    (h : literalAttributes uri n attributes env = .ok raw) :
    raw = (keptAttributes uri env attributes).map writtenAs := by
  induction attributes generalizing raw with
  | nil =>
    cases h
    rfl
  | cons a rest ih =>
    unfold keptAttributes
    rw [List.filterMap_cons, kept?]
    rw [literalAttributes] at h
    cases hreserved : isReserved uri a with
    | true =>
      rw [hreserved] at h
      exact ih h
    | false =>
      rw [hreserved] at h
      obtain ⟨value, hvalue, h⟩ := exists_of_reading_ok h
      obtain ⟨others, hrest, h⟩ := exists_of_reading_ok h
      have hvalue : Expr.substitute env a.value = .ok value :=
        mapError_eq_ok hvalue
      -- it is kept if its value is not empty, in front of those that follow
      have h : (if value.isEmpty then others
        else (a.name.text, value) :: others) = raw := Except.ok.inj h
      rw [← h, ih hrest, hvalue, if_neg Bool.false_ne_true]
      dsimp only
      cases value.isEmpty <;> rfl

/-- The element is a literal one of a template whose nodes have contents of
which `P` holds, and keeps its attributes as they come out somewhere. -/
structure Emitted.Stems (P : Content → Prop) (uri : String) (x : Emitted) :
    Prop where
  known : P (.element x.element)
  literal : x.element.uri = some uri →
    Directive.ofName? x.element.name.localPart = none
  kept : ∃ env, x.kept = keptAttributes uri env x.element.attributes

/-- No element that is known is a copy. -/
def Copyless (uri : String) (P : Content → Prop) : Prop :=
  ∀ e, P (.element e) → e.uri = some uri →
    Directive.ofName? e.name.localPart ≠ some .copy

-- ===================================================================== runs

variable {σ : Type} {s : Settings σ} {P : Content → Prop} {x y : Run σ Unit}

/-- The macros of a machine are known. -/
def Knows (P : Content → Prop) (m : Machine σ) : Prop :=
  ∀ scope ∈ m.scopes.all, ∀ x ∈ scope.macros, x.2.tree.Throughout P

/-- The documents of a machine are known. -/
def Cached (P : Content → Prop) (m : Machine σ) : Prop :=
  ∀ entry ∈ m.cache.entries, entry.2.Throughout P

/-- If the run succeeds, and the documents that it then has are known, what it
sends stems from what is known. -/
structure Renders (s : Settings σ) (P : Content → Prop) (x : Run σ Unit) :
    Prop where
  loads : Within Loads x
  sends : ∀ m m', Knows P m → Cached P m' → x m = .ok () m' → Knows P m'
    ∧ ∃ ems, (∀ x ∈ allElements ems, x.Stems P s.uri)
      ∧ s.sink.deliver m.output (forestEvents (pieces ems)) = (m'.output, none)

/-- If the run succeeds, it has sent nothing, and its result is as said. -/
structure Finds {α : Type} (P : Content → Prop) (r : Run σ α) (Q : α → Prop) :
    Prop where
  loads : Within Loads r
  finds : ∀ m a m', Knows P m → Cached P m' → r m = .ok a m' →
    Knows P m' ∧ m'.output = m.output ∧ Q a

/-- What is known of the documents at the end is known of those before. -/
theorem Cached.before {α : Type} {r : Run σ α} {m m' : Machine σ} {a : α}
    (hc : Cached P m') (hr : Within Loads r) (h : r m = .ok a m') :
    Cached P m := by
  have hloads := hr m
  rw [after_ok h] at hloads
  exact fun entry he => hc entry (hloads.kept he)

theorem renders_seq (hx : Renders s P x) (hy : Renders s P y) :
    Renders s P (x >>= fun _ => y) := by
  refine ⟨loads_bind hx.loads fun _ => hy.loads, fun m m' hm hc h => ?_⟩
  obtain ⟨_, m₁, hm₁, h⟩ := exists_of_bind_ok h
  obtain ⟨hk₁, ems, hems, hd⟩ := hx.sends m m₁ hm (hc.before hy.loads h) hm₁
  obtain ⟨hk, fms, hfms, hd'⟩ := hy.sends m₁ m' hk₁ hc h
  refine ⟨hk, ems ++ fms, ?_, ?_⟩
  · rw [allElements_append]
    exact List.forall_mem_append.2 ⟨hems, hfms⟩
  · rw [pieces_append, forestEvents_append,
      Output.Sink.deliver_append_of_accepted hd]
    exact hd'

/-- A result is used; that what uses it only loads is to be known of any. -/
theorem renders_found {α : Type} {r : Run σ α} {Q : α → Prop}
    {f : α → Run σ Unit} (hr : Finds P r Q) (hl : ∀ a, Within Loads (f a))
    (hf : ∀ a, Q a → Renders s P (f a)) : Renders s P (r >>= f) := by
  refine ⟨loads_bind hr.loads hl, fun m m' hm hc h => ?_⟩
  obtain ⟨a, m₁, hm₁, h⟩ := exists_of_bind_ok h
  obtain ⟨hk₁, hout, ha⟩ := hr.finds m a m₁ hm (hc.before (hl a) h) hm₁
  obtain ⟨hk, ems, hems, hd⟩ := (hf a ha).sends m₁ m' hk₁ hc h
  exact ⟨hk, ems, hems, hout ▸ hd⟩

theorem renders_quiet (hx : Finds P x fun _ => True) : Renders s P x := by
  refine ⟨hx.loads, fun m m' hm hc h => ?_⟩
  obtain ⟨hk, hout, -⟩ := hx.finds m () m' hm hc h
  exact ⟨hk, [], nofun, by rw [hout]; rfl⟩

theorem renders_skip : Renders s P (pure ()) := by
  refine renders_quiet ⟨loads_nothing fun _ => rfl, fun m a m' hm _ h => ?_⟩
  cases h
  exact ⟨hm, rfl, trivial⟩

/-- A run that never succeeds. -/
theorem renders_stop {e : Stop} : Renders s P (throw e) := by
  refine ⟨loads_nothing fun _ => rfl, fun m m' _ _ h => ?_⟩
  cases h

theorem renders_fail {d : Diagnostic} : Renders s P (fail d) := renders_stop

theorem renders_read {α : Type} {r : Reading α} {f : α → Run σ Unit}
    (hf : ∀ env a, r env = .ok a → Renders s P (f a)) :
    Renders s P (read r >>= f) := by
  refine ⟨within_read .refl fun env a h => (hf env a h).loads,
    fun m m' hm hc h => ?_⟩
  obtain ⟨a, hr, h⟩ := exists_of_read_ok h
  exact (hf _ a hr).sends m m' hm hc h

theorem renders_get {f : Machine σ → Run σ Unit}
    (hl : Within Loads (get >>= f))
    (hf : ∀ m, Knows P m → Renders s P (f m)) : Renders s P (get >>= f) :=
  ⟨hl, fun m m' hm hc h => (hf m hm).sends m m' hm hc h⟩

-- ================================================================== scopes

theorem renders_onScope {n : Node} {f : Scopes → Except ScopeError Scopes}
    (hf : ∀ scopes scopes', f scopes = .ok scopes' →
      ∀ scope' ∈ scopes'.all, ∀ x ∈ scope'.macros,
        (∃ scope ∈ scopes.all, x ∈ scope.macros) ∨ x.2.tree.Throughout P) :
    Renders s P (onScope n f) := by
  refine renders_quiet ⟨loads_onScope n f, fun m a m' hm _ h => ?_⟩
  obtain ⟨scopes, hscopes, rfl⟩ := onScope_ok h
  refine ⟨fun scope' hscope' x hx => ?_, rfl, trivial⟩
  rcases hf m.scopes scopes hscopes scope' hscope' x hx with
    ⟨scope, hscope, hx⟩ | hx
  · exact hm scope hscope x hx
  · exact hx

theorem renders_bindVariable (n : Node) (name : String) (v : Value) :
    Renders s P (bindVariable n name v) := by
  refine renders_onScope fun scopes scopes' h scope' hscope' x hx => .inl ?_
  obtain ⟨current, hcurrent, rfl⟩ := onCurrent_ok h
  rcases List.mem_cons.1 hscope' with rfl | hscope'
  · obtain ⟨-, rfl⟩ := Scope.bind_eq_ok hcurrent
    exact ⟨scopes.current, List.mem_cons_self, hx⟩
  · exact ⟨scope', List.mem_cons_of_mem _ hscope', hx⟩

theorem renders_optional (n : Node) (name : Option String) (v : Value) :
    Renders s P (bindOptional n name v) := by
  cases name with
  | none => exact renders_skip
  | some name => exact renders_bindVariable n name v

theorem renders_define {n : Node} (hn : n.tree.Throughout P) :
    Renders s P (define n) := by
  unfold define
  dsimp only
  split
  · refine renders_onScope fun scopes scopes' h scope' hscope' x hx => ?_
    obtain ⟨current, hcurrent, rfl⟩ := onCurrent_ok h
    rcases List.mem_cons.1 hscope' with rfl | hscope'
    · obtain ⟨-, rfl⟩ := Scope.define_eq_ok hcurrent
      rcases List.mem_cons.1 hx with rfl | hx
      · exact .inr hn
      · exact .inl ⟨scopes.current, List.mem_cons_self, hx⟩
    · exact .inl ⟨scope', List.mem_cons_of_mem _ hscope', hx⟩
  · exact renders_fail

theorem renders_defineAll {ns : List Node}
    (hns : ∀ n ∈ ns, n.tree.Throughout P) : Renders s P (defineAll s ns) := by
  induction ns with
  | nil => exact renders_skip
  | cons n ns ih =>
    obtain ⟨hn, hns⟩ := List.forall_mem_cons.1 hns
    unfold defineAll
    split
    · exact renders_seq (renders_define hn) (ih hns)
    · exact renders_seq renders_skip (ih hns)

/-- A change of the machine that is undone behind the run. -/
theorem renders_between {enter leave : Machine σ → Machine σ}
    (hin : ∀ m, Knows P m → Knows P (enter m))
    (hout : ∀ m, Knows P m → Knows P (leave m))
    (henter : ∀ m, (enter m).output = m.output ∧ (enter m).cache = m.cache)
    (hleave : ∀ m, (leave m).output = m.output ∧ (leave m).cache = m.cache)
    (hx : Renders s P x) : Renders s P (between enter leave x) := by
  refine ⟨loads_between (fun m => (henter m).2) (fun m => (hleave m).2) hx.loads,
    fun m m' hm hc h => ?_⟩
  unfold between at h
  cases hrun : x (enter m) with
  | error e m₁ =>
    rw [hrun] at h
    cases h
  | ok a m₁ =>
    rw [hrun] at h
    cases h
    unfold Cached at hc
    rw [(hleave m₁).2] at hc
    obtain ⟨hk, ems, hems, hd⟩ := hx.sends _ _ (hin m hm) hc hrun
    rw [(henter m).1] at hd
    exact ⟨hout _ hk, ems, hems, by rw [(hleave m₁).1]; exact hd⟩

theorem renders_inScope (n : Node) (hx : Renders s P x) :
    Renders s P (inScope n x) := by
  refine renders_between (fun m hm scope hscope => ?_)
    (fun m hm scope hscope => ?_) (fun _ => ⟨rfl, rfl⟩) (fun _ => ⟨rfl, rfl⟩) hx
  · rcases List.mem_cons.1 hscope with rfl | hscope
    · exact nofun
    · exact hm scope hscope
  · obtain ⟨⟨current, outer⟩, nesting, cache, output⟩ := m
    cases outer with
    | nil => exact hm scope hscope
    | cons t ts => exact hm scope (List.mem_cons_of_mem _ hscope)

theorem renders_nested (hx : Renders s P x) : Renders s P (nested x) :=
  renders_between (fun _ hm => hm) (fun _ hm => hm) (fun _ => ⟨rfl, rfl⟩)
    (fun _ => ⟨rfl, rfl⟩) hx

theorem renders_setBase (base : Option Url) :
    Renders s P (setBase base) := by
  refine renders_quiet ⟨loads_nothing fun _ => rfl, fun m a m' hm _ h => ?_⟩
  cases h
  refine ⟨fun scope hscope => ?_, rfl, trivial⟩
  rcases List.mem_cons.1 hscope with rfl | hscope
  · exact hm m.scopes.current List.mem_cons_self
  · exact hm scope (List.mem_cons_of_mem _ hscope)

-- ================================================================== output

theorem send_ok {e : Event} {m m' : Machine σ} (h : send s e m = .ok () m') :
    s.sink.send m.output e = (m'.output, none)
      ∧ m' = { m with output := m'.output } := by
  unfold send at h
  rcases hsend : s.sink.send m.output e with ⟨o, _ | error⟩
  · rw [hsend] at h
    cases h
    exact ⟨rfl, rfl⟩
  · rw [hsend] at h
    cases h

theorem sendAll_ok {es : List Event} {m m' : Machine σ}
    (h : sendAll s es m = .ok () m') :
    s.sink.deliver m.output es = (m'.output, none)
      ∧ m' = { m with output := m'.output } := by
  induction es generalizing m with
  | nil =>
    cases h
    exact ⟨rfl, rfl⟩
  | cons e es ih =>
    obtain ⟨_, m₁, hsend, h⟩ := exists_of_bind_ok h
    obtain ⟨hsend, hm₁⟩ := send_ok hsend
    obtain ⟨hrest, hm'⟩ := ih h
    rw [Output.Sink.deliver_cons_of_accepted hsend]
    refine ⟨hrest, ?_⟩
    rw [hm₁] at hm'
    exact hm'

/-- A leaf of the output. -/
theorem renders_leaf (em : Emission) {es : List Event}
    (hnone : em.elements = []) (hes : em.piece.events = es) :
    Renders s P (sendAll s es) := by
  refine ⟨loads_sendAll s es, fun m m' hm _ h => ?_⟩
  obtain ⟨hd, hm'⟩ := sendAll_ok h
  refine ⟨by rw [hm']; exact hm, [em], ?_, ?_⟩
  · rw [allElements, hnone]
    exact nofun
  · rw [pieces, pieces, forestEvents, forestEvents, List.append_nil, hes]
    exact hd

theorem renders_characters (data : String) :
    Renders s P (send s (.characters data)) := by
  have hleaf := renders_leaf (s := s) (P := P) (.text data) rfl rfl
  refine ⟨loads_send s _, fun m m' hm hc h => hleaf.sends m m' hm hc ?_⟩
  show (send s (.characters data) >>= fun _ => sendAll s []) m = _
  rw [bind_ok h]
  rfl

/-- A literal element with its contents. -/
theorem renders_enclosed {x : Emitted} (hx : x.Stems P s.uri)
    (hy : Renders s P y) :
    Renders s P (do
      send s (.start (.ofElement x.element) x.attributes)
      y
      send s (.stop (.ofElement x.element))) := by
  refine ⟨loads_bind (loads_send s _) fun _ =>
    loads_bind hy.loads fun _ => loads_send s _, fun m m' hm hc h => ?_⟩
  obtain ⟨_, m₁, hstart, h⟩ := exists_of_bind_ok h
  obtain ⟨_, m₂, hinside, hlast⟩ := exists_of_bind_ok h
  obtain ⟨hstart, hm₁⟩ := send_ok hstart
  obtain ⟨hstop, hm₂⟩ := send_ok hlast
  -- sending a start changes none of the scopes, so what is known stays known
  have hk₁ : Knows P m₁ := by
    rw [hm₁]
    exact hm
  obtain ⟨hk₂, ems, hems, hd⟩ := hy.sends m₁ m₂ hk₁
    (hc.before (loads_send s _) hlast) hinside
  refine ⟨by rw [hm₂]; exact hk₂, [.element x ems], ?_, ?_⟩
  · rw [allElements, Emission.elements]
    simpa [allElements] using ⟨hx, hems⟩
  · have hevents : forestEvents (pieces [.element x ems])
        = .start (.ofElement x.element) x.attributes
          :: (forestEvents (pieces ems) ++ [.stop (.ofElement x.element)]) := by
      simp [pieces, Emission.piece, forestEvents, Piece.events]
    rw [hevents, Output.Sink.deliver_cons_of_accepted hstart,
      Output.Sink.deliver_append_of_accepted hd,
      Output.Sink.deliver_cons_of_accepted hstop]
    rfl

end Stencil.Template
