/-
The keys of maps that come from outside.

The readers of files enter what they read under its keys, objects of JSON at every
depth; other sources have no maps. So the keys of maps differ in all that the
command line binds (`distinct_bindings`).
-/
import Stencil.Command.Run
import Stencil.Proofs.Expr.Keys

-- ======================================================================== JSON

namespace Stencil.Binding.Json

open Stencil.Expr (Reader Value distinct_array distinct_map nodup_enterAll
  mem_enterAll)

variable {α β γ : Type} {R : α → Prop} {S : β → Prop}

/-- If something is read, then with the property. -/
def Yields (R : α → Prop) (o : Option (α × List Char)) : Prop :=
  ∀ x r, o = some (x, r) → R x

theorem yields_some {x : α} (h : R x) (r : List Char) :
    Yields R (some (x, r)) := by
  intro x' r' heq
  cases heq
  exact h

theorem yields_orElse {o o' : Option (α × List Char)} (h : Yields R o)
    (h' : Yields R o') : Yields R (o <|> o') := by
  cases o with
  | none => exact h'
  | some x => exact h

theorem yields_bind {o : Option γ} {f : γ → Option (α × List Char)}
    (h : ∀ y, o = some y → Yields R (f y)) : Yields R (o >>= f) := by
  cases o with
  | none => nofun
  | some y => exact h y rfl

theorem yields_map {o : Option (α × List Char)} {f : α → β} (h : Yields R o)
    (hf : ∀ x, R x → S (f x)) :
    Yields S (o.map fun (x, r) => (f x, r)) := by
  cases o with
  | none => nofun
  | some x => exact yields_some (hf _ (h _ _ rfl)) _

/-- A word stands for one thing. -/
theorem yields_word {x : α} (h : R x) (o : Option (List Char)) :
    Yields R (o.map fun r => (x, r)) := by
  cases o with
  | none => nofun
  | some r => exact yields_some h r

theorem yields_readRest {item : Reader α} (h : ∀ s, Yields R (item s))
    (closing : Char) (s : List Char) :
    Yields (∀ x ∈ ·, R x) (readRest closing item s) := by
  fun_induction readRest closing item s with
  | case1 s r hs => exact yields_some (List.forall_mem_nil _) r
  | case2 s hs hitem => nofun
  | case3 s hs x r hitem hlt ih =>
    obtain ⟨r', -, hx⟩ := Option.bind_eq_some_iff.1 hitem
    exact yields_map ih fun xs hxs =>
      List.forall_mem_cons.2 ⟨h r' x r hx, hxs⟩
  | case4 s hs x r hitem hle => nofun

theorem yields_readList {item : Reader α} (h : ∀ s, Yields R (item s))
    (opening closing : Char) (s : List Char) :
    Yields (∀ x ∈ ·, R x) (readList opening closing item s) := by
  refine yields_bind fun r _ => ?_
  split
  · exact yields_some (List.forall_mem_nil _) _
  · refine yields_bind ?_
    rintro ⟨x, r'⟩ hx
    refine yields_bind ?_
    rintro ⟨xs, r''⟩ hxs
    exact yields_some (List.forall_mem_cons.2
      ⟨h _ _ _ hx, yields_readRest h closing _ _ _ hxs⟩) r''

theorem simple_readScalar (s : List Char) :
    Yields Value.Simple (readScalar s) := by
  refine yields_orElse (yields_word trivial _) ?_
  refine yields_orElse (yields_word trivial _) ?_
  refine yields_orElse (yields_word trivial _) ?_
  refine yields_orElse
    (yields_map (R := fun _ => True) (fun _ _ _ => trivial) fun _ _ => trivial)
    (yields_bind ?_)
  rintro ⟨p, r⟩ -
  refine yields_bind fun v hv => yields_some ?_ r
  unfold Parts.value? at hv
  dsimp only at hv
  split at hv
  · cases hv
    trivial
  · obtain ⟨f, -, rfl⟩ := Option.map_eq_some_iff.1 hv
    trivial

theorem distinct_readValue (depth : Nat) (s : List Char) :
    Yields Value.Distinct (readValue depth s) := by
  have scalar (s : List Char) : Yields Value.Distinct (readScalar s) :=
    fun v r h => (simple_readScalar s v r h).distinct
  induction depth generalizing s with
  | zero => exact scalar _
  | succ depth ih =>
    have entry (s : List Char) :
        Yields (fun e => e.2.Distinct) (readEntry (readValue depth) s) := by
      refine yields_bind ?_
      rintro ⟨k, _⟩ -
      refine yields_bind fun _ _ => yields_bind ?_
      rintro ⟨v, r⟩ hv
      exact yields_some (x := (k, v)) (ih _ _ _ hv) r
    refine yields_orElse (scalar _) (yields_orElse ?_ ?_)
    · exact yields_map (yields_readList ih _ _ _) fun vs => distinct_array
    · exact yields_map (yields_readList entry _ _ _) fun es hes =>
        distinct_map (nodup_enterAll es) fun e he => hes e (mem_enterAll e he)

theorem distinct_read {text : String} {v : Value} (h : read? text = some v) :
    v.Distinct := by
  unfold read? at h
  split at h
  · next hread =>
    split at h
    · cases h
      exact distinct_readValue depthLimit _ _ _ hread
    · cases h
  · cases h

end Stencil.Binding.Json

-- ================================================================ command line

namespace Stencil.Command

open Stencil.Expr (Value Results results_ok results_error results_after
  distinct_texts nodup_enterAll)
open Template (Processor)

theorem distinct_properties (text : String) :
    (Binding.Properties.read text).Distinct := by
  refine distinct_texts ?_ ?_
  · rw [List.map_map]
    exact nodup_enterAll _
  · exact List.forall_mem_map.2 fun _ _ => rfl

theorem simple_argument (text : String) :
    (Binding.Argument.read text).Simple := by
  unfold Binding.Argument.read
  dsimp only
  split
  · trivial
  · split
    · trivial
    · split
      · trivial
      · split
        · trivial
        · split <;> trivial

theorem exists_definition (text : String) :
    ∃ v, (definition text).2 = .value v ∧ v.Simple := by
  unfold definition
  split
  · exact ⟨_, rfl, simple_argument _⟩
  · exact ⟨_, rfl, trivial⟩

theorem distinct_rootElement (p : Processor) (base : Url) (href : String) :
    Results (fun r => r.1.Distinct) (rootElement p base href) := by
  refine results_after fun url => ?_
  split
  · exact results_error _
  · next d _ _ =>
    cases d.rootElement? <;> exact results_ok (Value.Simple.distinct trivial)

/-- The keys of maps differ in all that the command line binds. -/
theorem distinct_bindings (a : Arguments) (p : Processor) (base : Url) :
    ∀ b ∈ bindings a,
      Results (fun r => r.1.Distinct) (b.2.value? p base) := by
  intro b hb
  unfold bindings at hb
  simp only [List.mem_append, List.mem_map] at hb
  rcases hb with ((⟨e, -, rfl⟩ | ⟨e, -, rfl⟩) | ⟨e, -, rfl⟩) | ⟨text, -, rfl⟩
  · exact distinct_rootElement p base e.2
  · refine results_after fun fetched => ?_
    dsimp only
    split
    · next hv => exact results_ok (Binding.Json.distinct_read hv)
    · exact results_error _
  · exact results_after fun fetched => results_ok (distinct_properties _)
  · obtain ⟨v, hv, hsimple⟩ := exists_definition text
    rw [hv]
    exact results_ok hsimple.distinct

end Stencil.Command
