/-
Switches.

The children of a switch are looked at in order. Comments and white space are
passed over, and so are elements whose guard does not hold and cases whose test
is false. The first case that is left is processed, in a scope of its own, and
nothing behind it is looked at (`switch_one_case`).
-/
import Stencil.Proofs.Output.Delivery
import Stencil.Proofs.Template.Guard
import Stencil.Proofs.Template.Transplanting

namespace Stencil.Template

open Markup (Label Node Origin Tree)

variable {σ : Type}

-- ================================================================== children

/-- A child of a switch that is passed over with the names in scope. -/
inductive PassedOver (s : Settings σ) (m : Machine σ) (child : Node) : Prop
  | blank (hother : child.isElement = false)
    (hblank : child.isInsignificant = true)
  | excluded (h : Excluded s m child)
  | failed (test : String)
    (hcase : Directive.ofNode? s.uri child = some .case)
    (hincluded : included s.uri child m.scopes.environment = .ok true)
    (htest : substituted child "test" m.scopes.environment = .ok (some test))
    (hfalse : truth child test m.scopes.environment = .ok false)

/-- An included case without a test, with one that comes out empty, or with one
that is true. -/
structure Chosen (s : Settings σ) (m : Machine σ) (child : Node) : Prop where
  isCase : Directive.ofNode? s.uri child = some .case
  included : included s.uri child m.scopes.environment = .ok true
  holds : substituted child "test" m.scopes.environment = .ok none
    ∨ ∃ test, substituted child "test" m.scopes.environment = .ok (some test)
      ∧ truth child test m.scopes.environment = .ok true

section

variable {s : Settings σ} {inner : Option (Inner σ)} {m : Machine σ}
  {n child child' : Node}

theorem admitted_case (hcase : Directive.ofNode? s.uri child = some .case)
    (hincluded : included s.uri child m.scopes.environment = .ok true) :
    admitted s.uri n .switch .case child m.scopes.environment = .ok true := by
  have helement : child.isElement = true := by
    obtain ⟨e, he, -⟩ := Option.bind_eq_some_iff.1 hcase
    exact Option.isSome_of_eq_some he
  unfold admitted
  rw [helement]
  refine (reading_bind hincluded).trans ?_
  rw [hcase]
  rfl

theorem PassedOver.caseApplies (h : PassedOver s m child) :
    caseApplies s n child m.scopes.environment = .ok false := by
  cases h with
  | blank hother hblank =>
    unfold Template.caseApplies admitted
    rw [hother, hblank]
    rfl
  | excluded h => exact reading_bind (h.admitted n .switch .case)
  | failed test hcase hincluded htest hfalse =>
    refine (reading_bind (admitted_case hcase hincluded)).trans ?_
    exact (reading_bind htest).trans hfalse

theorem Chosen.caseApplies (h : Chosen s m child) :
    caseApplies s n child m.scopes.environment = .ok true := by
  refine (reading_bind (admitted_case h.isCase h.included)).trans ?_
  rcases h.holds with hnone | ⟨test, htest, htrue⟩
  · exact reading_bind hnone
  · exact (reading_bind htest).trans htrue

-- ================================================================= the cases

/-- Children that are passed over might as well not be there. -/
theorem cases_passed (inner : Option (Inner σ)) (n : Node)
    {before : List Tree} {origin : Origin} {trail : List Tree}
    (h : ∀ t ∈ before, PassedOver s m ⟨origin, t, trail⟩) (rest : List Tree) :
    cases s inner origin trail n (before ++ rest) m
      = cases s inner origin trail n rest m := by
  induction before with
  | nil => rfl
  | cons t before ih =>
    obtain ⟨here, behind⟩ := List.forall_mem_cons.1 h
    rw [List.cons_append, cases, bind_ok (read_ok here.caseApplies)]
    exact ih behind

/-- The first case that applies is all that is processed. -/
theorem cases_chosen {origin : Origin} {trail : List Tree} {t : Tree}
    (h : Chosen s m ⟨origin, t, trail⟩) (rest : List Tree) :
    cases s inner origin trail n (t :: rest) m
      = inScope ⟨origin, t, trail⟩
          (contents s inner true ⟨origin, t, trail⟩) m := by
  rw [cases, bind_ok (read_ok h.caseApplies), ← body_eq_contents]
  rfl

/-- A switch that is included comes to its cases. -/
theorem element_switch {origin : Origin} {label : Label} {trail ts : List Tree}
    (hswitch : Directive.ofNode? s.uri ⟨origin, .node label ts, trail⟩
      = some .switch)
    (hincluded : included s.uri ⟨origin, .node label ts, trail⟩
      m.scopes.environment = .ok true) :
    element s inner origin trail (.node label ts) m
      = cases s inner origin (.node label ts :: trail)
          ⟨origin, .node label ts, trail⟩ ts m := by
  unfold element perform
  rw [bind_ok (read_ok hincluded), if_pos rfl, hswitch]
  rfl

/-- A switch up to its first case that is chosen. -/
theorem element_chosen (inner : Option (Inner σ)) {origin : Origin}
    {label : Label} {trail before behind : List Tree} {case : Tree}
    (hswitch : Directive.ofNode? s.uri
      ⟨origin, .node label (before ++ case :: behind), trail⟩ = some .switch)
    (hincluded : included s.uri
      ⟨origin, .node label (before ++ case :: behind), trail⟩
      m.scopes.environment = .ok true)
    (hbefore : ∀ t ∈ before, PassedOver s m
      (Node.below ⟨origin, .node label (before ++ case :: behind), trail⟩ t))
    (hchosen : Chosen s m
      (Node.below ⟨origin, .node label (before ++ case :: behind), trail⟩
        case)) :
    element s inner origin trail (.node label (before ++ case :: behind)) m
      = inScope
          (Node.below ⟨origin, .node label (before ++ case :: behind), trail⟩
            case)
          (contents s inner true
            (Node.below ⟨origin, .node label (before ++ case :: behind), trail⟩
              case)) m := by
  rw [element_switch hswitch hincluded, cases_passed inner _ hbefore]
  exact cases_chosen hchosen behind

-- ===================================================== the same case elsewhere

/-- A reading that goes well goes well in the same way at nodes that are
alike. -/
theorem ReadAlike.ok {N : Node → Node → Prop} {α : Type} {r r' : Reading α}
    (h : ReadAlike N (· = ·) r r') {env : Expr.Environment} {a : α}
    (ha : r env = .ok a) : r' env = .ok a := by
  have hagree := h env
  rw [ha] at hagree
  generalize r' env = x at hagree ⊢
  cases hagree with
  | ok hab => exact hab ▸ rfl

/-- Whether an element is included is for its own content to say. -/
theorem included_of_content {n n' : Node} {uri : String}
    {env : Expr.Environment} {b : Bool} (hcontent : n.content = n'.content)
    (h : included uri n env = .ok b) : included uri n' env = .ok b := by
  have helement : n.element? = n'.element? :=
    congrArg Markup.Content.element? hcontent
  have hguard : n.attributeIn? uri "if" = n'.attributeIn? uri "if" := by
    unfold Node.attributeIn?
    rw [helement]
  unfold included at h ⊢
  rw [← hguard]
  cases ha : n.attributeIn? uri "if" with
  | none =>
    rw [ha] at h
    exact h
  | some a =>
    rw [ha] at h
    exact evaluating_ok n' _ _ (mapError_eq_ok h)

theorem PassedOver.alike {N : Node → Node → Prop} [Likeness N]
    (h : PassedOver s m child) (hn : N child child') :
    PassedOver s m child' := by
  cases h with
  | blank hother hblank =>
    refine .blank ?_ ?_
    · rw [← Likeness.isElement hn, hother]
    · rw [← Likeness.isInsignificant hn, hblank]
  | excluded h => exact .excluded ((alike_included hn s.uri).ok h)
  | failed test hcase hincluded htest hfalse =>
    refine .failed test ?_ ((alike_included hn s.uri).ok hincluded)
      ((alike_substituted hn "test").ok htest) ((alike_truth hn test).ok hfalse)
    rw [← Likeness.ofNode? hn, hcase]

theorem Chosen.alike {N : Node → Node → Prop} [Likeness N]
    (h : Chosen s m child) (hn : N child child') : Chosen s m child' := by
  refine ⟨?_, (alike_included hn s.uri).ok h.included, ?_⟩
  · rw [← Likeness.ofNode? hn, h.isCase]
  · rcases h.holds with hnone | ⟨test, htest, htrue⟩
    · exact .inl ((alike_substituted hn "test").ok hnone)
    · exact .inr ⟨test, (alike_substituted hn "test").ok htest,
        (alike_truth hn test).ok htrue⟩

end

/-- Of a switch that is included, the children in front of the first case that
is chosen are passed over, and the run is that of the contents of this case,
trimmed and in a scope of their own. Whatever stands behind the case may be
replaced by anything: the run ends alike, and leaves the scopes as they are.
If all children are passed over, nothing is done. -/
theorem switch_one_case (s : Settings σ) (room : Nat) (origin : Origin)
    (label : Label) (trail : List Tree) (ts : List Tree) (m : Machine σ)
    (hswitch : Directive.ofNode? s.uri ⟨origin, .node label ts, trail⟩
      = some .switch)
    (hincluded : included s.uri ⟨origin, .node label ts, trail⟩
      m.scopes.environment = .ok true) :
    let run := fun children =>
      element s (inner? s room) origin trail (.node label children)
    let child : Tree → Node := Node.below ⟨origin, .node label ts, trail⟩
    (∀ before case behind, ts = before ++ case :: behind →
      (∀ t ∈ before, PassedOver s m (child t)) → Chosen s m (child case) →
      run ts m
        = inScope (child case) (contents s (inner? s room) true (child case)) m
      ∧ ∀ others,
        EndsAlike elsewhere (run ts m) (run (before ++ case :: others) m)
        ∧ (after (run ts) m).scopes = m.scopes
        ∧ (after (run (before ++ case :: others)) m).scopes = m.scopes)
    ∧ ((∀ t ∈ ts, PassedOver s m (child t)) → run ts m = .ok () m) := by
  intro run child
  constructor
  · rintro before case behind rfl hbefore hchosen
    have hrun := element_chosen (inner? s room) hswitch hincluded hbefore
      hchosen
    refine ⟨hrun, fun others => ?_⟩
    let n : Node := ⟨origin, .node label (before ++ case :: behind), trail⟩
    let n' : Node := ⟨origin, .node label (before ++ case :: others), trail⟩
    -- the children are the same trees, under a switch of the same label
    have same (t : Tree) : SameTree (child t) (n'.below t) := ⟨rfl, rfl⟩
    have hcontent : n.content = n'.content := rfl
    have hswitch' : Directive.ofNode? s.uri n' = some .switch := hswitch
    have hincluded' : included s.uri n' m.scopes.environment = .ok true :=
      included_of_content hcontent hincluded
    have hrun' := element_chosen (inner? s room) hswitch' hincluded'
      (fun t ht => (hbefore t ht).alike (same t)) (hchosen.alike (same case))
    have restored (anchor : Node) :
        (after (inScope anchor (contents s (inner? s room) true anchor))
          m).scopes = m.scopes := by
      have c := framed_congruence s
      exact (untouched_inScope anchor (c.contents (c.inner room) true anchor)
        m).scopes
    refine ⟨?_, ?_, ?_⟩
    · have c := runsAlike_congruence (serves_elsewhere s.uri s.source) (s := s)
      have whole : Wholly SameTree (child case) (n'.below case) :=
        (descends_sameTree s.uri).wholly (same case)
          ⟨.case, hchosen.isCase, nofun⟩
      have hends := c.inScope (same case) (c.trimmed (c.inner room) whole)
      show EndsAlike elsewhere (run _ m) (run _ m)
      rw [show run _ m = _ from hrun, show run _ m = _ from hrun']
      exact hends m m (m.alike_same sameTree_self)
    · rw [after_congr hrun]
      exact restored _
    · rw [after_congr hrun']
      exact restored _
  · intro hpassed
    show element s (inner? s room) origin trail (.node label ts) m = _
    have hall := cases_passed (inner? s room) ⟨origin, .node label ts, trail⟩
      hpassed []
    rw [element_switch hswitch hincluded]
    rw [List.append_nil] at hall
    exact hall

/-- A case with a test, and a text in it. -/
def caseOf (id : Nat) (test text : String) : Tree :=
  directive id "case" [⟨.ofText "test", none, test⟩]
    [.node ⟨id + 1, ⟨id, 9⟩, .text text⟩ []]

/-- Of three cases the second is true. The third is not looked at, nor would be
a fault in its place. -/
theorem switch_one_case_second :
    let s : Settings (List Output.Event) :=
      ⟨"x", Output.Sink.log, .memory [], 0⟩
    let first := caseOf 2 "false" "a"
    let second := caseOf 4 "true" "b"
    let third := caseOf 6 "true" "c"
    let fault := directive 6 "error" [] []
    let switch := fun ts : List Tree => directive 1 "switch" [] ts
    let n : Node := ⟨.given 0, switch [first, second, third], []⟩
    let m : Machine (List Output.Event) :=
      ⟨.single (.fresh n none), 0, .empty, []⟩
    let run := fun ts => element s (inner? s 1) (.given 0) [] (switch ts)
    Directive.ofNode? s.uri n = some .switch
    ∧ included s.uri n m.scopes.environment = .ok true
    ∧ PassedOver s m (n.below first)
    ∧ Chosen s m (n.below second)
    ∧ EndsAlike elsewhere (run [first, second, third] m)
      (run [first, second, fault] m)
    ∧ (after (run [first, second, third]) m).output = [.characters "b"] := by
  intro s first second third fault switch n m run
  have hswitch : Directive.ofNode? s.uri n = some .switch := by decide
  have hincluded : included s.uri n m.scopes.environment = .ok true := rfl
  have tested (text : String) (h : text = "false" ∨ text = "true") :
      Expr.substitute m.scopes.environment text = .ok text := by
    rcases h with rfl | rfl
    · decide +kernel
    · decide +kernel
  have passed : PassedOver s m (n.below first) :=
    .failed "false" (by decide) rfl (substituted_ok rfl (tested _ (.inl rfl)))
      (truth_ok (by decide +kernel))
  have chosen : Chosen s m (n.below second) :=
    ⟨by decide, rfl, .inr ⟨"true", substituted_ok rfl (tested _ (.inr rfl)),
      truth_ok (by decide +kernel)⟩⟩
  have one := (switch_one_case s 1 (.given 0) _ [] [first, second, third] m
    hswitch hincluded).1 [first] second [third] rfl
    (List.forall_mem_singleton.2 passed) chosen
  exact ⟨hswitch, hincluded, passed, chosen, (one.2 [fault]).1,
    by decide +kernel⟩

end Stencil.Template
