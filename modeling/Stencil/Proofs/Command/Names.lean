/-
Names on the command line.

The command line asks for valid names as directives do, and binds them before
there is anything else in scope. So the scopes that processing starts with are
`Named`, and stay so. A valid name is one that is read as the variable, and it is
in these terms that the names which are accepted are told here from those which are
not (`names_read_back`).
-/
import Stencil.Command.Run
import Stencil.Proofs.Expr.Equality
import Stencil.Proofs.Template.Names

namespace Stencil.Command

open Stencil.Expr (isValidName Results results_ok results_error results_bind
  results_after results_mapError)
open Loading (Files)
open Template (AllValid Processor Settings identifier requiredName substituted
  progress)

-- =================================================================== bindings

/-- Every name that the outermost scope binds is valid. -/
def ValidScope (p : Processor) : Prop :=
  AllValid (p.scope.names.map Prod.fst)

theorem valid_bindOne {p : Processor} (h : ValidScope p) (base : Url)
    (b : String × Source) : Results ValidScope (bindOne base p b) := by
  refine results_after fun (v, cache) => ?_
  dsimp only
  split
  · next hname =>
    refine results_mapError ?_ _
    intro q hq
    unfold Processor.setVariable Processor.onScope at hq
    split at hq
    · next t ht =>
      cases hq
      exact Template.valid_setVariable h hname v t ht
    · cases hq
  · exact results_error _

theorem valid_load (source : Loading.Source) (cache : Loading.Cache)
    (url : Url) : Results ValidScope (Processor.load source cache url) := by
  unfold Processor.load
  split
  · exact results_error _
  · unfold Processor.ofDocument
    split
    · exact results_error _
    · exact results_ok Template.allValid_nil

theorem valid_prepare (files : Files) (base : Url) (a : Arguments) :
    Results ValidScope (prepare files base a) := by
  have bound (bs : List (String × Source)) {p : Processor}
      (hp : ValidScope p) : Results ValidScope (bs.foldlM (bindOne base) p) := by
    induction bs generalizing p with
    | nil => exact results_ok hp
    | cons b bs ih =>
      rw [List.foldlM_cons]
      exact results_bind (valid_bindOne hp base b) fun q hq => ih hq
  refine results_after fun url => ?_
  refine results_bind (results_mapError (valid_load _ _ url) _) fun p hp => ?_
  refine bound (bindings a) ?_
  split
  · exact hp
  · exact hp

/-- A name that there is a value for is accepted just in case it is valid. -/
theorem bindOne_accepts_iff {base : Url} {p : Processor} {name : String}
    {source : Source} {r : Expr.Value × Loading.Cache}
    (h : source.value? p base = .ok r) :
    bindOne base p (name, source) ≠ .error (.invalidName name)
      ↔ isValidName name = true := by
  have hbind : bindOne base p (name, source)
      = if isValidName name then
          ({ p with cache := r.2 }.setVariable name r.1).mapError fun d =>
            Error.template (.failed d)
        else .error (.invalidName name) := by
    unfold bindOne
    dsimp only
    rw [h]
    rfl
  rw [hbind]
  split
  · next hvalid =>
    refine iff_of_true ?_ hvalid
    cases Processor.setVariable { p with cache := r.2 } name r.1 <;> nofun
  · next hinvalid => exact iff_of_false (fun hne => hne rfl) hinvalid

-- ================================================================ main results

/-- A name is valid just in case it is read as the variable. Directives accept
the names that are read so, where one is required and where one may be, and so
does the command line; and what it makes of a template binds no other names,
however far processing gets: each name with a value evaluates to that value. -/
theorem names_read_back {σ : Type} :
    (∀ name, isValidName name = true ↔ Expr.parse name = .ok (.variable name))
    ∧ (∀ n env name, requiredName n env = .ok name
      ↔ substituted n "name" env = .ok (some name)
        ∧ Expr.parse name = .ok (.variable name))
    ∧ (∀ n attr reason env name,
      identifier n attr reason env = .ok (some name)
        ↔ substituted n attr env = .ok (some name)
          ∧ Expr.parse name = .ok (.variable name))
    ∧ (∀ base p name source r, Source.value? p base source = .ok r →
      (bindOne base p (name, source) ≠ .error (.invalidName name)
        ↔ Expr.parse name = .ok (.variable name)))
    ∧ (∀ files base a p, prepare files base a = .ok p →
      ∀ (s : Settings σ) (output : σ) (steps : Nat) (name : String)
        (v : Expr.Value),
        let reached := progress s p.root (p.machine output) steps
        reached.machine.scopes.value? name = some v →
          Expr.parse name = .ok (.variable name)
            ∧ Expr.evaluate reached.machine.scopes.environment name
              = .ok v) := by
  have valid (name : String) : Expr.parse name = .ok (.variable name)
      ↔ isValidName name = true := Expr.parse_eq_variable_iff
  refine ⟨fun name => (valid name).symm, fun n env name => ?_,
    fun n attr reason env name => ?_, fun base p name source r hr => ?_,
    fun files base a p hp s output steps name v => ?_⟩
  · rw [valid]
    exact Template.requiredName_eq_ok_iff
  · rw [valid]
    exact Template.identifier_eq_some_iff
  · rw [valid]
    exact bindOne_accepts_iff hr
  -- what the command binds has valid names, so a run starts with such
  · have start : (p.machine output).scopes.Named :=
      List.forall_mem_singleton.2 (valid_prepare files base a p hp)
    intro reached hv
    exact (Template.named_progress s p.root start steps).scopes.evaluate hv

/-- A template that binds a name with a sign in it to one more than what the
command line binds; and a word that is no name. -/
theorem names_read_back_assigned :
    let text := "<r xmlns:x='http://pwall.net/xml/xt/1.0'>"
      ++ "<x:set name='b$' value='n + 1'/></r>"
    let files : Files := ⟨[(["t.xml"], text)], []⟩
    let base := Url.ofDirectoryPath []
    let a : Arguments :=
      ⟨"t.xml", none, [], [], [], ["n=7"], false, false⟩
    let s : Settings Output.Recording :=
      ⟨Template.standardUri, Output.Recording.sink, .standard files, 0⟩
    ∃ p i, prepare files base a = .ok p ∧ i.toInt = 8
      ∧ (progress s p.root (p.machine .empty) 5).machine.scopes.value? "b$"
        = some (.int i)
      ∧ Source.value? p base (.value .null) = .ok (.null, p.cache)
      ∧ bindOne base p ("or", .value .null) = .error (.invalidName "or")
      ∧ Expr.parse "b$" = .ok (.variable "b$")
      ∧ Expr.evaluate
          (progress s p.root (p.machine .empty) 5).machine.scopes.environment
          "b$" = .ok (.int i) := by
  intro text files base a s
  -- processors cannot be compared, so only what is bound is looked at
  have run : ((prepare files base a).toOption.bind fun p =>
      ((progress s p.root (p.machine .empty) 5).machine.scopes.value?
        "b$").map (·.same (.int 8))) = some true := by decide +kernel
  obtain ⟨p, hp, hvalue⟩ := Option.bind_eq_some_iff.1 run
  obtain ⟨v, hv, hsame⟩ := Option.map_eq_some_iff.1 hvalue
  have hv := hv.trans (congrArg some (Expr.Value.eq_int_of_same hsame))
  have hp : prepare files base a = .ok p := by
    cases hprepare : prepare files base a with
    | ok q =>
      rw [hprepare] at hp
      cases hp
      rfl
    | error e =>
      rw [hprepare] at hp
      cases hp
  obtain ⟨-, -, -, accepted, reached⟩ := names_read_back (σ := Output.Recording)
  obtain ⟨hparse, hevaluate⟩ := reached files base a p hp s .empty 5 "b$" _ hv
  have hor : ¬ Expr.parse "or" = .ok (.variable "or") := fun h =>
    absurd (Expr.isValidName_of_parse h) (by decide)
  have hrefused := Classical.not_not.1 fun h =>
    hor ((accepted base p "or" (.value .null) _ rfl).1 h)
  exact ⟨p, 8, hp, rfl, hv, rfl, hrefused, hparse, hevaluate⟩

end Stencil.Command
