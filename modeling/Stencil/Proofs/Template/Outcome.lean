/-
How runs end. Steps in sequence go as far as the first that fails, and the
machine is handed on. What holds from before to after each step, whether it
fails or not, holds from before to after the whole: a run is `Within` a
preorder on machines if its steps are. A change of the scopes is made or
refused, and for either it is told once what follows.
-/
import Stencil.Proofs.Related
import Stencil.Template.Machine

namespace Stencil.Template

variable {σ α β : Type} {m m' : Machine σ} {x : Run σ α} {f : α → Run σ β}

-- ============================================================ in sequence

theorem bind_ok {a : α} (h : x m = .ok a m') : (x >>= f) m = f a m' := by
  show EStateM.bind x f m = _
  unfold EStateM.bind
  rw [h]

theorem bind_error {e : Stop} (h : x m = .error e m') :
    (x >>= f) m = .error e m' := by
  show EStateM.bind x f m = _
  unfold EStateM.bind
  rw [h]

/-- If all goes well, the first step does and so does the second. -/
theorem exists_of_bind_ok {b : β} (h : (x >>= f) m = .ok b m') :
    ∃ a m₁, x m = .ok a m₁ ∧ f a m₁ = .ok b m' := by
  cases hx : x m with
  | ok a m₁ =>
    rw [bind_ok hx] at h
    exact ⟨a, m₁, rfl, h⟩
  | error e m₁ =>
    rw [bind_error hx] at h
    cases h

/-- What holds wherever the first step ends, holds of both in sequence. -/
theorem bind_cases (P : EStateM.Result Stop (Machine σ) β → Prop)
    (hok : ∀ a m', x m = .ok a m' → P (f a m'))
    (herror : ∀ e m', x m = .error e m' → P (.error e m')) :
    P ((x >>= f) m) := by
  cases h : x m with
  | ok a m' =>
    rw [bind_ok h]
    exact hok a m' h
  | error e m' =>
    rw [bind_error h]
    exact herror e m' h

/-- Reading changes nothing. -/
theorem read_ok {r : Reading α} {a : α}
    (h : r m.scopes.environment = .ok a) : (read r : Run σ α) m = .ok a m := by
  rw [read, h]

theorem read_error {r : Reading α} {d : Diagnostic}
    (h : r m.scopes.environment = .error d) :
    (read r : Run σ α) m = .error (.failed d) m := by
  rw [read, h]

/-- If all goes well, the reading does and so does what follows. -/
theorem exists_of_read_ok {r : Reading α} {f : α → Run σ β} {b : β}
    (h : (read r >>= f) m = .ok b m') :
    ∃ a, r m.scopes.environment = .ok a ∧ f a m = .ok b m' := by
  obtain ⟨a, m₁, hr, hf⟩ := exists_of_bind_ok h
  unfold read at hr
  split at hr
  · next ha =>
    cases hr
    exact ⟨a, ha, hf⟩
  · cases hr

-- ================================================================== readings

section

open Markup (Node)

variable {env : Expr.Environment} {n : Node}

/-- A reading that goes well is followed by the next. -/
theorem reading_bind {r : Reading α} {f : α → Reading β} {a : α}
    (h : r env = .ok a) : (r >>= f) env = f a env := by
  show (r env >>= fun a => f a env) = _
  rw [h]
  rfl

/-- A reading that went well began with one that did. -/
theorem exists_of_reading_ok {r : Reading α} {f : α → Reading β} {b : β}
    (h : (r >>= f) env = .ok b) : ∃ a, r env = .ok a ∧ f a env = .ok b :=
  bind_eq_ok h

theorem evaluating_ok (n : Node) (attr : Option String) (subject : Subject)
    {f : Expr.Environment → Except Expr.Error α} {a : α}
    (h : f env = .ok a) : evaluating n attr subject f env = .ok a := by
  unfold evaluating
  rw [h]
  rfl

/-- An attribute that is there, with its expressions replaced. -/
theorem substituted_ok {name raw text : String}
    (ha : n.attribute? name = some raw)
    (h : Expr.substitute env raw = .ok text) :
    substituted n name env
      = .ok (if text.isEmpty then none else some text) := by
  unfold substituted
  rw [ha]
  exact reading_bind (evaluating_ok n _ _ h)

theorem evaluating_error (n : Node) (attr : Option String) (subject : Subject)
    {f : Expr.Environment → Except Expr.Error α} {e : Expr.Error}
    (h : f env = .error e) : evaluating n attr subject f env
      = .error ⟨.expression subject e, some n, attr⟩ := by
  unfold evaluating
  rw [h]
  rfl

/-- An attribute with an expression that fails. -/
theorem substituted_error {name raw : String} {e : Expr.Error}
    (ha : n.attribute? name = some raw)
    (h : Expr.substitute env raw = .error e) :
    substituted n name env
      = .error (.on n name (.expression .substitution e)) := by
  unfold substituted
  rw [ha]
  show (evaluating n (some name) .substitution (Expr.substitute · raw) env
    >>= _) = _
  rw [evaluating_error n (some name) .substitution h]
  rfl

/-- A test that comes out as a truth value. -/
theorem truth_ok {text : String} {b : Bool}
    (h : (Expr.evaluate env text >>= Expr.Value.asBool) = .ok b) :
    truth n text env = .ok b := by
  cases hv : Expr.evaluate env text with
  | error e =>
    rw [hv] at h
    cases h
  | ok v =>
    rw [hv] at h
    have value : valueOf n "test" text env = .ok v := evaluating_ok n _ _ hv
    exact (reading_bind value).trans (evaluating_ok n _ _ h)

end

-- ================================================================ the scopes

section

open Markup (Node)

variable {t u : Scope} {name : String} {b : Binding} {element : Node}
  {e : ScopeError}

/-- A name that is bound was no constant of the scope. -/
theorem Scope.bind_eq_ok (h : t.bind name b = .ok u) :
    t.isConstant name = false
      ∧ u = { t with names := Expr.enter t.names name b } := by
  unfold Scope.bind at h
  cases hname : t.isConstant name with
  | true =>
    rw [hname] at h
    cases h
  | false =>
    rw [hname] at h
    cases h
    exact ⟨rfl, rfl⟩

theorem Scope.bind_eq_error :
    t.bind name b = .error e
      ↔ t.isConstant name = true ∧ e = .constant name := by
  unfold Scope.bind
  cases t.isConstant name <;> simp [eq_comm]

/-- A macro that is defined is new to the scope. -/
theorem Scope.define_eq_ok (h : t.define name element = .ok u) :
    t.macros.lookup name = none
      ∧ u = { t with macros := (name, element) :: t.macros } := by
  unfold Scope.define at h
  cases hname : t.macros.lookup name with
  | some body =>
    rw [hname] at h
    cases h
  | none =>
    rw [hname] at h
    cases h
    exact ⟨rfl, rfl⟩

theorem Scope.define_eq_error :
    t.define name element = .error e
      ↔ (∃ body, t.macros.lookup name = some body)
        ∧ e = .duplicateMacro name := by
  unfold Scope.define
  cases t.macros.lookup name <;> simp [eq_comm]

variable {scopes scopes' : Scopes} {f : Scope → Except ScopeError Scope}

/-- A change of the innermost scope leaves the ones around it. -/
theorem onCurrent_ok (h : scopes.onCurrent f = .ok scopes') :
    ∃ current, f scopes.current = .ok current
      ∧ scopes' = ⟨current, scopes.outer⟩ := by
  unfold Scopes.onCurrent at h
  obtain ⟨current, hf, h⟩ := bind_eq_ok h
  cases h
  exact ⟨current, hf, rfl⟩

theorem onCurrent_error :
    scopes.onCurrent f = .error e ↔ f scopes.current = .error e := by
  unfold Scopes.onCurrent
  cases f scopes.current <;> simp [Except.map]

variable {n : Node} {f : Scopes → Except ScopeError Scopes}

theorem onScope_ok (h : onScope n f m = .ok () m') :
    ∃ scopes, f m.scopes = .ok scopes ∧ m' = { m with scopes := scopes } := by
  unfold onScope at h
  split at h
  · next scopes hf =>
    cases h
    exact ⟨scopes, hf, rfl⟩
  · cases h

/-- A change that is refused is not made, and the node is blamed for it. -/
theorem onScope_error {stop : Stop} (h : onScope n f m = .error stop m') :
    m' = m ∧ ∃ e, f m.scopes = .error e
      ∧ stop = .failed (.about n (.scope e)) := by
  unfold onScope at h
  split at h
  · cases h
  · next e hf =>
    cases h
    exact ⟨rfl, e, hf, rfl⟩

end

-- ============================================================== the machine

/-- The machine that a run leaves, however it ends. -/
def after (x : Run σ α) (m : Machine σ) : Machine σ :=
  match x m with
  | .ok _ m' => m'
  | .error _ m' => m'

theorem after_ok {a : α} (h : x m = .ok a m') : after x m = m' := by
  rw [after, h]

theorem after_error {e : Stop} (h : x m = .error e m') : after x m = m' := by
  rw [after, h]

theorem after_congr {y : Run σ α} (h : x m = y m) :
    after x m = after y m := by
  unfold after
  rw [h]

theorem between_ok {enter : Machine σ → Machine σ} {a : α}
    (h : x (enter m) = .ok a m') (leave : Machine σ → Machine σ) :
    between enter leave x m = .ok a (leave m') := by
  unfold between
  rw [h]

theorem between_error {enter : Machine σ → Machine σ} {e : Stop}
    (h : x (enter m) = .error e m') (leave : Machine σ → Machine σ) :
    between enter leave x m = .error e (leave m') := by
  unfold between
  rw [h]

theorem after_between (enter leave : Machine σ → Machine σ) (x : Run σ α)
    (m : Machine σ) :
    after (between enter leave x) m = leave (after x (enter m)) := by
  unfold after between
  cases x (enter m) <;> rfl

/-- From every machine on, a run leaves one that is related to it. -/
def Within (K : Machine σ → Machine σ → Prop) (x : Run σ α) : Prop :=
  ∀ m, K m (after x m)

section

variable {K : Machine σ → Machine σ → Prop}

theorem within_bind (htrans : ∀ {a b c}, K a b → K b c → K a c)
    (hx : Within K x) (hf : ∀ a, Within K (f a)) : Within K (x >>= f) := by
  intro m
  have first := hx m
  cases h : x m with
  | ok a m' =>
    rw [after_ok h] at first
    rw [after, bind_ok h]
    exact htrans first (hf a m')
  | error e m' =>
    rw [after_error h] at first
    rw [after_error (bind_error h)]
    exact first

theorem within_read (hrefl : ∀ m, K m m) {r : Reading α} {f : α → Run σ β}
    (hf : ∀ env a, r env = .ok a → Within K (f a)) :
    Within K (read r >>= f) := by
  intro m
  cases h : r m.scopes.environment with
  | ok a =>
    rw [after, bind_ok (read_ok h)]
    exact hf _ a h m
  | error d =>
    rw [after_error (bind_error (read_error h))]
    exact hrefl m

/-- A change of the scopes leaves everything else, or the machine as it is. -/
theorem within_onScope (hrefl : ∀ m, K m m) (n : Markup.Node)
    {f : Scopes → Except ScopeError Scopes}
    (hf : ∀ m scopes, f m.scopes = .ok scopes →
      K m { m with scopes := scopes }) : Within K (onScope n f) := by
  intro m
  unfold after onScope
  cases h : f m.scopes with
  | ok scopes => exact hf m scopes h
  | error e => exact hrefl m

theorem within_state {f : Machine σ → Run σ α} (hf : ∀ m, Within K (f m)) :
    Within K (get >>= f) :=
  fun m => hf m m

end

end Stencil.Template
