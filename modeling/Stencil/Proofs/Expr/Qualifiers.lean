/-
What an error says of qualifiers.

Qualifiers are looked up in one place only, where a function is called. So if a
text has no value because a qualifier is unknown, it has no meaning in the
environment, and if because a namespace is, it is what some qualifier means.
All else that goes wrong is plain: it speaks of neither, and no function that is
called may speak of them by itself (`Library.Discreet`).
-/
import Stencil.Expr.Substitution
import Stencil.Proofs.Expr.Arithmetic

namespace Stencil.Expr

variable {α β : Type} {P Q : Error → Prop}

-- ================================================================== faults

/-- An error that speaks of no qualifier and no namespace. -/
def Error.Plain : Error → Prop
  | .unknownPrefix _ => False
  | .unknownNamespace _ => False
  | _ => True

/-- What an error says of qualifiers is true. -/
def Error.Apt (env : Environment) : Error → Prop
  | .unknownPrefix q => env.uri? q = none
  | .unknownNamespace uri => ∃ q, env.uri? q = some uri
  | _ => True

theorem Error.Plain.apt {e : Error} (h : e.Plain) (env : Environment) :
    e.Apt env := by
  cases e with
  | unknownPrefix => exact h.elim
  | unknownNamespace => exact h.elim
  | _ => trivial

/-- The functions do not tell of qualifiers or namespaces. -/
def Library.Discreet (l : Library) : Prop :=
  ∀ name args e, l.call name args = .error e → e.Plain

/-- If something fails, then with such an error. -/
def Faults (P : Error → Prop) (x : Except Error α) : Prop :=
  ∀ e, x = .error e → P e

theorem faults_ok (a : α) : Faults P (.ok a : Except Error α) := nofun

theorem faults_error {e : Error} (h : P e) :
    Faults P (.error e : Except Error α) := by
  intro e' he'
  cases he'
  exact h

theorem Faults.mono {x : Except Error α} (h : Faults P x)
    (hPQ : ∀ e, P e → Q e) : Faults Q x :=
  fun e he => hPQ e (h e he)

theorem faults_bind {x : Except Error α} {f : α → Except Error β}
    (hx : Faults P x) (hf : ∀ a, x = .ok a → Faults P (f a)) :
    Faults P (x >>= f) := by
  cases x with
  | ok a => exact hf a rfl
  | error e => exact faults_error (hx e rfl)

theorem faults_map {x : Except Error α} {f : α → β} (hx : Faults P x) :
    Faults P (x.map f) := by
  cases x with
  | ok a => exact faults_ok _
  | error e => exact faults_error (hx e rfl)

-- ============================================================= plain errors

section

variable (v l r : Value)

theorem plain_asInt : Faults Error.Plain v.asInt := by
  unfold Value.asInt
  split
  · exact faults_ok _
  · exact faults_error trivial

theorem plain_asBool : Faults Error.Plain v.asBool := by
  cases v with
  | null => exact faults_ok _
  | bool b => exact faults_ok _
  | string s =>
    rw [Value.asBool]
    split
    · exact faults_ok _
    · split
      · exact faults_ok _
      · split
        · exact faults_ok _
        · exact faults_error trivial
  | _ => exact faults_error trivial

theorem plain_property (name : String) :
    Faults Error.Plain (v.property name) := by
  cases v with
  | null => exact faults_ok _
  | map entries => exact faults_ok _
  | element n => exact faults_ok _
  | _ => exact faults_error trivial

theorem plain_index (i : Value) : Faults Error.Plain (v.index i) := by
  cases v with
  | null => exact faults_ok _
  | array items => exact faults_bind (plain_asInt i) fun _ _ => faults_ok _
  | map entries => exact plain_property (.map entries) _
  | element n => exact plain_property (.element n) _
  | _ => exact faults_error trivial

theorem plain_order : Faults Error.Plain (l.order r) := by
  unfold Value.order
  split
  · exact faults_ok _
  · split
    · exact faults_ok _
    · split
      · exact faults_ok _
      · exact faults_error trivial
    · exact faults_error trivial

theorem plain_operand : Faults Error.Plain (operand v) := by
  unfold operand
  split
  · exact faults_ok _
  · exact faults_error trivial

theorem plain_checked (i : Option Int64) :
    Faults Error.Plain (checked i) := by
  cases i with
  | some i => exact faults_ok _
  | none => exact faults_error trivial

theorem plain_wholeRemainder (i j : Int64) :
    Faults Error.Plain (wholeRemainder i j) := by
  unfold wholeRemainder
  split
  · exact faults_error trivial
  · exact plain_checked _

theorem plain_arithmetic {onWhole : Int64 → Int64 → Except Error Value}
    (h : ∀ i j, Faults Error.Plain (onWhole i j))
    (onFloats : Float → Float → Float) :
    Faults Error.Plain (arithmetic onWhole onFloats l r) := by
  refine faults_bind (plain_operand l) fun a _ => ?_
  refine faults_bind (plain_operand r) fun b _ => ?_
  split
  · exact h _ _
  · exact faults_ok _

theorem plain_add : Faults Error.Plain (add l r) := by
  unfold add
  split
  · exact faults_ok _
  · exact plain_arithmetic l r (fun _ _ => plain_checked _) _

theorem plain_divide : Faults Error.Plain (divide l r) :=
  faults_bind (plain_operand l) fun _ _ =>
    faults_bind (plain_operand r) fun _ _ => faults_ok _

theorem plain_applyBinary (op : BinaryOp) :
    Faults Error.Plain (applyBinary op l r) := by
  have compared (f : Ordering → Bool) :
      Faults Error.Plain (l.order r >>= fun o => pure (Value.bool (f o))) :=
    faults_bind (plain_order l r) fun _ _ => faults_ok _
  cases op with
  | equals => exact faults_ok _
  | notEquals => exact faults_ok _
  | less => exact compared (· == .lt)
  | lessOrEqual => exact compared (· != .gt)
  | greater => exact compared (· == .gt)
  | greaterOrEqual => exact compared (· != .lt)
  | plus => exact plain_add l r
  | minus => exact plain_arithmetic l r (fun _ _ => plain_checked _) _
  | times => exact plain_arithmetic l r (fun _ _ => plain_checked _) _
  | divide => exact plain_divide l r
  | modulo => exact plain_arithmetic l r plain_wholeRemainder _
  | and =>
    refine faults_bind (plain_asBool l) fun b _ => ?_
    cases b with
    | true => exact faults_bind (plain_asBool r) fun _ _ => faults_ok _
    | false => exact faults_ok _
  | or =>
    refine faults_bind (plain_asBool l) fun b _ => ?_
    cases b with
    | true => exact faults_ok _
    | false => exact faults_bind (plain_asBool r) fun _ _ => faults_ok _

theorem plain_applyUnary (op : UnaryOp) :
    Faults Error.Plain (applyUnary op v) := by
  cases op with
  | minus =>
    show Faults _ (negate v)
    unfold negate
    split
    · exact plain_checked _
    · exact faults_ok _
    · exact faults_error trivial
  | not => exact faults_bind (plain_asBool v) fun _ _ => faults_ok _
  | empty => exact faults_ok _

end

theorem plain_parse (text : String) : Faults Error.Plain (parse text) := by
  unfold parse
  dsimp only
  split
  · exact faults_ok _
  · exact faults_error trivial
  · exact faults_error trivial

theorem plain_join (items : Value) (separator : String) :
    Faults Error.Plain (Library.join items separator) := by
  cases items with
  | null => exact faults_ok _
  | array items => exact faults_ok _
  | _ => exact faults_error trivial

theorem plain_apply (name : String) (args : List Value) :
    Faults Error.Plain (Library.apply name args) := by
  unfold Library.apply
  split
  case h_5 =>
    exact faults_bind (plain_asInt _) fun _ _ =>
      faults_bind (plain_asInt _) fun _ _ => faults_ok _
  case h_15 => exact plain_join _ _
  case h_17 => exact faults_error trivial
  all_goals exact faults_ok _

/-- The functions on texts speak of their arguments only. -/
theorem Library.discreet_strings : Library.strings.Discreet := by
  intro name args
  show Faults Error.Plain (strings.call name args)
  unfold strings
  dsimp only
  split
  · exact faults_error trivial
  · split
    · exact plain_apply name args
    · exact faults_error trivial

-- ============================================================== evaluation

section

variable {env : Environment}

/-- All libraries at hand are discreet. -/
def Environment.Discreet (env : Environment) : Prop :=
  ∀ uri l, env.library? uri = some l → l.Discreet

theorem apt_libraryOf (env : Environment) (q : String) :
    Faults (Error.Apt env) (env.libraryOf q) := by
  unfold Environment.libraryOf
  split
  · next h => exact faults_error h
  · next uri huri =>
    split
    · exact faults_error ⟨q, huri⟩
    · exact faults_ok _

theorem Environment.Discreet.libraryOf (h : env.Discreet) {q : String}
    {l : Library} (hl : env.libraryOf q = .ok l) : l.Discreet := by
  unfold Environment.libraryOf at hl
  split at hl
  · cases hl
  · split at hl
    · cases hl
    · next hfound =>
      cases hl
      exact h _ _ hfound

theorem Faults.apt {x : Except Error α} (h : Faults Error.Plain x)
    (env : Environment) : Faults (Error.Apt env) x :=
  h.mono fun _ he => he.apt env

theorem apt_binary (op : BinaryOp) {l r : Term}
    (hl : Faults (Error.Apt env) (l.eval env))
    (hr : Faults (Error.Apt env) (r.eval env)) :
    Faults (Error.Apt env) ((Term.binary op l r).eval env) := by
  have bool (v : Value) := (plain_asBool v).apt env
  cases op with
  | and =>
    rw [Term.eval]
    refine faults_bind hl fun v _ => faults_bind (bool v) fun b _ => ?_
    split
    · refine faults_bind hr fun w _ => faults_bind (bool w) fun _ _ => ?_
      exact faults_ok _
    · exact faults_ok _
  | or =>
    rw [Term.eval]
    refine faults_bind hl fun v _ => faults_bind (bool v) fun b _ => ?_
    split
    · exact faults_ok _
    · refine faults_bind hr fun w _ => faults_bind (bool w) fun _ _ => ?_
      exact faults_ok _
  | _ =>
    rw [eval_strict rfl]
    refine faults_bind hl fun v _ => faults_bind hr fun w _ => ?_
    exact (plain_applyBinary v w _).apt env

mutual

theorem apt_eval (h : env.Discreet) :
    ∀ t : Term, Faults (Error.Apt env) (t.eval env)
  | .literal l => by
    rw [Term.eval]
    exact faults_ok _
  | .variable name => by
    rw [Term.eval]
    split
    · exact faults_ok _
    · exact faults_error trivial
  | .array es => by
    rw [Term.eval]
    exact faults_bind (apt_evalItems h es) fun _ _ => faults_ok _
  | .object es => by
    rw [Term.eval]
    exact faults_bind (apt_evalEntries h es) fun _ _ => faults_ok _
  | .property e name => by
    rw [Term.eval]
    exact faults_bind (apt_eval h e) fun v _ => (plain_property v name).apt env
  | .index e i => by
    rw [Term.eval]
    refine faults_bind (apt_eval h e) fun v _ => ?_
    exact faults_bind (apt_eval h i) fun w _ => (plain_index v w).apt env
  | .call q name args => by
    rw [Term.eval]
    -- the qualifier is looked up before the arguments are evaluated
    refine faults_bind (apt_libraryOf env q) fun l hl => ?_
    refine faults_bind (apt_evalItems h args) fun vs _ => ?_
    exact Faults.apt (h.libraryOf hl name vs) env
  | .unary op e => by
    rw [Term.eval]
    exact faults_bind (apt_eval h e) fun v _ => (plain_applyUnary v op).apt env
  | .binary op l r => apt_binary op (apt_eval h l) (apt_eval h r)
  | .conditional test yes no => by
    rw [Term.eval]
    refine faults_bind (apt_eval h test) fun v _ => ?_
    refine faults_bind ((plain_asBool v).apt env) fun b _ => ?_
    split
    · exact apt_eval h yes
    · exact apt_eval h no

theorem apt_evalItems (h : env.Discreet) :
    ∀ es : List Term, Faults (Error.Apt env) (evalItems env es)
  | [] => by
    rw [evalItems]
    exact faults_ok _
  | e :: es => by
    rw [evalItems]
    refine faults_bind (apt_eval h e) fun _ _ => ?_
    exact faults_bind (apt_evalItems h es) fun _ _ => faults_ok _

theorem apt_evalEntries (h : env.Discreet) :
    ∀ es : List (String × Term), Faults (Error.Apt env) (evalEntries env es)
  | [] => by
    rw [evalEntries]
    exact faults_ok _
  | (_, e) :: es => by
    rw [evalEntries]
    refine faults_bind (apt_eval h e) fun _ _ => ?_
    exact faults_bind (apt_evalEntries h es) fun _ _ => faults_ok _

end

theorem apt_evaluate (h : env.Discreet) (text : String) :
    Faults (Error.Apt env) (evaluate env text) :=
  faults_bind ((plain_parse text).apt env) fun t _ => apt_eval h t

theorem apt_substituteFrom (h : env.Discreet) (whole : String)
    (s : List Char) : Faults (Error.Apt env) (substituteFrom env whole s) := by
  fun_induction substituteFrom env whole s with
  | case1 s hs => exact faults_ok _
  | case2 s before behind hs hescaped ih =>
    exact faults_bind ih fun _ _ => faults_ok _
  | case3 s before behind hs hescaped hopen => exact faults_error trivial
  | case4 s before behind hs hescaped body rest hbody ih =>
    refine faults_bind (apt_evaluate h _) fun _ _ => ?_
    exact faults_bind ih fun _ _ => faults_ok _

theorem apt_substitute (h : env.Discreet) (text : String) :
    Faults (Error.Apt env) (substitute env text) :=
  faults_map (apt_substituteFrom h text text.toList)

end

end Stencil.Expr
