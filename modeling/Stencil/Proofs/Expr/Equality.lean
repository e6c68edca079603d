/-
Equality from both sides.

Values of one kind are compared part by part, maps key by key: each entry has to
find an equal one on the other side. Where the keys of maps differ (`Value.Distinct`)
and there are as many on one side as on the other, the keys that are found are all
of them, so the other side finds the same (`sameEntries_swap`). Across kinds a
number is compared with a number, or a text with the name of a boolean, and that
has no sides. The induction is on what a value holds. The only values that are not
equal to themselves are the float that is no number and what holds it.
-/
import Mathlib.Data.List.Perm.Subperm
import Stencil.Proofs.Expr.Comparison
import Stencil.Proofs.Expr.Keys

namespace Stencil.Expr

variable {v w : Value} {vs ws : List Value} {es fs : List (String × Value)}

-- ==================================================================== entries

/-- Where keys differ, an entry is what its key looks up. -/
theorem lookup_of_mem {α : Type} {es : List (String × α)} {e : String × α}
    (hkeys : (es.map Prod.fst).Nodup) (he : e ∈ es) :
    es.lookup e.1 = some e.2 := by
  induction es with
  | nil => cases he
  | cons e' es ih =>
    obtain ⟨hnew, hrest⟩ := List.nodup_cons.1 hkeys
    rw [lookup_entry]
    rcases List.mem_cons.1 he with rfl | he
    · exact if_pos rfl
    · have hne : e.1 ≠ e'.1 := fun h => hnew (h ▸ List.mem_map_of_mem he)
      rw [if_neg hne]
      exact ih hrest he

theorem sameEntries_iff : Value.sameEntries es fs = true
    ↔ ∀ e ∈ es, ∃ w, fs.lookup e.1 = some w ∧ e.2.same w = true := by
  induction es with
  | nil => exact iff_of_true rfl (List.forall_mem_nil _)
  | cons e es ih =>
    rw [Value.sameEntries, Bool.and_eq_true, ih, List.forall_mem_cons]
    refine and_congr_left' ?_
    cases fs.lookup e.1 with
    | none => exact iff_of_false nofun nofun
    | some w => exact ⟨fun h => ⟨w, rfl, h⟩, fun ⟨_, rfl, h⟩ => h⟩

/-- Entries that find their likes among as many others are found by them. -/
theorem sameEntries_swap (hes : (es.map Prod.fst).Nodup)
    (hfs : (fs.map Prod.fst).Nodup) (hlength : es.length = fs.length)
    (hcomm : ∀ e ∈ es, ∀ f ∈ fs, e.2.same f.2 = f.2.same e.2)
    (hsame : Value.sameEntries es fs = true) :
    Value.sameEntries fs es = true := by
  rw [sameEntries_iff] at hsame ⊢
  have found : es.map Prod.fst ⊆ fs.map Prod.fst := by
    refine List.forall_mem_map.2 fun e he => ?_
    obtain ⟨w, hw, -⟩ := hsame e he
    exact List.mem_map.2 ⟨_, mem_of_lookup hw, rfl⟩
  have all : (es.map Prod.fst).Perm (fs.map Prod.fst) :=
    (List.subperm_of_subset hes found).perm_of_length_le <| by
      rw [List.length_map, List.length_map, hlength]
  intro f hf
  obtain ⟨e, he, hkey⟩ :=
    List.mem_map.1 (all.mem_iff.2 (List.mem_map_of_mem hf))
  obtain ⟨w, hw, heq⟩ := hsame e he
  cases (hw.symm.trans (hkey ▸ lookup_of_mem hfs hf) : some w = some f.2)
  exact ⟨e.2, hkey ▸ lookup_of_mem hes he, hcomm e he f hf ▸ heq⟩

/-- Maps are compared regardless of their order. -/
theorem sameMaps_comm (hes : (es.map Prod.fst).Nodup)
    (hfs : (fs.map Prod.fst).Nodup)
    (hcomm : ∀ e ∈ es, ∀ f ∈ fs, e.2.same f.2 = f.2.same e.2) :
    (Value.map es).same (.map fs) = (Value.map fs).same (.map es) := by
  rw [Value.same, Value.same, Bool.eq_iff_iff, Bool.and_eq_true,
    Bool.and_eq_true, beq_iff_eq, beq_iff_eq]
  constructor
  · exact fun ⟨hlength, hsame⟩ => ⟨hlength.symm,
      sameEntries_swap hes hfs hlength hcomm hsame⟩
  · exact fun ⟨hlength, hsame⟩ => ⟨hlength.symm,
      sameEntries_swap hfs hes hlength
        (fun f hf e he => (hcomm e he f hf).symm) hsame⟩

theorem sameItems_comm (h : ∀ v ∈ vs, ∀ w ∈ ws, v.same w = w.same v) :
    Value.sameItems vs ws = Value.sameItems ws vs := by
  induction vs generalizing ws with
  | nil => cases ws <;> rfl
  | cons v vs ih =>
    cases ws with
    | nil => rfl
    | cons w ws =>
      obtain ⟨hv, hvs⟩ := List.forall_mem_cons.1 h
      rw [Value.sameItems, Value.sameItems, hv w List.mem_cons_self,
        ih fun v hmem w hw => hvs v hmem w (List.mem_cons_of_mem _ hw)]

theorem sameItems_self (h : ∀ v ∈ vs, v.same v = true) :
    Value.sameItems vs vs = true := by
  induction vs with
  | nil => rfl
  | cons v vs ih =>
    obtain ⟨hv, hvs⟩ := List.forall_mem_cons.1 h
    rw [Value.sameItems, hv, ih hvs]
    rfl

-- ================================================================== same kind

theorem same_comm (hv : v.Distinct) (hw : w.Distinct) :
    v.same w = w.same v := by
  unfold Value.Distinct at hv
  -- on the levels of the first value: whatever it is compared with is distinct
  induction hv generalizing w with
  | @of v hkeys _ ih =>
    cases v with
    | null => cases w <;> rfl
    | bool b =>
      cases w with
      | bool c => exact BEq.comm
      | _ => rfl
    | int i =>
      cases w with
      | int j => exact BEq.comm
      | _ => rfl
    | float x =>
      cases w with
      | float y => exact Number.beq_comm x y
      | _ => rfl
    | string s =>
      cases w with
      | string t => exact BEq.comm
      | _ => rfl
    | array vs =>
      cases w with
      | array ws =>
        rw [Value.same, Value.same]
        exact sameItems_comm fun v hv w hmem => ih v hv (hw.within w hmem)
      | _ => rfl
    | map es =>
      cases w with
      | map fs =>
        refine sameMaps_comm hkeys hw.here fun e he f hf => ?_
        exact ih e.2 (List.mem_map_of_mem he) (hw.entry hf)
      | _ => rfl
    | element m =>
      cases w with
      | element n =>
        show m.same n = n.same m
        unfold Markup.Node.same
        rw [BEq.comm (a := m.origin), BEq.comm (a := m.id)]
      | _ => rfl

/-- Not the float that is no number. -/
def Value.NotNaN : Value → Prop
  | .float x => x.isNaN = false
  | _ => True

theorem same_self (hv : v.Distinct) (hnan : v.Throughout Value.NotNaN) :
    v.same v = true := by
  induction hnan with
  | @of v hnumber _ ih =>
    cases v with
    | null => rfl
    | bool b => exact BEq.rfl
    | int i => exact BEq.rfl
    | float x => exact Number.beq_self hnumber
    | string s => exact BEq.rfl
    | array vs =>
      rw [Value.same]
      exact sameItems_self fun v hmem => ih v hmem (hv.within v hmem)
    | map es =>
      rw [Value.same, Bool.and_eq_true]
      refine ⟨BEq.rfl, sameEntries_iff.2 fun e he => ?_⟩
      exact ⟨e.2, lookup_of_mem hv.here he,
        ih e.2 (List.mem_map_of_mem he) (hv.entry he)⟩
    | element n =>
      show n.same n = true
      unfold Markup.Node.same
      rw [BEq.rfl, BEq.rfl]
      rfl

/-- Whole numbers are the same as themselves only. -/
theorem Value.eq_int_of_same {i : Int64} (h : v.same (.int i) = true) :
    v = .int i := by
  cases v with
  | int j =>
    rw [Value.same, beq_iff_eq] at h
    rw [h]
  | _ => simp only [Value.same, Bool.false_eq_true] at h

-- =================================================================== all kinds

theorem sameNumber_comm (v w : Value) :
    Value.equal.sameNumber v w = Value.equal.sameNumber w v := by
  unfold Value.equal.sameNumber
  cases v.number? with
  | none => cases w.number? <;> rfl
  | some a =>
    cases w.number? with
    | none => rfl
    | some b => exact Number.beq_comm a.toFloat b.toFloat

theorem equal_comm (hv : v.Distinct) (hw : w.Distinct) :
    v.equal w = w.equal v := by
  have same := same_comm hv hw
  have number := sameNumber_comm v w
  -- a pair is compared in the same way as the pair turned round
  cases v with
  | null => cases w <;> rfl
  | bool b => cases w <;> first | rfl | exact same
  | int i =>
    cases w with
    | int j => exact same
    | float y => exact number
    | string t => exact number
    | _ => rfl
  | float x =>
    cases w with
    | int j => exact number
    | float y => exact number
    | string t => exact number
    | _ => rfl
  | string s =>
    cases w with
    | int j => exact number
    | float y => exact number
    | string t => exact same
    | _ => rfl
  | array vs => cases w <;> first | rfl | exact same
  | map es => cases w <;> first | rfl | exact same
  | element n => cases w <;> first | rfl | exact same

theorem equal_self (hv : v.Distinct) (hnan : v.Throughout Value.NotNaN) :
    v.equal v = true := by
  have same := same_self hv hnan
  cases v with
  | null => rfl
  | float x => exact Number.beq_self hnan.here
  | _ => exact same

-- ================================================================ main results

/-- Equality never fails, does not depend on the side, and has inequality as its
negation; and values that hold no NaN are equal to themselves. -/
theorem equality_symmetric_reflexive (env : Environment) (l r : Term)
    (v w : Value) (hl : l.eval env = .ok v) (hr : r.eval env = .ok w)
    (hv : v.Distinct) (hw : w.Distinct) :
    (∃ b, (Term.binary .equals l r).eval env = .ok (.bool b)
      ∧ (Term.binary .equals r l).eval env = .ok (.bool b)
      ∧ (Term.binary .notEquals l r).eval env = .ok (.bool !b)
      ∧ (Term.binary .notEquals r l).eval env = .ok (.bool !b))
    ∧ (v.Throughout Value.NotNaN →
      (Term.binary .equals l l).eval env = .ok (.bool true)) := by
  have hcomm := equal_comm hv hw
  refine ⟨⟨v.equal w, eval_binary rfl hl hr, ?_, eval_binary rfl hl hr, ?_⟩,
    fun hnan => ?_⟩
  · rw [eval_binary rfl hr hl, hcomm]
    rfl
  · rw [eval_binary rfl hr hl, hcomm]
    rfl
  · rw [eval_binary rfl hl hl, ← equal_self hv hnan]
    rfl

/-- Objects that differ in the order of their keys, one inside another. -/
theorem equality_symmetric_reflexive_nested :
    let inner : List (String × Term) :=
      [("x", .literal (.string "1")), ("y", .literal .null)]
    let l := Term.object [("a", .object inner), ("b", .array [.object inner])]
    let r := Term.object
      [("b", .array [.object inner.reverse]), ("a", .object inner.reverse)]
    let result (op : BinaryOp) (l r : Term) :=
      (Term.binary op l r).eval emptyEnvironment
    let object (es : List (String × Value)) := Value.map es
    let entries : List (String × Value) := [("x", .string "1"), ("y", .null)]
    let v := object [("a", object entries), ("b", .array [object entries])]
    let w := object [("b", .array [object entries.reverse]),
      ("a", object entries.reverse)]
    l.eval emptyEnvironment = .ok v ∧ r.eval emptyEnvironment = .ok w
    ∧ v.Distinct ∧ w.Distinct ∧ v.Throughout Value.NotNaN
    ∧ result .equals l r = .ok (.bool true)
    ∧ result .equals r l = .ok (.bool true)
    ∧ result .notEquals l r = .ok (.bool false)
    ∧ result .equals l l = .ok (.bool true) := by
  intro inner l r result object entries v w
  have henv : emptyEnvironment.Distinct := ⟨nofun, nofun⟩
  have hv : v.Distinct := distinct_eval henv l
    (by simp [l, inner, Term.Proper, ProperItems, ProperEntries,
      Literal.Proper]) v rfl
  have hw : w.Distinct := distinct_eval henv r
    (by simp [r, inner, Term.Proper, ProperItems, ProperEntries,
      Literal.Proper]) w rfl
  have flat {u : Value} (hu : u.NotNaN) (hparts : u.parts = []) :
      u.Throughout Value.NotNaN := by
    refine .of hu ?_
    rw [hparts]
    exact List.forall_mem_nil _
  have hinner : (object entries).Throughout Value.NotNaN :=
    .of trivial <| List.forall_mem_cons.2 ⟨flat trivial rfl,
      List.forall_mem_singleton.2 (flat trivial rfl)⟩
  have hnan : v.Throughout Value.NotNaN :=
    .of trivial <| List.forall_mem_cons.2 ⟨hinner,
      List.forall_mem_singleton.2 <| .of trivial <|
        List.forall_mem_singleton.2 hinner⟩
  obtain ⟨⟨b, hlr, hrl, hne, -⟩, hself⟩ := equality_symmetric_reflexive
    emptyEnvironment l r v w rfl rfl hv hw
  have hequal : result .equals l r = .ok (.bool true) := rfl
  cases hequal.symm.trans hlr
  exact ⟨rfl, rfl, hv, hw, hnan, hlr, hrl, hne, hself hnan⟩

end Stencil.Expr
