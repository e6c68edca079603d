/-
What readers of expressions take off, and what they give.

A reader calls the reader for inner expressions on shorter texts only. So two
readers for inner expressions that are `Alike` on shorter texts make readers
that are alike, and an expression is read with the whole grammar inside
(`readTerm_eq`). On the way: all that is taken off is even, and the terms that
are given are `Proper`.
-/
import Stencil.Proofs.Expr.Scanning

namespace Stencil.Expr

-- ============================================================ proper terms

/-- Literals are not negative: a sign is an operator. -/
def Literal.Proper : Literal → Prop
  | .int i => 0 ≤ i.toInt
  | _ => True

/-- The words that are read as something else where a namespace could
stand. -/
def wordsForOperand : List (List Char) :=
  [['n', 'o', 't'], ['e', 'm', 'p', 't', 'y'], ['t', 'r', 'u', 'e'],
   ['f', 'a', 'l', 's', 'e'], ['n', 'u', 'l', 'l']]

/-- A name that a namespace may have. -/
def isQualifier (name : List Char) : Bool :=
  isIdentifier name && !wordsForOperand.contains name

mutual

/-- Names are identifiers, and not words of the language where those are read
as something else; the keys of an object differ. -/
def Term.Proper : Term → Prop
  | .literal l => l.Proper
  | .variable name => isValidName name = true
  | .array es => ProperItems es
  | .object es => (es.map Prod.fst).Nodup ∧ ProperEntries es
  | .property e name => e.Proper ∧ isIdentifier name.toList = true
  | .index e i => e.Proper ∧ i.Proper
  | .call qualifier name args =>
    isQualifier qualifier.toList = true ∧ isIdentifier name.toList = true
      ∧ ProperItems args
  | .unary _ e => e.Proper
  | .binary _ l r => l.Proper ∧ r.Proper
  | .conditional test yes no => test.Proper ∧ yes.Proper ∧ no.Proper

def ProperItems : List Term → Prop
  | [] => True
  | e :: es => e.Proper ∧ ProperItems es

def ProperEntries : List (String × Term) → Prop
  | [] => True
  | (_, e) :: es => e.Proper ∧ ProperEntries es

end

theorem properItems_iff {es : List Term} :
    ProperItems es ↔ ∀ e ∈ es, e.Proper := by
  induction es with
  | nil => simp [ProperItems]
  | cons e es ih => simp [ProperItems, ih]

theorem properEntries_iff {es : List (String × Term)} :
    ProperEntries es ↔ ∀ e ∈ es, e.2.Proper := by
  induction es with
  | nil => simp [ProperEntries]
  | cons e es ih => simp [ProperEntries, ih]

-- ============================================================ entering keys

section

variable {α : Type}

theorem mem_enter {es : List (String × α)} {k : String} {v : α}
    {e : String × α} (h : e ∈ enter es k v) : e = (k, v) ∨ e ∈ es := by
  induction es with
  | nil => exact .inl (List.mem_singleton.1 h)
  | cons e' es ih =>
    rw [enter] at h
    split at h
    · exact (List.mem_cons.1 h).imp_right (List.mem_cons_of_mem _)
    · rcases List.mem_cons.1 h with rfl | h
      · exact .inr List.mem_cons_self
      · exact (ih h).imp_right (List.mem_cons_of_mem _)

theorem nodup_enter {es : List (String × α)} (h : (es.map Prod.fst).Nodup)
    (k : String) (v : α) : ((enter es k v).map Prod.fst).Nodup := by
  induction es with
  | nil => exact List.nodup_cons.2 ⟨List.not_mem_nil, .nil⟩
  | cons e es ih =>
    obtain ⟨hnew, hrest⟩ := List.nodup_cons.1 h
    rw [enter]
    split
    · next hk =>
      cases hk
      exact List.nodup_cons.2 ⟨hnew, hrest⟩
    · next hk =>
      refine List.nodup_cons.2 ⟨fun hmem => ?_, ih hrest⟩
      obtain ⟨e', he', hkey⟩ := List.mem_map.1 hmem
      rcases mem_enter he' with rfl | he'
      · exact hk hkey.symm
      · exact hnew (hkey ▸ List.mem_map_of_mem he')

theorem lookup_entry (es : List (String × α)) (k : String) (v : α)
    (x : String) :
    ((k, v) :: es).lookup x = if x = k then some v else es.lookup x := by
  by_cases hx : x = k
  · rw [if_pos hx, List.lookup_cons, beq_iff_eq.2 hx]
  · rw [if_neg hx, List.lookup_cons, beq_eq_false_iff_ne.2 hx]

/-- A key has the value that it is entered with last. -/
theorem lookup_enter (es : List (String × α)) (k : String) (v : α)
    (x : String) :
    (enter es k v).lookup x = if x = k then some v else es.lookup x := by
  induction es with
  | nil => exact lookup_entry [] k v x
  | cons e es ih =>
    obtain ⟨k', v'⟩ := e
    rw [enter]
    by_cases hk : k' = k
    · rw [if_pos hk, lookup_entry, lookup_entry, hk]
      split <;> rfl
    · rw [if_neg hk, lookup_entry, lookup_entry, ih]
      split
      · next hx => rw [if_neg fun h => hk (hx.symm.trans h)]
      · rfl

theorem enterAll_induction {P : List (String × α) → Prop} (hnil : P [])
    {es : List (String × α)}
    (hstep : ∀ acc, P acc → ∀ e ∈ es, P (enter acc e.1 e.2)) :
    P (enterAll es) :=
  List.foldlRecOn es _ hnil fun acc hacc e he => hstep acc hacc e he

/-- The keys of what is entered differ. -/
theorem nodup_enterAll (es : List (String × α)) :
    ((enterAll es).map Prod.fst).Nodup :=
  enterAll_induction (P := fun acc => (acc.map Prod.fst).Nodup) .nil
    fun _ hacc e _ => nodup_enter hacc e.1 e.2

theorem mem_enterAll {es : List (String × α)} :
    ∀ e ∈ enterAll es, e ∈ es := by
  refine enterAll_induction (P := fun acc => ∀ e ∈ acc, e ∈ es) nofun ?_
  intro acc hacc e he e' he'
  rcases mem_enter he' with rfl | he'
  · exact he
  · exact hacc e' he'

theorem enter_new {es : List (String × α)} {k : String}
    (h : k ∉ es.map Prod.fst) (v : α) : enter es k v = es ++ [(k, v)] := by
  induction es with
  | nil => rfl
  | cons e es ih =>
    obtain ⟨hk, hrest⟩ := not_or.1 fun hor => h (List.mem_cons.2 hor)
    rw [enter, if_neg (Ne.symm hk), ih hrest, List.cons_append]

/-- Entries whose keys differ are entered as they are. -/
theorem enterAll_of_nodup {es : List (String × α)}
    (h : (es.map Prod.fst).Nodup) : enterAll es = es := by
  have hbehind (acc es : List (String × α))
      (h : ((acc ++ es).map Prod.fst).Nodup) :
      es.foldl (fun acc e => enter acc e.1 e.2) acc = acc ++ es := by
    induction es generalizing acc with
    | nil => exact (List.append_nil acc).symm
    | cons e es ih =>
      have hnew : e.1 ∉ acc.map Prod.fst := by
        rw [List.map_append, List.map_cons] at h
        exact fun hmem =>
          (List.nodup_append.1 h).2.2 e.1 hmem e.1 List.mem_cons_self rfl
      rw [List.append_cons] at h ⊢
      rw [List.foldl_cons, enter_new hnew]
      exact ih _ h
  exact hbehind [] es h

end

-- ============================================================ alike readers

section

variable {α β : Type} {s : List Char} {Q : α → Prop}

/-- Two readings of one text are equal, and what they take off is even and
what they give has a property. -/
structure Like (s : List Char) (Q : α → Prop)
    (o o' : Option (α × List Char)) : Prop where
  eq : o = o'
  taken : ∀ {x r}, o' = some (x, r) → Taken s r
  given : ∀ {x r}, o' = some (x, r) → Q x

namespace Like

theorem none : Like s Q none none := ⟨rfl, nofun, nofun⟩

theorem some {x : α} {r : List Char} (hr : Taken s r) (hx : Q x) :
    Like s Q (some (x, r)) (some (x, r)) := by
  refine ⟨rfl, fun h => ?_, fun h => ?_⟩ <;> cases h
  · exact hr
  · exact hx

theorem bind {o o' : Option β} {f f' : β → Option (α × List Char)}
    (ho : o = o') (hf : ∀ x, o' = .some x → Like s Q (f x) (f' x)) :
    Like s Q (o >>= f) (o' >>= f') := by
  subst ho
  cases ho : o with
  | none => exact none
  | some x => exact hf x ho

theorem orElse {o o' p p' : Option (α × List Char)} (ho : Like s Q o o')
    (hp : o' = .none → Like s Q p p') : Like s Q (o <|> p) (o' <|> p') := by
  obtain ⟨rfl, ht, hq⟩ := ho
  cases o with
  | none => exact hp rfl
  | some x => exact ⟨rfl, ht, hq⟩

theorem map {Q' : β → Prop} {o o' : Option (α × List Char)} (h : Like s Q o o')
    (φ : α → β) (hφ : ∀ x, Q x → Q' (φ x)) :
    Like s Q' (o.map fun (x, r) => (φ x, r)) (o'.map fun (x, r) => (φ x, r)) := by
  obtain ⟨rfl, ht, hq⟩ := h
  cases o with
  | none => exact none
  | some x => exact some (ht rfl) (hφ _ (hq rfl))

/-- The text may be longer in front. -/
theorem before {t : List Char} {o o' : Option (α × List Char)}
    (h : Like s Q o o') (ht : Taken t s) : Like t Q o o' :=
  ⟨h.eq, fun ho => ht.trans (h.taken ho), h.given⟩

theorem of_taken {o : Option (α × List Char)}
    (h : ∀ {x r}, o = .some (x, r) → Taken s r ∧ Q x) : Like s Q o o :=
  ⟨rfl, fun ho => (h ho).1, fun ho => (h ho).2⟩

end Like

/-- Two readers are alike on texts shorter than `k`. -/
def Alike (k : Nat) (Q : α → Prop) (f g : Reader α) : Prop :=
  ∀ s, s.length < k → Like s Q (f s) (g s)

end

variable {k : Nat} {f g : Reader Term} {s : List Char}

-- ================================================================== lists

section

variable {α : Type} {Q : α → Prop} {item item' : Reader α}

/-- An item behind a mark. -/
theorem Alike.behind (h : Alike k Q item item') {c : Char} {r : List Char}
    (hs : s.length ≤ k) (hr : mark? c s = some r) :
    Like r Q (item r) (item' r) :=
  h r (Nat.lt_of_lt_of_le (length_lt_of_mark hr) hs)

theorem readMore_eq {item : Reader α}
    (h : ∀ x r, (mark? ',' s).bind item = some (x, r) → r.length < s.length) :
    readMore item s
      = match (mark? ',' s).bind item with
        | none => ([], s)
        | some (x, r) => (x :: (readMore item r).1, (readMore item r).2) := by
  rw [readMore]
  cases hb : (mark? ',' s).bind item with
  | none => rfl
  | some p =>
    obtain ⟨x, r⟩ := p
    exact dif_pos (h x r hb)

theorem Alike.readMore (h : Alike k Q item item') (s : List Char)
    (hs : s.length ≤ k) :
    Like s (∀ x ∈ ·, Q x) (some (readMore item s))
      (some (readMore item' s)) := by
  have hitem : (mark? ',' s).bind item = (mark? ',' s).bind item' := by
    cases hr : mark? ',' s with
    | none => rfl
    | some r => exact (h.behind hs hr).eq
  have hread {x : α} {r : List Char}
      (hb : (mark? ',' s).bind item' = some (x, r)) :
      Taken s r ∧ r.length < s.length ∧ Q x := by
    obtain ⟨r', hr, hb⟩ := Option.bind_eq_some_iff.1 hb
    have hbehind := h.behind hs hr
    have htaken := hbehind.taken hb
    exact ⟨(taken_mark (by decide) hr).trans htaken,
      Nat.lt_of_le_of_lt htaken.length_le (length_lt_of_mark hr),
      hbehind.given hb⟩
  rw [readMore_eq fun x r hb => (hread (hitem ▸ hb)).2.1,
    readMore_eq fun x r hb => (hread hb).2.1, hitem]
  cases hb : (mark? ',' s).bind item' with
  | none => exact .some (.refl s) nofun
  | some p =>
    obtain ⟨x, r⟩ := p
    obtain ⟨htaken, hlt, hx⟩ := hread hb
    -- the item was taken off, so what is left is shorter
    have hrest := Alike.readMore h r (by omega)
    refine .before ?_ htaken
    exact hrest.map (x :: ·) fun xs hxs => List.forall_mem_cons.2 ⟨hx, hxs⟩
termination_by s.length

theorem Alike.readItems (h : Alike k Q item item') (hs : s.length < k) :
    Like s (∀ x ∈ ·, Q x) (some (readItems item s))
      (some (readItems item' s)) := by
  have hitem := h s hs
  unfold Expr.readItems
  rw [hitem.eq]
  cases hb : item' s with
  | none => exact .some (.refl s) nofun
  | some p =>
    obtain ⟨x, r⟩ := p
    have htaken := hitem.taken hb
    have hrest := h.readMore r (Nat.le_trans htaken.length_le (by omega))
    refine .before ?_ htaken
    exact hrest.map (x :: ·) fun xs hxs =>
      List.forall_mem_cons.2 ⟨hitem.given hb, hxs⟩

/-- Items between brackets, if what is taken with them is even. -/
theorem Alike.readBracketed (h : Alike k Q item item') {o c : Char}
    (heven : ∀ {r r' rest}, mark? o s = some r → Taken r r' →
      mark? c r' = some rest → Taken s rest) (hs : s.length ≤ k) :
    Like s (∀ x ∈ ·, Q x) (readBracketed o c item s)
      (readBracketed o c item' s) := by
  refine .bind rfl fun r hr => ?_
  have hitems := h.readItems (Nat.lt_of_lt_of_le (length_lt_of_mark hr) hs)
  have heq := Option.some.inj hitems.eq
  rw [heq]
  refine .bind rfl fun rest hrest => ?_
  exact .some (heven hr (hitems.taken rfl) hrest) (hitems.given rfl)

/-- Brackets that are no braces. -/
theorem taken_brackets {opening closing : Char} (hopening : Plain opening)
    (hclosing : Plain closing) {r r' rest : List Char}
    (hr : mark? opening s = some r) (htaken : Taken r r')
    (hrest : mark? closing r' = some rest) : Taken s rest :=
  (taken_mark hopening hr).trans (htaken.trans (taken_mark hclosing hrest))

end

-- ================================================================ literals

/-- Digits have no sign. -/
theorem splitSign_of_digits {s : List Char} (h : s.all Char.isDigit = true) :
    Number.splitSign s = (false, s) := by
  unfold Number.splitSign
  split
  · cases h
  · cases h
  · rfl

theorem proper_numberLiteral {digits fraction exponent : List Char}
    {l : Literal} (hdigits : digits.all Char.isDigit = true)
    (h : numberLiteral digits fraction exponent = some l) : l.Proper := by
  have hfloat {o : Option Float} (ho : o.map Literal.float = some l) :
      l.Proper := by
    obtain ⟨f, -, rfl⟩ := Option.map_eq_some_iff.1 ho
    exact trivial
  unfold numberLiteral at h
  dsimp only at h
  split at h
  · next hempty =>
    obtain ⟨hfraction, hexponent⟩ := Bool.and_eq_true_iff.1 hempty
    cases List.isEmpty_iff.1 hfraction
    cases List.isEmpty_iff.1 hexponent
    rw [List.append_nil, List.append_nil] at h
    split at h
    · next i hi =>
      cases h
      -- digits alone have no sign, so the number is not negative
      unfold Number.readWhole? at hi
      rw [splitSign_of_digits hdigits] at hi
      dsimp only at hi
      split at hi
      · cases hi
      · rw [if_neg Bool.false_ne_true, Number.whole?_eq_some] at hi
        show 0 ≤ i.toInt
        rw [hi]
        exact Int.natCast_nonneg _
    · exact hfloat h
  · exact hfloat h

theorem proper_number {r : List Char} {l : Literal}
    (h : readNumber s = some (l, r)) : l.Proper := by
  unfold readNumber at h
  dsimp only at h
  split at h
  · cases h
  · obtain ⟨l', hl, heq⟩ := Option.map_eq_some_iff.1 h
    cases heq
    exact proper_numberLiteral List.all_takeWhile hl

/-- A literal that is read has no sign. -/
theorem proper_literal {r : List Char} {l : Literal}
    (h : readLiteral s = some (l, r)) : l.Proper := by
  unfold readLiteral readConstant at h
  simp only [Option.orElse_eq_some] at h
  rcases h with h | ⟨-, h | ⟨-, h | ⟨-, h | ⟨-, h⟩⟩⟩⟩
  · exact proper_number h
  all_goals
    obtain ⟨_, -, heq⟩ := Option.map_eq_some_iff.1 h
    cases heq
    exact trivial

-- =============================================================== primary

theorem Alike.readGroup (h : Alike k Term.Proper f g) (hs : s.length ≤ k) :
    Like s Term.Proper (readGroup f s) (readGroup g s) := by
  refine .bind rfl fun r hr => ?_
  have hinner := h.behind hs hr
  refine .bind hinner.eq fun (e, r') he => ?_
  refine .bind rfl fun rest hrest => ?_
  exact .some (taken_brackets (by decide) (by decide) hr (hinner.taken he) hrest)
    (hinner.given he)

theorem taken_colon {r : List Char} (h : strip? [':'] s = some r) :
    Taken s r ∧ r.length < s.length := by
  cases strip?_eq_some.1 h
  exact ⟨.of_plain (plain_token rfl) r, Nat.lt_succ_self _⟩

theorem Alike.readEntry (h : Alike k Term.Proper f g) (hs : s.length ≤ k) :
    Like s (fun e => e.2.Proper) (readEntry f s) (readEntry g s) := by
  refine .bind rfl fun (key, r) hkey => ?_
  have htaken : Taken s r := by
    refine (taken_skipSpace s).trans ?_
    rcases (Option.orElse_eq_some _ _ _).1 hkey with hkey | ⟨-, hkey⟩
    · exact taken_string hkey
    · obtain ⟨⟨name, r'⟩, hname, heq⟩ := Option.map_eq_some_iff.1 hkey
      cases heq
      exact taken_identifier hname
  refine .bind rfl fun r' hr' => ?_
  obtain ⟨hcolon, hlt⟩ := taken_colon hr'
  have htaken' := htaken.trans ((taken_skipSpace r).trans hcolon)
  have hinner := h r' (by
    have := (htaken.trans (taken_skipSpace r)).length_le
    omega)
  refine .bind hinner.eq fun (e, rest) he => ?_
  exact .some (htaken'.trans (hinner.taken he)) (hinner.given he)

/-- A word that begins neither a literal nor an operand is no such word. -/
theorem isQualifier_of_unread {name r : List Char}
    (hname : readIdentifier s = some (name, r))
    (hliteral : readLiteral s = none) (hop : readPrefixOp s = none) :
    isQualifier name = true := by
  obtain ⟨rfl, hidentifier, hhead⟩ := readIdentifier_eq_some hname
  have hword : stripWord? name (name ++ r) = some r :=
    stripWord?_eq_some.2 ⟨rfl, hhead⟩
  unfold readLiteral readConstant at hliteral
  unfold readPrefixOp at hop
  simp only [Option.orElse_eq_none, Option.map_eq_none_iff] at hliteral hop
  obtain ⟨-, -, htrue, hfalse, hnull⟩ := hliteral
  obtain ⟨-, -, hnot, hempty⟩ := hop
  -- each of these words would have been read as a literal or an operator
  have hfresh : name ∉ wordsForOperand := by
    intro hmem
    simp only [wordsForOperand, List.mem_cons, List.not_mem_nil, or_false]
      at hmem
    rcases hmem with rfl | rfl | rfl | rfl | rfl
    · exact nomatch hnot.symm.trans hword
    · exact nomatch hempty.symm.trans hword
    · exact nomatch htrue.symm.trans hword
    · exact nomatch hfalse.symm.trans hword
    · exact nomatch hnull.symm.trans hword
  rw [isQualifier, hidentifier, Bool.true_and, Bool.not_eq_true']
  simpa using hfresh

theorem Alike.readCall (h : Alike k Term.Proper f g) (hs : s.length ≤ k)
    (hliteral : readLiteral s = none) (hop : readPrefixOp s = none) :
    Like s Term.Proper (readCall f s) (readCall g s) := by
  refine .bind rfl fun (qualifier, r₁) hqualifier => ?_
  refine .bind rfl fun r₂ hr₂ => ?_
  refine .bind rfl fun (name, r₃) hname => ?_
  have htaken : Taken s r₃ := (taken_identifier hqualifier).trans
    ((taken_colon hr₂).1.trans (taken_identifier hname))
  have hargs := h.readBracketed (s := r₃) (o := '(') (c := ')')
    (taken_brackets (by decide) (by decide))
    (Nat.le_trans htaken.length_le hs)
  refine .bind hargs.eq fun (args, rest) hargs' => ?_
  refine .some (htaken.trans (hargs.taken hargs')) ?_
  refine ⟨?_, ?_, properItems_iff.2 (hargs.given hargs')⟩
  · rw [String.toList_ofList]
    exact isQualifier_of_unread hqualifier hliteral hop
  · rw [String.toList_ofList]
    exact (readIdentifier_eq_some hname).2.1

theorem like_readVariable (s : List Char) :
    Like s Term.Proper (readVariable s) (readVariable s) := by
  refine .bind rfl fun (name, r) hname => ?_
  obtain ⟨-, hidentifier, -⟩ := readIdentifier_eq_some hname
  dsimp only
  split
  · exact .none
  · next hreserved =>
    refine .some (taken_identifier hname) ?_
    show isValidName (String.ofList name) = true
    rw [isValidName, String.toList_ofList, hidentifier]
    simpa using hreserved

theorem Alike.readPrimary (h : Alike k Term.Proper f g) (hs : s.length ≤ k)
    (hop : readPrefixOp s = none) :
    Like s Term.Proper (readPrimary f s) (readPrimary g s) := by
  refine .orElse (h.readGroup hs) fun _ => ?_
  refine .orElse ?_ fun hliteral => ?_
  · have hread : Like s Literal.Proper (readLiteral s) (readLiteral s) :=
      .of_taken fun hl => ⟨taken_literal hl, proper_literal hl⟩
    exact hread.map Term.literal fun _ hl => hl
  refine .orElse ?_ fun _ => ?_
  · have hread := h.readBracketed (s := s) (o := '[') (c := ']')
      (taken_brackets (by decide) (by decide)) hs
    exact hread.map Term.array fun _ hes => properItems_iff.2 hes
  refine .orElse ?_ fun _ => ?_
  · have hentry : Alike k (fun e : String × Term => e.2.Proper)
        (Expr.readEntry f) (Expr.readEntry g) :=
      fun r hr => h.readEntry (Nat.le_of_lt hr)
    have hread := hentry.readBracketed (s := s) taken_braces hs
    refine hread.map (fun es => Term.object (enterAll es)) fun es hes => ?_
    exact ⟨nodup_enterAll es,
      properEntries_iff.2 fun e he => hes e (mem_enterAll e he)⟩
  refine .orElse ?_ fun _ => like_readVariable s
  exact h.readCall hs (by simpa using hliteral) hop

-- =============================================================== accessors

variable {target : Term}

theorem Alike.readAccessor (h : Alike k Term.Proper f g) (hs : s.length ≤ k)
    (ht : target.Proper) :
    Like s Term.Proper (readAccessor f target s)
      (readAccessor g target s) := by
  refine .orElse ?_ fun _ => ?_
  · refine .bind rfl fun r hr => ?_
    refine .bind rfl fun (name, rest) hname => ?_
    refine .some ((taken_mark (by decide) hr).trans (taken_identifier hname)) ?_
    refine ⟨ht, ?_⟩
    rw [String.toList_ofList]
    exact (readIdentifier_eq_some hname).2.1
  · refine .bind rfl fun r hr => ?_
    have hinner := h.behind hs hr
    refine .bind hinner.eq fun (i, r') hi => ?_
    refine .bind rfl fun rest hrest => ?_
    exact .some
      (taken_brackets (by decide) (by decide) hr (hinner.taken hi) hrest)
      ⟨ht, hinner.given hi⟩

/-- An accessor is not empty. -/
theorem Alike.length_lt_of_readAccessor (h : Alike k Term.Proper f g)
    (hs : s.length ≤ k) {e : Term} {r : List Char}
    (he : Expr.readAccessor g target s = some (e, r)) :
    r.length < s.length := by
  rcases (Option.orElse_eq_some _ _ _).1 he with he | ⟨-, he⟩
  · obtain ⟨r₁, hr₁, he⟩ := Option.bind_eq_some_iff.1 he
    obtain ⟨⟨name, r₂⟩, hname, he⟩ := Option.bind_eq_some_iff.1 he
    cases he
    exact Nat.lt_of_le_of_lt (taken_identifier hname).length_le
      (length_lt_of_mark hr₁)
  · obtain ⟨r₁, hr₁, he⟩ := Option.bind_eq_some_iff.1 he
    obtain ⟨⟨i, r₂⟩, hi, he⟩ := Option.bind_eq_some_iff.1 he
    obtain ⟨r₃, hr₃, he⟩ := Option.bind_eq_some_iff.1 he
    cases he
    have hle := ((h.behind hs hr₁).taken hi).length_le
    have hopen := length_lt_of_mark hr₁
    have hclose := length_lt_of_mark hr₃
    omega

theorem readAccessors_eq {f : Reader Term}
    (h : ∀ e r, readAccessor f target s = some (e, r) → r.length < s.length) :
    readAccessors f target s
      = match readAccessor f target s with
        | none => (target, s)
        | some (e, r) => readAccessors f e r := by
  rw [readAccessors]
  cases hb : readAccessor f target s with
  | none => rfl
  | some p => exact dif_pos (h p.1 p.2 hb)

theorem Alike.readAccessors (h : Alike k Term.Proper f g) {target : Term}
    (ht : target.Proper) (s : List Char) (hs : s.length ≤ k) :
    Like s Term.Proper (some (readAccessors f target s))
      (some (readAccessors g target s)) := by
  have hread := h.readAccessor hs ht
  rw [readAccessors_eq fun e r he =>
      h.length_lt_of_readAccessor hs (hread.eq ▸ he),
    readAccessors_eq fun e r he => h.length_lt_of_readAccessor hs he, hread.eq]
  cases hb : Expr.readAccessor g target s with
  | none => exact .some (.refl s) ht
  | some p =>
    obtain ⟨e, r⟩ := p
    have hlt := h.length_lt_of_readAccessor hs hb
    have hrest := Alike.readAccessors h (hread.given hb) r (by omega)
    exact hrest.before (hread.taken hb)
termination_by s.length

theorem readPrefixOp_skipSpace (s : List Char) :
    readPrefixOp (skipSpace s) = readPrefixOp s := by
  unfold readPrefixOp
  rw [skipSpace_skipSpace]

theorem Alike.readPostfix (h : Alike k Term.Proper f g) (hs : s.length ≤ k)
    (hop : readPrefixOp s = none) :
    Like s Term.Proper (readPostfix f s) (readPostfix g s) := by
  have hspace := taken_skipSpace s
  have hread := h.readPrimary (s := skipSpace s)
    (Nat.le_trans hspace.length_le hs) ((readPrefixOp_skipSpace s).trans hop)
  refine .bind hread.eq fun (e, r) he => ?_
  have htaken := hspace.trans ((hread.taken he).trans (taken_skipSpace r))
  have hrest := h.readAccessors (hread.given he) (skipSpace r)
    (Nat.le_trans htaken.length_le hs)
  exact hrest.before htaken

-- ================================================================ operators

theorem readUnary_eq (operand : Reader Term) (s : List Char) :
    readUnary operand s
      = match readPrefixOp s with
        | none => operand s
        | some (op, r) =>
          (readUnary operand r).map fun (e, r) => (.unary op e, r) := by
  rw [readUnary]
  cases hop : readPrefixOp s with
  | none => rfl
  | some p => exact dif_pos (taken_prefixOp hop).2

theorem Alike.readUnary (h : Alike k Term.Proper f g) (s : List Char)
    (hs : s.length ≤ k) :
    Like s Term.Proper (Expr.readUnary (Expr.readPostfix f) s)
      (Expr.readUnary (Expr.readPostfix g) s) := by
  rw [readUnary_eq, readUnary_eq]
  cases hop : readPrefixOp s with
  | none => exact h.readPostfix hs hop
  | some p =>
    obtain ⟨op, r⟩ := p
    obtain ⟨htaken, hlt⟩ := taken_prefixOp hop
    have hrest := Alike.readUnary h r (by omega)
    exact (hrest.map (Term.unary op) fun _ he => he).before htaken
termination_by s.length

theorem readChain_eq {level : Level} (hl : level ∈ levels)
    {operand : Reader Term} {left : Term}
    (h : ∀ t x r, t.length < s.length → operand t = some (x, r) →
      r.length ≤ t.length) :
    readChain level operand left s
      = match readOperator level s with
        | none => (left, s)
        | some (op, r) =>
          match operand r with
          | none => (left, s)
          | some (right, r) =>
            readChain level operand (.binary op left right) r := by
  rw [readChain]
  cases hop : readOperator level s with
  | none => rfl
  | some p =>
    obtain ⟨op, r⟩ := p
    dsimp only
    cases hr : operand r with
    | none => rfl
    | some q =>
      -- the guard holds: the operator takes something, and the operand adds
      -- nothing
      have hlt := (taken_operator hl hop).2
      have hle := h r q.1 q.2 hlt hr
      exact dif_pos (by omega)

theorem Alike.readChain (h : Alike k Term.Proper f g) {level : Level}
    (hl : level ∈ levels) {left : Term} (hleft : left.Proper) (s : List Char)
    (hs : s.length < k) :
    Like s Term.Proper (some (readChain level f left s))
      (some (readChain level g left s)) := by
  have hshorter (t : List Char) (x : Term) (r : List Char)
      (ht : t.length < s.length) (hr : g t = some (x, r)) :
      r.length ≤ t.length :=
    ((h t (by omega)).taken hr).length_le
  -- the guards hold on both sides, so both are opened alike
  rw [readChain_eq hl fun t x r ht hr =>
      hshorter t x r ht ((h t (by omega)).eq ▸ hr),
    readChain_eq hl hshorter]
  cases hop : readOperator level s with
  | none => exact .some (.refl s) hleft
  | some p =>
    obtain ⟨op, r⟩ := p
    obtain ⟨htaken, hlt⟩ := taken_operator hl hop
    have hoperand := h r (by omega)
    dsimp only
    rw [hoperand.eq]
    cases hr : g r with
    | none => exact .some (.refl s) hleft
    | some q =>
      obtain ⟨right, r'⟩ := q
      have hright := hoperand.taken hr
      have hle := hright.length_le
      have hboth : (Term.binary op left right).Proper :=
        ⟨hleft, hoperand.given hr⟩
      have hrest := Alike.readChain h hl hboth r' (by omega)
      exact hrest.before (htaken.trans hright)
termination_by s.length

theorem Alike.readBinary (h : Alike k Term.Proper f g) {level : Level}
    (hl : level ∈ levels) :
    Alike k Term.Proper (readBinary level f) (readBinary level g) := by
  intro s hs
  have hoperand := h s hs
  unfold Expr.readBinary
  rw [hoperand.eq]
  cases hr : g s with
  | none => exact .none
  | some p =>
    obtain ⟨left, r⟩ := p
    have htaken := hoperand.taken hr
    have hrest := h.readChain hl (hoperand.given hr) r
      (Nat.lt_of_le_of_lt htaken.length_le hs)
    exact hrest.before htaken

theorem Alike.readLevels (h : Alike k Term.Proper f g) {ls : List Level}
    (hls : ls ⊆ levels) :
    Alike k Term.Proper (ls.foldr Expr.readBinary f)
      (ls.foldr Expr.readBinary g) := by
  induction ls with
  | nil => exact h
  | cons level ls ih =>
    obtain ⟨hl, hls⟩ := List.cons_subset.1 hls
    exact (ih hls).readBinary hl

/-- The branches of a conditional. -/
theorem Alike.readBranches (h : Alike k Term.Proper f g) (hs : s.length ≤ k) :
    Like s (fun b : Term × Term => b.1.Proper ∧ b.2.Proper)
      (readBranches f s) (readBranches g s) := by
  refine .bind rfl fun r hr => ?_
  have hyes := h.behind hs hr
  refine .bind hyes.eq fun (yes, r') hyes' => ?_
  refine .bind rfl fun r'' hr'' => ?_
  have htaken := (taken_mark (by decide) hr).trans (hyes.taken hyes')
  have hno := h.behind (Nat.le_trans htaken.length_le hs) hr''
  refine .bind hno.eq fun (no, rest) hno' => ?_
  exact .some
    (htaken.trans ((taken_mark (by decide) hr'').trans (hno.taken hno')))
    ⟨hyes.given hyes', hno.given hno'⟩

/-- Readers for inner expressions that are alike make readers of whole ones
that are alike, on longer texts. -/
theorem Alike.readWith (h : Alike k Term.Proper f g) :
    Alike (k + 1) Term.Proper (readWith f) (readWith g) := by
  intro s hs
  have hoperand : Alike (k + 1) Term.Proper
      (Expr.readUnary (Expr.readPostfix f))
      (Expr.readUnary (Expr.readPostfix g)) :=
    fun t ht => h.readUnary t (Nat.le_of_lt_succ ht)
  have htest := hoperand.readLevels (List.Subset.refl levels) s hs
  refine .bind htest.eq fun (test, r) ht => ?_
  have htaken := htest.taken ht
  have hbranches := h.readBranches (s := r)
    (Nat.le_trans htaken.length_le (Nat.le_of_lt_succ hs))
  dsimp only
  rw [hbranches.eq]
  cases hb : Expr.readBranches g r with
  | none => exact .some htaken (htest.given ht)
  | some q =>
    obtain ⟨⟨yes, no⟩, rest⟩ := q
    obtain ⟨hyes, hno⟩ := hbranches.given hb
    exact .some (htaken.trans (hbranches.taken hb))
      ⟨htest.given ht, hyes, hno⟩

-- ============================================================= main results

theorem readTerm_like (s : List Char) :
    Like s Term.Proper (readTerm s) (readWith readTerm s) := by
  -- by induction on the length: the reader inside is called on shorter texts,
  -- where its guard holds
  have hinner : Alike s.length Term.Proper
      (fun r => if _ : r.length < s.length then readTerm r else none)
      readTerm := by
    intro r hr
    have hread := readTerm_like r
    dsimp only
    rw [dif_pos hr]
    exact ⟨rfl, fun he => hread.taken (hread.eq ▸ he),
      fun he => hread.given (hread.eq ▸ he)⟩
  rw [readTerm]
  exact hinner.readWith s (Nat.lt_succ_self _)
termination_by s.length

/-- An expression is read with the whole grammar inside. -/
theorem readTerm_eq (s : List Char) : readTerm s = readWith readTerm s :=
  (readTerm_like s).eq

/-- What is taken off with an expression is even, and the expression is
proper. -/
theorem readTerm_ok {s r : List Char} {e : Term}
    (h : readTerm s = some (e, r)) : Taken s r ∧ e.Proper :=
  have hread := readTerm_like s
  ⟨hread.taken (hread.eq ▸ h), hread.given (hread.eq ▸ h)⟩

theorem alike_readTerm (k : Nat) : Alike k Term.Proper readTerm readTerm :=
  fun _ _ => .of_taken readTerm_ok

end Stencil.Expr
