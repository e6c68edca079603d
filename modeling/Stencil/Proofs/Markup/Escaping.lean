/-
Escaped text is read back.

Both escapings leave a character as it is or put a reference by one of the
five names in its place. Names hold nothing that ends a reference or begins
one, so a reader finds exactly the name again.
-/
import Stencil.Markup.Entity

namespace Stencil.Markup

open Text (width)

-- ==================================================================== names

/-- What the name of an entity is made of. -/
theorem plain_of_predefined? {name : List Char} {c : Char}
    (h : predefined? name = some c) :
    ∀ d ∈ name, d ≠ '&' ∧ d ≠ ';' ∧ d ≠ '<' ∧ d ≠ '#' := by
  unfold predefined? at h
  split at h
  all_goals cases h
  all_goals simp

/-- A name of an entity stands for the same character wherever it is
referred to. -/
theorem referenced?_of_predefined? {name : List Char} {c : Char}
    (h : predefined? name = some c) : referenced? name = some c := by
  unfold predefined? at h
  split at h
  all_goals first | exact h | cases h

/-- A character is escaped as itself, or by its name. -/
def Escapes (escape : Char → List Char) (plain : Char → Prop) : Prop :=
  ∀ c, (escape c = [c] ∧ plain c)
    ∨ ∃ name, escape c = '&' :: (name ++ [';']) ∧ predefined? name = some c

theorem escapes_escapeChar :
    Escapes escapeChar fun c => c ≠ '&' ∧ c ≠ '"' := by
  intro c
  unfold escapeChar
  split
  · exact .inr ⟨['l', 't'], rfl, rfl⟩
  · exact .inr ⟨['g', 't'], rfl, rfl⟩
  · exact .inr ⟨['a', 'm', 'p'], rfl, rfl⟩
  · exact .inr ⟨['a', 'p', 'o', 's'], rfl, rfl⟩
  · exact .inr ⟨['q', 'u', 'o', 't'], rfl, rfl⟩
  · next hamp _ hquot => exact .inl ⟨rfl, hamp, hquot⟩

theorem escapes_escapeTextChar :
    Escapes escapeTextChar fun c => c ≠ '&' ∧ c ≠ '<' := by
  intro c
  unfold escapeTextChar
  split
  · exact .inr ⟨['l', 't'], rfl, rfl⟩
  · exact .inr ⟨['g', 't'], rfl, rfl⟩
  · exact .inr ⟨['a', 'm', 'p'], rfl, rfl⟩
  · next hlt _ hamp => exact .inl ⟨rfl, hamp, hlt⟩

/-- What no name has and no character is left as does not stand in what is
escaped. -/
theorem Escapes.not_mem {escape : Char → List Char} {plain : Char → Prop}
    (h : Escapes escape plain) {d : Char} (hd : d ≠ '&' ∧ d ≠ ';')
    (hplain : ¬ plain d)
    (hname : ∀ name c, predefined? name = some c → d ∉ name)
    (s : List Char) : d ∉ s.flatMap escape := by
  intro hmem
  obtain ⟨c, -, hc⟩ := List.mem_flatMap.1 hmem
  rcases h c with ⟨heq, hp⟩ | ⟨name, heq, hn⟩
  · rw [heq] at hc
    cases List.mem_singleton.1 hc
    exact hplain hp
  · rw [heq] at hc
    rcases List.mem_cons.1 hc with hc | hc
    · exact hd.1 hc
    rcases List.mem_append.1 hc with hc | hc
    · exact hname name c hn hc
    · exact hd.2 (List.mem_singleton.1 hc)

/-- An escaped value does not end between its quotes. -/
theorem quote_not_mem_escaped (s : List Char) :
    '"' ∉ s.flatMap escapeChar := by
  refine escapes_escapeChar.not_mem (by decide) (fun h => h.2 rfl) ?_ s
  intro name c h
  unfold predefined? at h
  split at h
  all_goals cases h
  all_goals simp

-- ========================================================= attribute values

theorem entityName_append {name : List Char} {c : Char}
    (h : predefined? name = some c) (rest : List Char) :
    entityName (name ++ ';' :: rest) = name := by
  unfold entityName
  have hall : ∀ d ∈ name, (d != '&' && d != ';') = true := by
    intro d hd
    have hne := plain_of_predefined? h d hd
    simp [hne.1, hne.2.1]
  rw [List.takeWhile_append_of_pos hall]
  exact List.append_nil name

/-- What belongs to a reference is passed over. -/
theorem unescapeFrom_skip (size : Nat) (p s : List Char) (pos : Nat) :
    unescapeFrom size pos p.length (p ++ s)
      = unescapeFrom size (pos + width p) 0 s := by
  induction p generalizing pos with
  | nil => rfl
  | cons c p ih =>
    show unescapeFrom size (pos + c.utf8Size) p.length (p ++ s) = _
    rw [ih, width, Nat.add_assoc]

/-- A reference by name is resolved. -/
theorem unescapeFrom_named (size : Nat) {name : List Char} {c : Char}
    (h : predefined? name = some c) (rest : List Char) (pos : Nat) :
    unescapeFrom size pos 0 ('&' :: (name ++ ';' :: rest))
      = (unescapeFrom size (pos + 1 + width (name ++ [';'])) 0 rest).map
          (c :: ·) := by
  have hdrop : ((name ++ ';' :: rest).drop name.length).head? = some ';' := by
    rw [List.drop_left]
    rfl
  have hskip := unescapeFrom_skip size (name ++ [';']) rest (pos + 1)
  rw [List.append_assoc, List.length_append] at hskip
  -- no name that is predefined is read as the number of a character
  have hnumber : ∀ number, name ≠ '#' :: number := by
    rintro number rfl
    exact (plain_of_predefined? h '#' List.mem_cons_self).2.2.2 rfl
  rw [unescapeFrom, if_pos rfl, entityName_append h, if_pos hdrop]
  dsimp only
  split
  · next fault hresolved =>
    split at hresolved
    · exact absurd rfl (hnumber _)
    · rw [h] at hresolved
      cases hresolved
  · next d hresolved =>
    split at hresolved
    · exact absurd rfl (hnumber _)
    · rw [h] at hresolved
      cases hresolved
      exact congrArg (Except.map (c :: ·)) hskip

theorem unescapeFrom_escaped (size : Nat) (s : List Char) (pos : Nat) :
    unescapeFrom size pos 0 (s.flatMap escapeChar) = .ok s := by
  induction s generalizing pos with
  | nil => rfl
  | cons c s ih =>
    rw [List.flatMap_cons]
    rcases escapes_escapeChar c with ⟨heq, hamp, -⟩ | ⟨name, heq, hname⟩
    · rw [heq, List.singleton_append, unescapeFrom, if_neg hamp, ih]
      rfl
    · rw [heq, List.cons_append, List.append_assoc, List.singleton_append,
        unescapeFrom_named size hname, ih]
      rfl

/-- An escaped attribute value spells the value. -/
theorem unescape_escaped (s : List Char) :
    unescape (s.flatMap escapeChar) = .ok s :=
  unescapeFrom_escaped _ s 0

end Stencil.Markup
