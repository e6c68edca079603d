/-
Texts that are spelled by their units of 16 bits.

An escape of four digits stands for one unit, and reading turns each into a
character by itself. So a character that is one unit is read back, whatever the
case of its digits, and of one that is a pair neither half is a character: its
two escapes stay in the value as they were written.
-/
import Stencil.Proofs.Binding.Folding
import Stencil.Proofs.Number.Digits
import Mathlib.Data.Nat.Digits.Defs

namespace Stencil.Number

variable {d : List Char} {c : Char} {n : Nat}

theorem charOfCode?_toNat (c : Char) : charOfCode? c.toNat = some c :=
  dif_pos c.valid

/-- Surrogates are no characters. -/
theorem charOfCode?_surrogate (hlow : 0xD800 ≤ n) (hhigh : n < 0xE000) :
    charOfCode? n = none := by
  refine dif_neg fun h => ?_
  unfold Nat.isValidChar at h
  omega

theorem toNat_lt (c : Char) : c.toNat < 0x110000 := by
  have h : c.toNat.isValidChar := c.valid
  unfold Nat.isValidChar at h
  omega

/-- A zero in front of a numeral does not change it. -/
theorem Numeral.zero (h : Numeral 16 d n) : Numeral 16 ('0' :: d) n := by
  induction h with
  | @one c d h =>
    have hzero : Numeral 16 ['0'] 0 := .one (by decide)
    have both := hzero.more h
    rwa [Nat.zero_mul, Nat.zero_add] at both
  | more hs h ih => exact ih.more h

theorem Numeral.zeros (h : Numeral 16 d n) (k : Nat) :
    Numeral 16 (List.replicate k '0' ++ d) n := by
  induction k with
  | zero => exact h
  | succ k ih => exact ih.zero

/-- What is no digit is in no numeral. -/
theorem Numeral.not_mem (h : Numeral 16 d n) (hc : digit? 16 c = none) :
    c ∉ d := by
  have other {b : Char} {k : Nat} (hb : IsDigit 16 b k) : c ≠ b := by
    rintro rfl
    rw [(digit?_eq_some_iff (by decide)).2 hb] at hc
    cases hc
  induction h with
  | one hb => exact List.mem_singleton.not.2 (other hb)
  | more hs hb ih =>
    rw [List.mem_append, List.mem_singleton, not_or]
    exact ⟨ih, other hb⟩

/-- A numeral has no sign. -/
theorem Numeral.dropPlus (h : Numeral 16 d n) : dropPlus d = d := by
  have hplus : '+' ∉ d := h.not_mem rfl
  unfold Number.dropPlus
  split
  · exact absurd List.mem_cons_self hplus
  · rfl

end Stencil.Number

namespace Stencil.Binding.Properties

open Number (Numeral charOfCode?)
open Text (pairBase unitsOfCode OneLine)

variable {s t p d e : List Char} {ts : List (List Char)} {c : Char} {n : Nat}
  {pending : Option (List Char)}

-- ================================================================== spellings

/-- An escape of a unit, its four hexadecimal digits in either case. -/
def UnitEscape (n : Nat) (t : List Char) : Prop :=
  ∃ d, Numeral 16 d n ∧ d.length = 4 ∧ t = '\\' :: 'u' :: d

/-- A character as escapes of its units. -/
def Spelled (c : Char) (t : List Char) : Prop :=
  ∃ es, List.Forall₂ UnitEscape (unitsOfCode c.toNat) es ∧ t = es.flatten

theorem unitsOfCode_single (hc : c.toNat < pairBase) :
    unitsOfCode c.toNat = [c.toNat] := if_pos hc

/-- The units of a pair are surrogates. -/
theorem unitsOfCode_pair (hc : ¬ c.toNat < pairBase) :
    ∃ high low, unitsOfCode c.toNat = [high, low]
      ∧ 0xD800 ≤ high ∧ high < 0xE000 ∧ 0xD800 ≤ low ∧ low < 0xE000 := by
  have hmax := Number.toNat_lt c
  refine ⟨_, _, if_neg hc, ?_⟩
  unfold pairBase at hc ⊢
  omega

theorem Spelled.single (h : Spelled c t) (hc : c.toNat < pairBase) :
    UnitEscape c.toNat t := by
  obtain ⟨es, hes, rfl⟩ := h
  rw [unitsOfCode_single hc] at hes
  cases hes with
  | cons he hnil =>
    cases hnil
    rwa [List.flatten_cons, List.flatten_nil, List.append_nil]

theorem Spelled.pair (h : Spelled c t) (hc : ¬ c.toNat < pairBase) :
    ∃ high low e e', 0xD800 ≤ high ∧ high < 0xE000 ∧ 0xD800 ≤ low
      ∧ low < 0xE000 ∧ UnitEscape high e ∧ UnitEscape low e' ∧ t = e ++ e' := by
  obtain ⟨es, hes, rfl⟩ := h
  obtain ⟨high, low, hunits, hhigh, hhigh', hlow, hlow'⟩ := unitsOfCode_pair hc
  rw [hunits] at hes
  cases hes with
  | cons he hes =>
    cases hes with
    | cons he' hnil =>
      cases hnil
      exact ⟨high, low, _, _, hhigh, hhigh', hlow, hlow', he, he', by simp⟩

theorem unitsOfCode_lt {k : Nat} (hk : k ∈ unitsOfCode c.toNat) :
    k < pairBase := by
  by_cases hc : c.toNat < pairBase
  · rw [unitsOfCode_single hc, List.mem_singleton] at hk
    exact hk ▸ hc
  · obtain ⟨high, low, hunits, -, hhigh, -, hlow⟩ := unitsOfCode_pair hc
    rw [hunits, List.mem_pair] at hk
    unfold pairBase
    omega

theorem unitEscape_spells (hn : n < pairBase) :
    UnitEscape n (unitEscape n) := by
  have hlength : (Nat.toDigits 16 n).length ≤ 4 :=
    Nat.toDigits_length 16 n 4 (by decide) hn
  refine ⟨_, (Number.numeral_toDigits (by decide) n).zeros _, ?_, rfl⟩
  rw [List.length_append, List.length_replicate]
  omega

/-- A text is spelled by its units. -/
theorem unitEscapes_spells (s : List Char) :
    ∃ ts, List.Forall₂ Spelled s ts ∧ ts.flatten = unitEscapes s := by
  let spell (c : Char) := (unitsOfCode c.toNat).flatMap unitEscape
  have spelled (c : Char) : Spelled c (spell c) :=
    ⟨(unitsOfCode c.toNat).map unitEscape,
      List.forall₂_map_right_iff.2 (List.forall₂_same.2
        fun k hk => unitEscape_spells (unitsOfCode_lt hk)),
      List.flatMap_def⟩
  refine ⟨s.map spell, List.forall₂_map_right_iff.2
    (List.forall₂_same.2 fun c _ => spelled c), ?_⟩
  rw [unitEscapes, Text.units, List.flatMap_assoc, ← List.flatMap_def]

-- ==================================================================== reading

theorem unescape_escape (hd : d.length = 4) (s : List Char) :
    unescape ('\\' :: 'u' :: (d ++ s)) = numbered d ++ unescape s := by
  rw [unescape, List.take_left' hd, List.drop_left' hd]

theorem numbered_numeral (h : Numeral 16 d n) :
    numbered d = match charOfCode? n with
      | some c => [c]
      | none => '\\' :: 'u' :: d := by
  unfold numbered
  rw [h.dropPlus, (Number.natural?_eq_some_iff (by decide)).2 h]
  rfl

/-- The escape of a character is the character. -/
theorem UnitEscape.unescape (h : UnitEscape c.toNat t) (s : List Char) :
    unescape (t ++ s) = c :: unescape s := by
  obtain ⟨d, hnumeral, hlength, rfl⟩ := h
  rw [List.cons_append, List.cons_append, unescape_escape hlength,
    numbered_numeral hnumeral, Number.charOfCode?_toNat]
  rfl

/-- The escape of a surrogate stays as it is. -/
theorem UnitEscape.kept (h : UnitEscape n t) (hlow : 0xD800 ≤ n)
    (hhigh : n < 0xE000) (s : List Char) :
    Properties.unescape (t ++ s) = t ++ Properties.unescape s := by
  obtain ⟨d, hnumeral, hlength, rfl⟩ := h
  rw [List.cons_append, List.cons_append, unescape_escape hlength,
    numbered_numeral hnumeral, Number.charOfCode?_surrogate hlow hhigh]

/-- What a character's spelling is read as: the character if it is one unit, and
else the spelling. -/
def settled (c : Char) (t : List Char) : List Char :=
  if c.toNat < pairBase then [c] else t

theorem Spelled.unescape (h : Spelled c t) (s : List Char) :
    Properties.unescape (t ++ s) = settled c t ++ Properties.unescape s := by
  unfold settled
  split
  · next hc => exact (h.single hc).unescape s
  · next hc =>
    obtain ⟨high, low, e, e', hhigh, hhigh', hlow, hlow', he, he', rfl⟩ :=
      h.pair hc
    rw [List.append_assoc, he.kept hhigh hhigh', he'.kept hlow hlow',
      List.append_assoc]

theorem unescape_spelled (h : List.Forall₂ Spelled s ts) :
    unescape ts.flatten = (List.zipWith settled s ts).flatten := by
  induction h with
  | nil => rw [List.flatten_nil, unescape]; rfl
  | cons ht hts ih =>
    rw [List.flatten_cons, ht.unescape, ih, List.zipWith_cons_cons,
      List.flatten_cons]

theorem UnitEscape.length (h : UnitEscape n t) : t.length = 6 := by
  obtain ⟨d, -, hlength, rfl⟩ := h
  rw [List.length_cons, List.length_cons, hlength]

/-- Each pair makes the value eleven characters longer than the text. -/
theorem length_settled (h : List.Forall₂ Spelled s ts) :
    (List.zipWith settled s ts).flatten.length
      = s.length + 11 * s.countP fun c => pairBase ≤ c.toNat := by
  induction h with
  | nil => rfl
  | @cons c t s ts ht hts ih =>
    rw [List.zipWith_cons_cons, List.flatten_cons, List.length_append, ih,
      List.countP_cons, List.length_cons]
    unfold settled
    by_cases hc : c.toNat < pairBase
    · rw [if_pos hc, if_neg (by simpa using hc)]
      simp only [List.length_singleton]
      omega
    · obtain ⟨high, low, e, e', -, -, -, -, he, he', rfl⟩ := ht.pair hc
      rw [if_neg hc, if_pos (by simpa using hc), List.length_append, he.length,
        he'.length]
      omega

theorem zipWith_settled (h : List.Forall₂ Spelled s ts)
    (hs : ∀ c ∈ s, c.toNat < pairBase) :
    (List.zipWith settled s ts).flatten = s := by
  induction h with
  | nil => rfl
  | @cons c t s ts ht hts ih =>
    obtain ⟨hc, hs⟩ := List.forall_mem_cons.1 hs
    rw [List.zipWith_cons_cons, List.flatten_cons, ih hs, settled, if_pos hc,
      List.singleton_append]

/-- Just the texts of single units are read back. -/
theorem settled_eq_iff (h : List.Forall₂ Spelled s ts) :
    (List.zipWith settled s ts).flatten = s ↔ ∀ c ∈ s, c.toNat < pairBase := by
  refine ⟨fun heq => ?_, zipWith_settled h⟩
  have hlength := length_settled h
  rw [heq] at hlength
  have hnone : s.countP (fun c => decide (pairBase ≤ c.toNat)) = 0 := by omega
  intro c hc
  simpa using List.countP_eq_zero.1 hnone c hc

-- ====================================================================== lines

/-- An escape goes on with a line. -/
theorem UnitEscape.begun (h : Begun pending p) (he : UnitEscape n t) :
    Begun pending (p ++ t) := by
  obtain ⟨d, hnumeral, hlength, rfl⟩ := he
  refine ⟨?_, ?_, h.oneLine.append ⟨?_, ?_⟩⟩
  · obtain ⟨c, r, rfl, hc, hmark⟩ := h.front
    exact ⟨c, r ++ '\\' :: 'u' :: d, rfl, hc, hmark⟩
  · have hd : d ≠ [] := by rintro rfl; cases hlength
    have hlast : d.getLast hd ≠ '\\' := fun heq =>
      hnumeral.not_mem rfl (heq ▸ List.getLast_mem hd)
    rw [← List.dropLast_append_getLast hd, List.append_cons, List.append_cons,
      ← List.append_assoc, continues_concat, decide_eq_false hlast,
      Bool.false_and]
  · simpa using hnumeral.not_mem rfl
  · simpa using hnumeral.not_mem rfl

/-- Whatever goes on with a line goes on with it again and again. -/
theorem begun_flatten {α : Type} {R : α → List Char → Prop} {xs : List α}
    (hR : ∀ {p t : List Char} {x : α}, Begun pending p → R x t →
      Begun pending (p ++ t))
    (h : Begun pending p) (hts : List.Forall₂ R xs ts) :
    Begun pending (p ++ ts.flatten) := by
  induction hts generalizing p with
  | nil => rwa [List.flatten_nil, List.append_nil]
  | cons ht hts ih =>
    rw [List.flatten_cons, ← List.append_assoc]
    exact ih (hR h ht)

theorem Spelled.begun (h : Begun pending p) (ht : Spelled c t) :
    Begun pending (p ++ t) := by
  obtain ⟨es, hes, rfl⟩ := ht
  exact begun_flatten (fun hp he => he.begun hp) h hes

/-- A key and its separator begin a line. -/
theorem begun_key (k : String) : Begun none (writeKey k.toList ++ ['=']) := by
  have hflatten := flatten_tokens (k, "")
  have htokens := token_tokens (k, "")
  obtain ⟨t, ts, hcons⟩ := List.exists_cons_of_ne_nil (tokens_ne_nil (k, ""))
  rw [hcons] at hflatten htokens
  rw [show writeKey k.toList ++ ['='] = writeEntry (k, "") from rfl, ← hflatten,
    List.flatten_cons]
  obtain ⟨c, cs, ht, hts, -⟩ := List.forall₂_cons_left_iff.1 htokens
  exact begun_flatten (fun hp ht => hp.token ht) (begun_tokens hcons ht) hts.flip

theorem Spelled.head (h : Spelled c t) : ∃ r, t = '\\' :: r := by
  by_cases hc : c.toNat < pairBase
  · obtain ⟨d, -, -, rfl⟩ := h.single hc
    exact ⟨_, rfl⟩
  · obtain ⟨-, -, e, e', -, -, -, -, ⟨d, -, -, rfl⟩, -, rfl⟩ := h.pair hc
    exact ⟨_, rfl⟩

/-- A spelled text does not begin with white space. -/
theorem dropGap_spelled (h : List.Forall₂ Spelled s ts) :
    dropGap ts.flatten = ts.flatten := by
  cases h with
  | nil => rfl
  | cons ht hts =>
    obtain ⟨r, rfl⟩ := ht.head
    exact dropGap_cons (by decide) _

theorem entry_spelled (k : String) (h : List.Forall₂ Spelled s ts) :
    entry (writeKey k.toList ++ '=' :: ts.flatten)
      = (k, String.ofList (List.zipWith settled s ts).flatten) := by
  have hkey := token_keyTokens k.toList
  have hkey' : List.Forall₂ (Token specials) (keyTokens k.toList) k.toList :=
    hkey.imp fun _ _ => Token.of_key
  have hseparator : dropSeparator ('=' :: ts.flatten) = ts.flatten :=
    dropGap_spelled h
  unfold entry
  rw [← flatten_keyTokens, splitKey_tokens hkey]
  dsimp only
  rw [hseparator, unescape_tokens hkey', unescape_spelled h,
    String.ofList_toList]

/-- A line of a key and a value. -/
def line (k : String) (value : List Char) : String :=
  String.ofList (writeKey k.toList ++ '=' :: value)

theorem read_spelled (k : String) (h : List.Forall₂ Spelled s ts) :
    read (line k ts.flatten) = .map [(k, .string
      (String.ofList (List.zipWith settled s ts).flatten))] := by
  have hbegun : Begun none (writeKey k.toList ++ '=' :: ts.flatten) := by
    rw [List.append_cons]
    exact begun_flatten (fun hp ht => ht.begun hp) (begun_key k) h
  have hlines : Text.lines (writeKey k.toList ++ '=' :: ts.flatten)
      = [writeKey k.toList ++ '=' :: ts.flatten] := by
    have hlines := Text.lines_plain hbegun.oneLine (r := []) (by simp) .text
    rwa [List.append_nil] at hlines
  have hlogical : logicalLines (writeKey k.toList ++ '=' :: ts.flatten)
      = [writeKey k.toList ++ '=' :: ts.flatten] := by
    rw [logicalLines, hlines]
    have hgap : Gap [] := nofun
    exact joinFrom_last hgap hbegun []
  rw [read, entries, line, String.toList_ofList, hlogical, List.map_singleton,
    entry_spelled k h]
  rfl

-- ================================================================ main results

/-- A text of which each unit is written as an escape, whatever the case of the
digits, is read back if its characters are single units, and only then: of a
pair, both escapes stay in the value. -/
theorem unit_escapes_read (k : String) (s : List Char) :
    (∃ ts, List.Forall₂ Spelled s ts ∧ ts.flatten = unitEscapes s)
    ∧ ∀ ts, List.Forall₂ Spelled s ts →
      read (line k ts.flatten) = .map [(k, .string
        (String.ofList (List.zipWith settled s ts).flatten))]
      ∧ (unescape ts.flatten = s ↔ ∀ c ∈ s, c.toNat < pairBase) := by
  refine ⟨unitEscapes_spells s, fun ts h => ⟨read_spelled k h, ?_⟩⟩
  rw [unescape_spelled h]
  exact settled_eq_iff h

/-- Letters in both cases, and a face beyond the first 65536 characters. -/
theorem unit_escapes_read_mixed :
    let ts := [['\\', 'u', '0', '0', 'e', '9'], ['\\', 'u', '0', '0', 'E', '9'],
      ['\\', 'u', 'd', '8', '3', 'D', '\\', 'u', 'D', 'e', '0', '0']]
    List.Forall₂ Spelled ['é', 'é', '😀'] ts
    ∧ read (line "k" ts.flatten)
      = .map [("k", .string "éé\\ud83D\\uDe00")] := by
  intro ts
  have escape {d : List Char} {n : Nat} (hd : d.length = 4)
      (h : Number.natural? 16 d = some n) : UnitEscape n ('\\' :: 'u' :: d) :=
    ⟨d, (Number.natural?_eq_some_iff (by decide)).1 h, hd, rfl⟩
  have single {t : List Char} (h : UnitEscape 'é'.toNat t) : Spelled 'é' t :=
    ⟨[t], .cons h .nil, (List.append_nil t).symm⟩
  have face : Spelled '😀'
      ['\\', 'u', 'd', '8', '3', 'D', '\\', 'u', 'D', 'e', '0', '0'] :=
    ⟨[['\\', 'u', 'd', '8', '3', 'D'], ['\\', 'u', 'D', 'e', '0', '0']],
      .cons (escape rfl rfl) (.cons (escape rfl rfl) .nil), rfl⟩
  have spelled : List.Forall₂ Spelled ['é', 'é', '😀'] ts :=
    .cons (single (escape rfl rfl)) (.cons (single (escape rfl rfl))
      (.cons face .nil))
  exact ⟨spelled, ((unit_escapes_read "k" _).2 ts spelled).1⟩

/-- A face is spelled by a pair of escapes, and they are not read as the face. -/
theorem pair_left_as_written :
    unitEscapes ['😀']
      = ['\\', 'u', 'd', '8', '3', 'd', '\\', 'u', 'd', 'e', '0', '0']
    ∧ unescape (unitEscapes ['😀']) = unitEscapes ['😀']
    ∧ read (line "k" (unitEscapes ['😀'])) ≠ .map [("k", .string "😀")] := by
  refine ⟨by decide, by decide +kernel, ?_⟩
  have kept : read (line "k" (unitEscapes ['😀']))
      = .map [("k", .string "\\ud83d\\ude00")] := by with_unfolding_all rfl
  rw [kept]
  simp

end Stencil.Binding.Properties
