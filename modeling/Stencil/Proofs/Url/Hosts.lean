/-
What hosts are made of.

Whatever a host is written from, nothing stands in it that would end it: a name
is rid of such characters or refused, numeric addresses are digits between dots
or colons, and where there are colons there are brackets around them.
-/
import Mathlib.Data.List.Basic
import Stencil.Proofs.Text.Cutting
import Stencil.Proofs.Url.Text
import Stencil.Url.Host

namespace Stencil.Url

-- ================================================================= escapes

/-- What escapes are written in. -/
def escapeMarks : List Char := "%0123456789ABCDEF".toList

theorem hexDigit_mem {n : Nat} (h : n < 16) : hexDigit n ∈ escapeMarks := by
  have hall : ∀ n < 16, hexDigit n ∈ escapeMarks := by decide
  exact hall n h

/-- A character of an escaped text is of an escape, or one of the text that
need not be escaped. -/
theorem mem_escape {set : EscapeSet} {s : List Char} {c : Char}
    (h : c ∈ (escape set s).toList) :
    c ∈ escapeMarks ∨ (c ∈ s ∧ c ∉ set) := by
  rw [escape, String.toList_ofList, List.mem_flatMap] at h
  obtain ⟨d, hd, hc⟩ := h
  unfold escapeChar at hc
  split at hc
  · obtain ⟨b, -, hc⟩ := List.mem_flatMap.1 hc
    have hb := b.toNat_lt
    left
    unfold escapeByte at hc
    simp only [List.mem_cons, List.not_mem_nil, or_false] at hc
    rcases hc with rfl | rfl | rfl
    · decide
    · exact hexDigit_mem (by omega)
    · exact hexDigit_mem (by omega)
  · next hkept =>
    rw [List.mem_singleton] at hc
    subst hc
    refine .inr ⟨hd, fun hset => hkept ?_⟩
    simp [isEscaped, hset]

/-- Characters that are escaped, or are not there, are not in an escaped
text. -/
theorem free_escape {cs : List Char} {set : EscapeSet} {s : List Char}
    (hmarks : ∀ c ∈ cs, c ∉ escapeMarks) (h : ∀ c ∈ cs, c ∈ set ∨ c ∉ s) :
    Free cs (escape set s) := by
  intro c hc hmem
  rcases mem_escape hc with hmark | ⟨hs, hset⟩
  · exact hmarks c hmem hmark
  · rcases h c hmem with h | h
    · exact hset h
    · exact h hs

-- =================================================================== hosts

/-- The characters that end a host or stand before one. -/
def hostEnds : List Char := ['@', '/', '?', '#']

/-- A host holds nothing that would end it, and a colon only in brackets. -/
structure ProperHost (host : String) : Prop where
  free : Free hostEnds host
  bracketed : ':' ∈ host.toList → host.toList.getLast? = some ']'

/-- A host in which no colon is. -/
theorem properHost_of_free {host : String} (h : Free (':' :: hostEnds) host) :
    ProperHost host :=
  ⟨h.mono (by simp), fun hmem => absurd hmem (h.not_mem (by simp))⟩

/-- The characters that numbers are written in. -/
def numerals : List Char := "0123456789abcdef".toList

/-- The digits of a number in a base up to sixteen. -/
theorem mem_toDigits {b n : Nat} (hpos : 0 < b) (hle : b ≤ 16) {c : Char}
    (h : c ∈ Nat.toDigits b n) : c ∈ numerals := by
  have hdigit (n : Nat) : Nat.digitChar (n % b) ∈ numerals := by
    have hall : ∀ d < 16, Nat.digitChar d ∈ numerals := by decide
    exact hall _ (Nat.lt_of_lt_of_le (Nat.mod_lt n hpos) hle)
  have hcore (fuel n : Nat) (ds : List Char) (hds : ∀ c ∈ ds, c ∈ numerals) :
      ∀ c ∈ Nat.toDigitsCore b fuel n ds, c ∈ numerals := by
    induction fuel generalizing n ds with
    | zero => exact hds
    | succ fuel ih =>
      have hds := List.forall_mem_cons.2 ⟨hdigit n, hds⟩
      unfold Nat.toDigitsCore
      dsimp only
      split
      · exact hds
      · exact ih _ _ hds
  exact hcore _ _ [] nofun c h

/-- What stands in a row of texts with another between them. -/
theorem mem_intercalate {separator : List Char} {parts : List (List Char)}
    {c : Char} (h : c ∈ separator.intercalate parts) :
    c ∈ separator ∨ ∃ part ∈ parts, c ∈ part := by
  induction parts with
  | nil => simp [List.intercalate] at h
  | cons part parts ih =>
    cases parts with
    | nil =>
      simp only [List.intercalate, List.intersperse_singleton,
        List.flatten_singleton] at h
      exact .inr ⟨part, List.mem_cons_self, h⟩
    | cons next parts =>
      simp only [List.intercalate, List.intersperse_cons_cons,
        List.flatten_cons, List.mem_append] at h ih
      rcases h with h | h | h
      · exact .inr ⟨part, List.mem_cons_self, h⟩
      · exact .inl h
      · rcases ih h with h | ⟨p, hp, hc⟩
        · exact .inl h
        · exact .inr ⟨p, List.mem_cons_of_mem _ hp, hc⟩

theorem free_address4 {s : List Char} {host : String}
    (h : address4? s = some host) : Free (':' :: hostEnds) host := by
  unfold address4? at h
  simp only [Option.bind_eq_bind, Option.bind_eq_some_iff] at h
  obtain ⟨numbers, -, n, -, h⟩ := h
  cases h
  have hall : ∀ c ∈ '.' :: numerals, c ∉ ':' :: hostEnds :=
    forall_mem_of_all (by decide)
  intro c hc
  refine hall c ?_
  rw [String.toList_intercalate] at hc
  rcases mem_intercalate hc with hc | ⟨part, hpart, hc⟩
  · simp_all
  · rw [List.map_map] at hpart
    obtain ⟨b, -, rfl⟩ := List.mem_map.1 hpart
    exact List.mem_cons_of_mem _
      (mem_toDigits (b := 10) (by decide) (by decide) (by simpa using hc))

/-- An address of version 6 is digits and colons. -/
theorem mem_address6Text {ns : List Nat} {c : Char}
    (h : c ∈ (address6Text ns).toList) :
    c ∈ ':' :: numerals := by
  have hpieces {ns : List Nat} {c : Char} (h : c ∈ (hexPieces ns).toList) :
      c ∈ ':' :: numerals := by
    unfold hexPieces at h
    rw [String.toList_intercalate] at h
    rcases mem_intercalate h with h | ⟨part, hpart, hc⟩
    · simp_all
    · rw [List.map_map] at hpart
      obtain ⟨n, -, rfl⟩ := List.mem_map.1 hpart
      exact List.mem_cons_of_mem _
        (mem_toDigits (b := 16) (by decide) (by decide) (by simpa using hc))
  unfold address6Text at h
  dsimp only at h
  split at h
  · exact hpieces h
  · simp only [String.toList_append, List.mem_append] at h
    rcases h with (h | h) | h
    · exact hpieces h
    · simp_all
    · exact hpieces h

theorem properHost_bracketed {s : List Char} {host : String}
    (h : bracketed? s = some host) : ProperHost host := by
  unfold bracketed? at h
  split at h
  · obtain ⟨ns, -, rfl⟩ := Option.map_eq_some_iff.1 h
    have hall : ∀ c ∈ ':' :: numerals, c ∉ hostEnds :=
      forall_mem_of_all (by decide)
    refine ⟨fun c hc => ?_, fun _ => ?_⟩
    · simp only [String.toList_append, List.mem_append] at hc
      rcases hc with (hc | hc) | hc
      · simp at hc
        subst hc
        decide
      · exact hall c (mem_address6Text hc)
      · simp at hc
        subst hc
        decide
    · rw [String.toList_append]
      exact List.getLast?_concat
  · cases h

-- =================================================================== names

namespace Punycode

/-- The digits of distances. -/
def places : List Char := "abcdefghijklmnopqrstuvwxyz0123456789".toList

theorem digit_mem {d : Nat} (h : d < 36) : digit d ∈ places := by
  have hall : ∀ d < 36, digit d ∈ places := by decide
  exact hall d h

theorem threshold_le (bias place : Nat) : threshold bias place ≤ 26 := by
  unfold threshold
  split
  · omega
  · split <;> omega

theorem digits_subset (bias place q : Nat) : digits bias place q ⊆ places := by
  have hle := threshold_le bias place
  rw [digits]
  split
  · exact List.cons_subset.2 ⟨digit_mem (by omega), List.nil_subset _⟩
  · refine List.cons_subset.2 ⟨digit_mem ?_, digits_subset ..⟩
    have := Nat.mod_lt (q - threshold bias place)
      (y := 36 - threshold bias place) (by omega)
    omega
termination_by q
decreasing_by
  have := threshold_pos bias place
  have := Nat.div_le_self (q - threshold bias place)
    (36 - threshold bias place)
  omega

/-- A step writes nothing but digits. -/
theorem step_output {code : Nat} {p : Progress} {c : Nat} {written : List Char}
    (hplaces : places ⊆ written) (h : p.output ⊆ written) :
    (step code p c).output ⊆ written := by
  unfold step
  split
  · exact h
  · split
    · exact List.append_subset.2 ⟨h, List.Subset.trans (digits_subset ..) hplaces⟩
    · exact h

theorem foldl_output {code : Nat} {p : Progress} {written : List Char}
    (hplaces : places ⊆ written) (h : p.output ⊆ written) (name : List Nat) :
    (name.foldl (step code) p).output ⊆ written := by
  induction name generalizing p with
  | nil => exact h
  | cons c name ih => exact ih (step_output hplaces h)

theorem writeCodes_output {name : List Nat} {written : List Char}
    (hplaces : places ⊆ written) (codes : List Nat) {least : Nat}
    {p : Progress} (h : p.output ⊆ written) :
    (writeCodes name least p codes).output ⊆ written := by
  induction codes generalizing least p with
  | nil => exact h
  | cons code codes ih =>
    refine ih ?_
    apply foldl_output hplaces
    exact h

/-- A name in ASCII is made of characters of the name, hyphens and digits. -/
theorem encode_subset (name : List Char) :
    encode name ⊆ name ++ '-' :: places := by
  refine writeCodes_output ?_ _ ?_
  · exact List.Subset.trans (List.subset_cons_self ..)
      (List.subset_append_right ..)
  · dsimp only
    split
    · exact List.nil_subset _
    · refine List.append_subset.2
        ⟨List.Subset.trans (List.filter_subset_self _)
          (List.subset_append_left ..), ?_⟩
      simp

end Punycode

namespace Name

/-- A label that is read holds nothing that no name holds. -/
theorem readLabel_allowed {s label : List Char}
    (h : readLabel? s = some label) : ∀ c ∈ label, isForbidden c = false := by
  unfold readLabel? at h
  split at h
  · cases h
  · obtain ⟨read, -, h⟩ := Option.bind_eq_some_iff.1 h
    split at h
    · cases h
    · next hkept =>
      cases h
      simp only [Bool.or_eq_true, not_or, List.any_eq_true, not_exists,
        not_and, Bool.not_eq_true] at hkept
      exact hkept.1.2

theorem label_allowed {s label : List Char} (h : label? s = some label)
    (hs : ∀ c ∈ s, isForbidden c = false) :
    ∀ c ∈ label, isForbidden c = false := by
  unfold label? at h
  obtain ⟨h, -⟩ := Option.filter_eq_some_iff.1 h
  split at h
  · exact readLabel_allowed h
  · cases h
    exact hs

theorem written_allowed {label : List Char}
    (h : ∀ c ∈ label, isForbidden c = false) :
    ∀ c ∈ written label, isForbidden c = false := by
  have hplaces : ∀ c ∈ '-' :: Punycode.places, isForbidden c = false :=
    forall_mem_of_all (by decide)
  have hmark : ∀ c ∈ mark, isForbidden c = false :=
    forall_mem_of_all (by decide)
  unfold written
  split
  · exact h
  · intro c hc
    rcases List.mem_append.1 hc with hc | hc
    · exact hmark c hc
    · rcases List.mem_append.1 (Punycode.encode_subset label hc) with hc | hc
      · exact h c hc
      · exact hplaces c hc

/-- Nothing stands in a name in ASCII that no name holds. -/
theorem ascii_allowed {s name : List Char} (h : ascii? s = some name) :
    ∀ c ∈ name, isForbidden c = false := by
  obtain ⟨labels, hlabels, rfl⟩ := Option.map_eq_some_iff.1 h
  obtain ⟨folded, -, hlabels⟩ := Option.bind_eq_some_iff.1 hlabels
  split at hlabels
  · cases hlabels
  · next hfolded =>
    obtain ⟨read, hread, hlabels⟩ := Option.bind_eq_some_iff.1 hlabels
    split at hlabels
    · cases hlabels
      intro c hc
      rcases mem_intercalate hc with hc | ⟨part, hpart, hc⟩
      · rw [List.mem_singleton] at hc
        subst hc
        decide
      · obtain ⟨label, hlabel, rfl⟩ := List.mem_map.1 hpart
        obtain ⟨piece, hpiece, hlabel⟩ :=
          Text.exists_of_mem_mapM hread hlabel
        refine written_allowed (label_allowed hlabel fun d hd => ?_) c hc
        have hmem := (Text.mem_of_mem_pieces hpiece hd).1
        simp only [List.any_eq_true, not_exists, not_and, Bool.not_eq_true]
          at hfolded
        exact hfolded d hmem
    · cases hlabels

end Name

-- =============================================================== all hosts

theorem properHost_empty : ProperHost "" :=
  properHost_of_free (free_empty _)

/-- What may stand in a name ends no host. -/
theorem free_of_allowed {name : List Char}
    (h : ∀ c ∈ name, Name.isForbidden c = false) :
    Free (':' :: hostEnds) (String.ofList name) := by
  have hends : ∀ c ∈ ':' :: hostEnds, Name.isForbidden c = true :=
    forall_mem_of_all (by decide)
  intro c hc hmem
  rw [String.toList_ofList] at hc
  exact absurd (hends c hmem) (Bool.eq_false_iff.1 (h c hc))

theorem properHost_special {s : List Char} {host : String}
    (h : specialHost? s = some host) : ProperHost host := by
  unfold specialHost? at h
  split at h
  · exact properHost_bracketed h
  · obtain ⟨unescaped, -, h⟩ := Option.bind_eq_some_iff.1 h
    obtain ⟨name, hname, h⟩ := Option.bind_eq_some_iff.1 h
    refine properHost_of_free ?_
    split at h
    · cases h
    · split at h
      · exact free_address4 h
      · cases h
        exact free_of_allowed (Name.ascii_allowed hname)

theorem properHost_plain {s : List Char} {host : String}
    (h : plainHost? s = some host) : ProperHost host := by
  unfold plainHost? at h
  split at h
  · exact properHost_bracketed h
  · split at h
    · cases h
    · next hallowed =>
      cases h
      have hends : ∀ c ∈ ':' :: hostEnds, isForbiddenInHost c = true :=
        forall_mem_of_all (by decide)
      refine properHost_of_free
        (free_escape (forall_mem_of_all (by decide)) fun c hc => .inr ?_)
      intro hmem
      exact hallowed (List.any_eq_true.2 ⟨c, hmem, hends c hc⟩)

theorem properHost_file {s : List Char} {host : String}
    (h : fileHost? s = some host) : ProperHost host := by
  unfold fileHost? at h
  split at h
  · cases h
    exact properHost_empty
  · obtain ⟨name, hname, rfl⟩ := Option.map_eq_some_iff.1 h
    split
    · exact properHost_empty
    · exact properHost_special hname

end Stencil.Url
