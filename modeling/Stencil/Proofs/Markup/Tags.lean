/-
Tags that are written are read back.

A tag is written from a name and attributes whose names are names of XML, the
values between quotes and escaped. What is written so has no `>` outside its
quotes, so a tag ends where it was ended, and its attributes are cut at the
spaces and quotes they were put between. Whatever a tag looks like, no two of
the attributes read from it have the same name.
-/
import Stencil.Markup.Event
import Stencil.Proofs.Markup.Escaping
import Stencil.Proofs.Related

namespace Stencil.Markup

open Text (isSpace width CodeRanges)

-- ============================================================= names of XML

/-- The characters that a name may begin with. -/
def nameStartRanges : CodeRanges :=
  [(0x3A, 0x3A), (0x41, 0x5A), (0x5F, 0x5F), (0x61, 0x7A), (0xC0, 0xD6),
   (0xD8, 0xF6), (0xF8, 0x2FF), (0x370, 0x37D), (0x37F, 0x1FFF),
   (0x200C, 0x200D), (0x2070, 0x218F), (0x2C00, 0x2FEF), (0x3001, 0xD7FF),
   (0xF900, 0xFDCF), (0xFDF0, 0xFFFD), (0x10000, 0xEFFFF)]

/-- The characters that may stand behind the first. -/
def namePartRanges : CodeRanges :=
  nameStartRanges
    ++ [(0x2D, 0x2E), (0x30, 0x39), (0xB7, 0xB7), (0x300, 0x36F),
      (0x203F, 0x2040)]

/-- The text is a `Name` of XML. -/
def isXmlName (s : String) : Bool :=
  match s.toList with
  | [] => false
  | c :: cs => nameStartRanges.contains c && cs.all namePartRanges.contains

/-- What a character of a name is not. -/
structure Nominal (c : Char) : Prop where
  space : isSpace c = false
  equals : c ≠ '='
  closer : c ≠ '>'
  double : c ≠ '"'
  single : c ≠ '\''
  slash : c ≠ '/'
  bracket : c ≠ '['
  bang : c ≠ '!'
  mark : c ≠ '?'

theorem nominal_of_namePart {c : Char} (h : namePartRanges.contains c = true) :
    Nominal c := by
  have hne {d : Char} (hd : namePartRanges.contains d = false) : c ≠ d := by
    rintro rfl
    rw [h] at hd
    cases hd
  refine ⟨?_, hne (by decide), hne (by decide), hne (by decide),
    hne (by decide), hne (by decide), hne (by decide), hne (by decide),
    hne (by decide)⟩
  unfold isSpace
  rw [decide_eq_false (hne (by decide : namePartRanges.contains ' ' = false)),
    decide_eq_false (hne (by decide : namePartRanges.contains '\t' = false)),
    decide_eq_false (hne (by decide : namePartRanges.contains '\r' = false)),
    decide_eq_false (hne (by decide : namePartRanges.contains '\n' = false))]
  rfl

/-- A name has a first character, and all its characters are those of names. -/
theorem parts_of_isXmlName {s : String} (h : isXmlName s = true) :
    ∃ c cs, s.toList = c :: cs
      ∧ ∀ d ∈ s.toList, namePartRanges.contains d = true := by
  unfold isXmlName at h
  split at h
  · cases h
  · next c cs hs =>
    obtain ⟨hc, hcs⟩ := Bool.and_eq_true_iff.1 h
    refine ⟨c, cs, hs, fun d hd => ?_⟩
    rw [hs] at hd
    rcases List.mem_cons.1 hd with rfl | hd
    · obtain ⟨r, hr, hrange⟩ := CodeRanges.contains_iff.1 hc
      exact CodeRanges.contains_iff.2 ⟨r, List.mem_append_left _ hr, hrange⟩
    · exact List.all_eq_true.1 hcs d hd

theorem chars_of_isXmlName {s : String} (h : isXmlName s = true) :
    ∃ c cs, s.toList = c :: cs ∧ ∀ d ∈ s.toList, Nominal d := by
  obtain ⟨c, cs, hs, hall⟩ := parts_of_isXmlName h
  exact ⟨c, cs, hs, fun d hd => nominal_of_namePart (hall d hd)⟩

-- =================================================================== written

/-- An attribute as it is written in a tag. -/
def attributeChars (a : String × String) : List Char :=
  ' ' :: (a.1.toList
    ++ '=' :: '"' :: (a.2.toList.flatMap escapeChar ++ ['"']))

/-- The inside of a tag as it is written. -/
def tagChars (name : String) (attributes : List (String × String)) :
    List Char :=
  name.toList ++ attributes.flatMap attributeChars

section

variable {name : String} {attributes : List (String × String)}

/-- What ends a name in a tag: nothing, or a space. -/
theorem head_attributes (attributes : List (String × String)) :
    attributes.flatMap attributeChars = []
      ∨ ∃ r, attributes.flatMap attributeChars = ' ' :: r := by
  cases attributes with
  | nil => exact .inl rfl
  | cons a as => exact .inr ⟨_, rfl⟩

theorem tagName_written (hname : isXmlName name = true) :
    tagName (tagChars name attributes) = name.toList := by
  obtain ⟨c, cs, -, hchars⟩ := chars_of_isXmlName hname
  unfold tagName tagChars
  rw [List.takeWhile_append_of_pos fun d hd => by rw [(hchars d hd).space]; rfl]
  rcases head_attributes attributes with h | ⟨r, h⟩ <;> rw [h]
  · exact List.append_nil _
  · exact List.append_nil _

-- ================================================================ attributes

theorem keyTail_append {s : List Char}
    (hs : ∀ d ∈ s, Nominal d) (rest : List Char) :
    keyTail (s ++ '=' :: rest) = s := by
  unfold keyTail
  have hall : ∀ d ∈ s, (!isSpace d && d != '=') = true := by
    intro d hd
    simp [(hs d hd).space, (hs d hd).equals]
  rw [List.takeWhile_append_of_pos hall]
  exact List.append_nil s

/-- The space in front of a key ends with it. -/
theorem split_key {c : Char} (hc : isSpace c = false) (s : List Char) :
    width ((' ' :: c :: s).takeWhile isSpace) = 1
      ∧ (' ' :: c :: s).dropWhile isSpace = c :: s := by
  have hstop : ¬ isSpace c = true := by
    rw [hc]
    exact Bool.false_ne_true
  constructor
  · rw [List.takeWhile_cons_of_pos rfl, List.takeWhile_cons_of_neg hstop]
    rfl
  · rw [List.dropWhile_cons_of_pos rfl, List.dropWhile_cons_of_neg hstop]

/-- An escaped value ends with the quote behind it. -/
theorem split_value (v : List Char) (rest : List Char) :
    (v.flatMap escapeChar ++ '"' :: rest).takeWhile (· != '"')
        = v.flatMap escapeChar
      ∧ (v.flatMap escapeChar ++ '"' :: rest).dropWhile (· != '"')
        = '"' :: rest := by
  have hquote : ∀ d ∈ v.flatMap escapeChar, (d != '"') = true := by
    intro d hd
    have hne : d ≠ '"' := fun he => quote_not_mem_escaped v (he ▸ hd)
    simpa using hne
  constructor
  · rw [List.takeWhile_append_of_pos hquote]
    exact List.append_nil _
  · rw [List.dropWhile_append_of_pos hquote]
    rfl

/-- The first attribute that is written is the first that is read. -/
theorem attributesFrom_cons (size pos : Nat) {seen : Keys} {k : String}
    (hk : isXmlName k = true) (hseen : seen.lookup k.toList = none)
    (v : String) (rest : List Char) :
    attributesFrom size seen pos (attributeChars (k, v) ++ rest)
      = (attributesFrom size (seen ++ [(k.toList, pos + 1)])
          (size - width rest) rest).map ((k, v) :: ·) := by
  obtain ⟨c, cs, hchars, hnominal⟩ := chars_of_isXmlName hk
  rw [hchars] at hnominal
  let value := v.toList.flatMap escapeChar
  have htext : attributeChars (k, v) ++ rest
      = ' ' :: c :: (cs ++ '=' :: '"' :: (value ++ '"' :: rest)) := by
    simp [attributeChars, hchars, value]
  have hc : isSpace c = false := (hnominal c List.mem_cons_self).space
  obtain ⟨hspace, hkey⟩ :=
    split_key hc (cs ++ '=' :: '"' :: (value ++ '"' :: rest))
  have htail (r : List Char) : keyTail (cs ++ '=' :: r) = cs :=
    keyTail_append (fun d hd => hnominal d (List.mem_cons_of_mem _ hd)) r
  obtain ⟨hvalue, hbehind⟩ : (value ++ '"' :: rest).takeWhile (· != '"') = value
      ∧ (value ++ '"' :: rest).dropWhile (· != '"') = '"' :: rest :=
    split_value v.toList rest
  have hresolved : unescape value = .ok v.toList := unescape_escaped _
  -- white space, and the name up to the sign of equality
  rw [htext, attributesFrom]
  split
  · next h =>
    rw [hkey] at h
    cases h
  next c' s₁ h =>
  rw [hkey] at h
  obtain ⟨rfl, rfl⟩ := List.cons.inj h
  rw [hspace]
  split
  · next h =>
    rw [htail, List.drop_left] at h
    cases h
  next e s₂ h =>
  rw [htail, List.drop_left] at h
  have h : '=' :: '"' :: (value ++ '"' :: rest) = e :: s₂ := h
  obtain ⟨rfl, rfl⟩ := List.cons.inj h
  -- the name is new, and a quote follows the sign
  rw [if_neg (by decide), htail, ← hchars, hseen]
  dsimp only
  split
  · next h => cases h
  next q s₃ h =>
  have h : '"' :: (value ++ '"' :: rest) = q :: s₃ := h
  obtain ⟨rfl, rfl⟩ := List.cons.inj h
  -- the value up to the same quote
  rw [if_neg (by decide)]
  split
  · next h =>
    rw [hbehind] at h
    cases h
  next d rest' h =>
  rw [hbehind] at h
  obtain ⟨rfl, rfl⟩ := List.cons.inj h
  -- the other attributes behind it
  rw [hvalue, hresolved, String.ofList_toList]
  cases attributesFrom size (seen ++ [(k.toList, pos + 1)])
    (size - width rest) rest with
  | error fault => rfl
  | ok as =>
    exact congrArg (fun v => Except.ok ((k, v) :: as)) String.ofList_toList

theorem lookup_append_of_ne {seen : Keys} {k l : List Char} {pos : Nat}
    (hseen : seen.lookup k = none) (hne : k ≠ l) :
    (seen ++ [(l, pos)]).lookup k = none := by
  rw [List.lookup_append, hseen, Option.none_or, List.lookup_cons,
    beq_eq_false_iff_ne.2 hne]
  rfl

/-- All attributes that are written are read, if no two have one name. -/
theorem attributesFrom_written (size : Nat)
    (hnames : ∀ a ∈ attributes, isXmlName a.1 = true)
    (hnodup : (attributes.map Prod.fst).Nodup) (seen : Keys)
    (hseen : ∀ a ∈ attributes, seen.lookup a.1.toList = none) (pos : Nat) :
    attributesFrom size seen pos (attributes.flatMap attributeChars)
      = .ok attributes := by
  induction attributes generalizing seen pos with
  | nil =>
    rw [List.flatMap_nil, attributesFrom]
    rfl
  | cons a as ih =>
    obtain ⟨k, v⟩ := a
    obtain ⟨hk, has⟩ := List.forall_mem_cons.1 hnames
    obtain ⟨hnew, hnodup⟩ := List.nodup_cons.1 hnodup
    obtain ⟨hkseen, hseen⟩ := List.forall_mem_cons.1 hseen
    have hrest : ∀ a ∈ as,
        (seen ++ [(k.toList, pos + 1)]).lookup a.1.toList = none := by
      intro a ha
      refine lookup_append_of_ne (hseen a ha) fun he => hnew ?_
      exact List.mem_map.2 ⟨a, ha, String.toList_injective he⟩
    rw [List.flatMap_cons, attributesFrom_cons size pos hk hkseen,
      ih has hnodup _ hrest]
    rfl

theorem readAttributes_written (hname : isXmlName name = true)
    (hnames : ∀ a ∈ attributes, isXmlName a.1 = true)
    (hnodup : (attributes.map Prod.fst).Nodup) :
    readAttributes (tagChars name attributes) = .ok attributes := by
  unfold readAttributes
  rw [tagName_written hname]
  dsimp only
  rw [tagChars, List.drop_left]
  exact attributesFrom_written _ hnames hnodup [] (fun _ _ => rfl) _

/-- No name is met twice in a tag, nor one that was met before. -/
theorem attributesFrom_distinct {size : Nat} {seen : Keys} {pos : Nat}
    {s : List Char} {as : List (String × String)}
    (h : attributesFrom size seen pos s = .ok as) :
    (∀ a ∈ as, seen.lookup a.1.toList = none) ∧ (as.map Prod.fst).Nodup := by
  fun_induction attributesFrom size seen pos s generalizing as with
  | case1 =>
    cases h
    exact ⟨nofun, .nil⟩
  | case8 =>
    rename_i seen _ _ _ _ _ start key _ _ _ _ hkey q s₃ _ _ _ rest _ ih
    obtain ⟨value, -, h⟩ := bind_eq_ok h
    obtain ⟨more, hmore, h⟩ := bind_eq_ok h
    cases h
    obtain ⟨hlater, hnodup⟩ := ih hmore
    -- names that are met later differ from this one and from those before
    have hold {k : List Char}
        (h : (seen ++ [(key, start)]).lookup k = none) :
        seen.lookup k = none ∧ k ≠ key := by
      rw [List.lookup_append, Option.or_eq_none_iff] at h
      refine ⟨h.1, fun he => ?_⟩
      rw [he, List.lookup_cons_self] at h
      cases h.2
    constructor
    · intro a ha
      rcases List.mem_cons.1 ha with rfl | ha
      · rw [String.toList_ofList]
        exact hkey
      · exact (hold (hlater a ha)).1
    · refine List.nodup_cons.2 ⟨fun hmem => ?_, hnodup⟩
      obtain ⟨a, ha, heq⟩ := List.mem_map.1 hmem
      refine (hold (hlater a ha)).2 ?_
      rw [heq, String.toList_ofList]
  | _ => cases h

theorem readAttributes_distinct {tag : List Char} {as : List (String × String)}
    (h : readAttributes tag = .ok as) : (as.map Prod.fst).Nodup :=
  (attributesFrom_distinct h).2

-- ==================================================================== lengths

/-- A search for what closes markup, given the quote that is open: nothing
closes it between quotes, and nothing does that is plain. -/
structure Closer (find? : Option Char → List Char → Option Nat)
    (plain : Char → Prop) : Prop where
  quoted (quote c : Char) (s : List Char) : find? (some quote) (c :: s)
    = (find? (if c = quote then none else some quote) s).map (· + 1)
  quotes (s : List Char) :
    find? none ('"' :: s) = (find? (some '"') s).map (· + 1)
  plain {c : Char} (hc : plain c) (s : List Char) :
    find? none (c :: s) = (find? none s).map (· + 1)
  closes (s : List Char) : find? none ('>' :: s) = some 0

/-- A part of markup that does not close it, and closes the quotes it opens. -/
def Passes (find? : Option Char → List Char → Option Nat) (p : List Char) :
    Prop :=
  ∀ s, find? none (p ++ s) = (find? none s).map (· + p.length)

section

variable {find? : Option Char → List Char → Option Nat} {plain : Char → Prop}
  {p q : List Char}

theorem passes_nil : Passes find? [] := by
  intro s
  rw [List.nil_append]
  cases find? none s <;> rfl

theorem Passes.append (hp : Passes find? p) (hq : Passes find? q) :
    Passes find? (p ++ q) := by
  intro s
  rw [List.append_assoc, hp, hq, List.length_append, Option.map_map]
  congr 1
  funext n
  show n + q.length + p.length = n + (p.length + q.length)
  omega

theorem Closer.passes_plain (h : Closer find? plain)
    (hp : ∀ c ∈ p, plain c) : Passes find? p := by
  induction p with
  | nil => exact passes_nil
  | cons c p ih =>
    obtain ⟨hc, hp⟩ := List.forall_mem_cons.1 hp
    have hfirst : Passes find? [c] := h.plain hc
    exact hfirst.append (ih hp)

theorem Closer.passes_quoted (h : Closer find? plain) {v : List Char}
    (hv : '"' ∉ v) : Passes find? ('"' :: (v ++ ['"'])) := by
  have hinside (s : List Char) : find? (some '"') (v ++ '"' :: s)
      = (find? none s).map (· + (v.length + 1)) := by
    induction v with
    | nil => exact h.quoted '"' '"' s
    | cons c v ih =>
      have hc : c ≠ '"' := fun he => hv (he ▸ List.mem_cons_self)
      have hv : '"' ∉ v := fun hm => hv (List.mem_cons_of_mem _ hm)
      rw [List.cons_append, h.quoted, if_neg hc, ih hv, Option.map_map]
      rfl
  intro s
  rw [List.cons_append, List.append_assoc, h.quotes]
  refine (congrArg (Option.map _) (hinside s)).trans ?_
  rw [Option.map_map, List.length_cons, List.length_append]
  rfl

/-- Where markup is closed it ends. -/
theorem Closer.length (h : Closer find? plain) (hp : Passes find? p)
    (rest : List Char) : find? none (p ++ '>' :: rest) = some p.length := by
  rw [hp, h.closes]
  exact congrArg some (Nat.zero_add _)

end

theorem toOption_map {α β : Type} (x : Except Fault α) (f : α → β) :
    (x.map f).toOption = x.toOption.map f := by
  cases x <;> rfl

theorem closer_tag : Closer (fun quote s => (tagLength quote s).toOption)
    (fun c => c ≠ '>' ∧ c ≠ '"' ∧ c ≠ '\'') where
  quoted _ _ _ := toOption_map _ _
  quotes _ := toOption_map _ _
  plain hc s := by
    rw [tagLength, if_neg hc.1, decide_eq_false hc.2.1, decide_eq_false hc.2.2]
    exact toOption_map _ _
  closes _ := rfl

theorem closer_doctype : Closer doctypeLength
    (fun c => c ≠ '>' ∧ c ≠ '[' ∧ c ≠ '"' ∧ c ≠ '\'') where
  quoted _ _ _ := rfl
  quotes _ := rfl
  plain hc s := by
    rw [doctypeLength, if_neg hc.1, if_neg hc.2.1, decide_eq_false hc.2.2.1,
      decide_eq_false hc.2.2.2]
    rfl
  closes _ := rfl

/-- A part of a tag that does not close it. -/
abbrev PassesTag : List Char → Prop :=
  Passes fun quote s => (tagLength quote s).toOption

theorem tagLength_of_passes {p : List Char} (hp : PassesTag p)
    (rest : List Char) : tagLength none (p ++ '>' :: rest) = .ok p.length := by
  have h := closer_tag.length hp rest
  cases hlength : tagLength none (p ++ '>' :: rest) with
  | error fault =>
    rw [hlength] at h
    cases h
  | ok n =>
    rw [hlength] at h
    exact congrArg Except.ok (Option.some.inj h)

theorem passes_name (hname : isXmlName name = true) :
    PassesTag name.toList := by
  obtain ⟨c, cs, -, hchars⟩ := chars_of_isXmlName hname
  exact closer_tag.passes_plain fun d hd =>
    ⟨(hchars d hd).closer, (hchars d hd).double, (hchars d hd).single⟩

theorem passes_char {c : Char} (hc : c ≠ '>' ∧ c ≠ '"' ∧ c ≠ '\'') :
    PassesTag [c] :=
  closer_tag.passes_plain fun _ hd => List.mem_singleton.1 hd ▸ hc

theorem passes_tag (hname : isXmlName name = true)
    (hnames : ∀ a ∈ attributes, isXmlName a.1 = true) :
    PassesTag (tagChars name attributes) := by
  refine (passes_name hname).append ?_
  induction attributes with
  | nil => exact passes_nil
  | cons a as ih =>
    obtain ⟨ha, has⟩ := List.forall_mem_cons.1 hnames
    rw [List.flatMap_cons]
    refine Passes.append ?_ (ih has)
    have hvalue := closer_tag.passes_quoted (quote_not_mem_escaped a.2.toList)
    exact (passes_char (by decide)).append
      ((passes_name ha).append ((passes_char (by decide)).append hvalue))

-- ====================================================================== tags

/-- Attributes end in a quote. -/
theorem getLast?_attributes {c : Char}
    (h : (attributes.flatMap attributeChars).getLast? = some c) : c = '"' := by
  induction attributes with
  | nil => cases h
  | cons a as ih =>
    rw [List.flatMap_cons, List.getLast?_append] at h
    cases hlast : (as.flatMap attributeChars).getLast? with
    | some d =>
      rw [hlast] at h
      cases h
      exact ih hlast
    | none =>
      rw [hlast, Option.none_or] at h
      have hquote : attributeChars a
          = ' ' :: (a.1.toList ++ '=' :: '"' :: a.2.toList.flatMap escapeChar)
            ++ ['"'] := by
        simp [attributeChars]
      rw [hquote, List.getLast?_concat] at h
      exact (Option.some.inj h).symm

/-- The last character of a tag is one of its name, or a quote. -/
theorem getLast?_tagChars (hname : isXmlName name = true) :
    (tagChars name attributes).getLast? ≠ some '/' := by
  intro h
  rw [tagChars, List.getLast?_append] at h
  cases hlast : (attributes.flatMap attributeChars).getLast? with
  | some d =>
    rw [hlast] at h
    cases h
    exact absurd (getLast?_attributes hlast) (by decide)
  | none =>
    rw [hlast, Option.none_or] at h
    obtain ⟨c, cs, -, hchars⟩ := chars_of_isXmlName hname
    exact (hchars '/' (List.mem_of_getLast? h)).slash rfl

theorem startPiece_written (hname : isXmlName name = true)
    (hnames : ∀ a ∈ attributes, isXmlName a.1 = true) (rest : List Char) :
    startPiece (tagChars name attributes ++ '>' :: rest)
      = .ok (some (.start (tagChars name attributes) false),
        (tagChars name attributes).length + 1) := by
  unfold startPiece
  rw [tagLength_of_passes (passes_tag hname hnames)]
  simp only [bind, Except.bind, List.take_left]
  rw [if_neg (getLast?_tagChars hname)]

theorem startPiece_empty (hname : isXmlName name = true)
    (hnames : ∀ a ∈ attributes, isXmlName a.1 = true) (rest : List Char) :
    startPiece (tagChars name attributes ++ '/' :: '>' :: rest)
      = .ok (some (.start (tagChars name attributes) true),
        (tagChars name attributes).length + 2) := by
  have hpasses := (passes_tag hname hnames).append
    (passes_char (c := '/') (by decide))
  unfold startPiece
  rw [List.append_cons, tagLength_of_passes hpasses]
  simp only [bind, Except.bind, List.take_left]
  rw [if_pos List.getLast?_concat, List.dropLast_concat, List.length_append]
  rfl

theorem endPiece_written (hname : isXmlName name = true) (rest : List Char) :
    endPiece ('/' :: (name.toList ++ '>' :: rest))
      = .ok (some (.stop name), name.toList.length + 2) := by
  obtain ⟨c, cs, hcons, hchars⟩ := chars_of_isXmlName hname
  have hpasses := (passes_char (c := '/') (by decide)).append (passes_name hname)
  have hspace : name.toList.all isSpace = false := by
    rw [hcons, List.all_cons, (hchars c (hcons ▸ List.mem_cons_self)).space]
    rfl
  have hend : endName name.toList = name.toList := by
    unfold endName
    rw [hspace]
    show (name.toList.reverse.dropWhile isSpace).reverse = _
    -- a name does not end with white space, so nothing is cut off it
    have hkept : name.toList.reverse.dropWhile isSpace = name.toList.reverse := by
      cases hlast : name.toList.reverse with
      | nil => rfl
      | cons d ds =>
        have hmem : d ∈ name.toList :=
          List.mem_reverse.1 (hlast ▸ List.mem_cons_self)
        refine List.dropWhile_cons_of_neg ?_
        rw [(hchars d hmem).space]
        exact Bool.false_ne_true
    rw [hkept, List.reverse_reverse]
  have hlength := tagLength_of_passes hpasses rest
  rw [List.singleton_append, List.cons_append] at hlength
  unfold endPiece
  rw [hlength]
  show Except.ok (some (Event.stop (String.ofList (endName
    (('/' :: (name.toList ++ '>' :: rest)).take (name.toList.length + 1)).tail))),
      _) = _
  rw [List.take_succ_cons, List.take_left, List.tail_cons, hend,
    String.ofList_toList]
  rfl

end

end Stencil.Markup
